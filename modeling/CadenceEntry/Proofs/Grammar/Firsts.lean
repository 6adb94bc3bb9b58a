import CadenceEntry.Proofs.Grammar.Closure

/-!
# What derivations begin with

Every phrase but a program has a word, and the first word of a derivation is one of those that its
symbol can begin with. So the word that comes behind a symbol in a right-hand side is one with which
the rest of the right-hand side can begin, or what follows the production if nothing is left.
-/

set_option autoImplicit false

namespace CadenceEntry.Grammar

/-- What comes next where the words `ws` come first and the lookahead `a` behind them. -/
def Lookahead.next (ws : List (Terminal × Lexeme)) (a : Lookahead) : Lookahead :=
  match ws with
  | [] => a
  | (t, _) :: _ => .word t

/-- Of two lists of words the second comes behind the first. -/
theorem Lookahead.next_append (ws ws' : List (Terminal × Lexeme)) (a : Lookahead) :
    next (ws ++ ws') a = next ws (next ws' a) := by
  cases ws <;> rfl

/-- A program stands in no right-hand side. -/
theorem Production.program_notMem_rhs (p : Production) : .phrase .program ∉ p.rhs := by
  have hall : (Production.all.all fun p => !p.rhs.contains (.phrase .program)) = true := by
    decide
  have hp := List.all_eq_true.1 hall p p.mem_all
  simpa using hp

/-- Only a program is built from nothing. -/
theorem Production.rhs_ne_nil {p : Production} (h : p.lhs ≠ .program) : p.rhs ≠ [] := by
  have hall : (Production.all.all fun p => p.lhs == .program || !p.rhs.isEmpty) = true := by
    decide
  have hp := List.all_eq_true.1 hall p p.mem_all
  simp only [Bool.or_eq_true, beq_iff_eq] at hp
  rcases hp with hp | hp
  · exact absurd hp h
  · simpa using hp

/-- A phrase can begin with what the first symbol of one of its productions can begin with. -/
theorem Production.firsts_within {p : Production} {s : Symbol} {ss : List Symbol}
    (h : p.rhs = s :: ss) : s.firsts.within (Symbol.phrase p.lhs).firsts = true := by
  have hall : (Production.all.all fun p =>
      p.rhs.head?.all fun s => s.firsts.within (Symbol.phrase p.lhs).firsts) = true := by
    decide +kernel
  have hp := List.all_eq_true.1 hall p p.mem_all
  rwa [h, List.head?_cons, Option.all_some] at hp

mutual

/-- Every derivation but that of a program has a word, and begins with one that its symbol can begin
with. -/
theorem Derivation.exists_first {s : Symbol} (d : Derivation s) (hs : s ≠ .phrase .program) :
    ∃ t w ws, d.words = (t, w) :: ws ∧ s.firsts.has (.word t) = true :=
  match d with
  | .leaf t w => ⟨t, w, [], rfl, by simp [Symbol.firsts, Symbol.firstsWithin]⟩
  | .node p ds => by
    have hne : p.rhs ≠ [] := Production.rhs_ne_nil fun h => hs (by rw [h])
    obtain ⟨s', ss, hrhs⟩ := List.exists_cons_of_ne_nil hne
    have hs' : s' ≠ .phrase .program := by
      intro h
      exact p.program_notMem_rhs (by rw [hrhs, h]; simp)
    obtain ⟨t, w, ws, hws, ht⟩ := ds.exists_first hrhs hs'
    exact ⟨t, w, ws, hws, LookaheadSet.has_of_within (Production.firsts_within hrhs) ht⟩

/-- A list of derivations begins with a word that the first symbol can begin with. -/
theorem Derivations.exists_first {ss : List Symbol} (ds : Derivations ss) {s : Symbol}
    {ss' : List Symbol} (h : ss = s :: ss') (hs : s ≠ .phrase .program) :
    ∃ t w ws, ds.words = (t, w) :: ws ∧ s.firsts.has (.word t) = true :=
  match ds with
  | .nil => absurd h (by simp)
  | .cons d ds => by
    obtain ⟨rfl, rfl⟩ := List.cons.inj h
    obtain ⟨t, w, ws, hws, ht⟩ := d.exists_first hs
    exact ⟨t, w, ws ++ ds.words, by rw [Derivations.words, hws, List.cons_append], ht⟩

end

/-- What comes behind a symbol of a right-hand side is a word with which the rest of it can begin,
or what follows the production if nothing is left. -/
theorem Derivations.has_before {ss : List Symbol} (ds : Derivations ss) (a : Lookahead)
    (h : .phrase .program ∉ ss) :
    ((LookaheadSet.single a).before ss).has (Lookahead.next ds.words a) = true := by
  cases ds with
  | nil => simp [LookaheadSet.before, Derivations.words, Lookahead.next]
  | @cons s ss d ds =>
    obtain ⟨t, w, ws, hws, ht⟩ := d.exists_first (s := s) fun hs => h (by rw [hs]; simp)
    rw [Derivations.words, hws]
    exact ht

/-- Where a production is awaited of which a symbol and more is left, the symbol has a move, is not
taken for a lookahead if it is a word, and is awaited with what comes behind it if it is a phrase.
-/
theorem State.Awaits.cons {q : State} {p : Production} {n : Nat} {a : Lookahead} {s : Symbol}
    {ss : List Symbol} (h : q.Awaits p n a) (hss : p.rhs.drop n = s :: ss) (ds : Derivations ss) :
    n < p.rhs.length ∧ p.rhs.drop (n + 1) = ss ∧
      (∃ q', q.row.move? s = some q' ∧ q'.Awaits p (n + 1) a) ∧
      (∀ t, s = .token t → q.row.reduction? (.word t) = none) ∧
      ∀ p' : Production, s = .phrase p'.lhs → q.Awaits p' 0 (Lookahead.next ds.words a) := by
  have hlt : n < p.rhs.length := by
    by_contra hge
    rw [List.drop_eq_nil_of_le (Nat.le_of_not_lt hge)] at hss
    exact absurd hss (by simp)
  have hget : p.rhs[n]? = some s := by
    rw [← List.head?_drop, hss]
    rfl
  have hrest : p.rhs.drop (n + 1) = ss := by
    rw [← List.drop_drop, hss]
    rfl
  have hbefore : ((LookaheadSet.single a).before (p.rhs.drop (n + 1))).has
      (Lookahead.next ds.words a) = true := by
    rw [hrest]
    exact ds.has_before a fun hmem =>
      p.program_notMem_rhs (List.mem_of_mem_drop (hrest ▸ hmem : _ ∈ p.rhs.drop (n + 1)))
  refine ⟨hlt, hrest, h.next hget, ?_, ?_⟩
  · intro t ht
    exact h.reduction?_eq_none (ht ▸ hget)
  · intro p' hp'
    exact h.begin (hp' ▸ hget) rfl hbefore

end CadenceEntry.Grammar
