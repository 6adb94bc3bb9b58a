import CadenceEntry.Grammar.Automaton
import CadenceEntry.Proofs.Grammar.LookaheadSet

/-!
# The table is closed

A state awaits a production if it has read some of its symbols and may go on with the next one. The
rows list what is awaited after at least one symbol; what is awaited from the beginning is found
from where the first symbols lead. `Awaits` is both, and the four statements about it are what the
automaton needs to find every derivation: the next symbol has a move and the state behind it awaits
what is left; a word is pushed and never taken for a lookahead; a phrase is awaited with all its
productions and with every lookahead that can come behind it; and a production that has been read is
put together. All four come from one check of each row.
-/

set_option autoImplicit false

namespace CadenceEntry.Grammar

/-- The list of all productions leaves none out. -/
theorem Production.mem_all (p : Production) : p ∈ Production.all := by
  cases p <;> decide +kernel

/-- The list of all phrases leaves none out. -/
theorem Nonterminal.mem_all (n : Nonterminal) : n ∈ Nonterminal.all := by
  cases n <;> decide

/-- The ways to build a phrase. -/
def Nonterminal.productions (n : Nonterminal) : List Production :=
  Production.all.filter fun p => p.lhs == n

/-- A production is a way to build its phrase. -/
theorem Production.mem_productions (p : Production) : p ∈ p.lhs.productions :=
  List.mem_filter.2 ⟨p.mem_all, beq_self_eq_true p.lhs⟩

/-- The words that a symbol can begin with, as far as `depth` phrases within each other tell. -/
def Symbol.firstsWithin : Nat → Symbol → LookaheadSet
  | _, .token t => .single (.word t)
  | 0, .phrase _ => .empty
  | depth + 1, .phrase n =>
    n.productions.foldr (fun p m =>
      match p.rhs with
      | [] => m
      | s :: _ => if s == .phrase n then m else (firstsWithin depth s).union m) .empty

/-- The words that a symbol can begin with. -/
def Symbol.firsts (s : Symbol) : LookaheadSet := s.firstsWithin 12

/-- What can come where the symbols `ss` come first and the lookaheads `m` behind them. -/
def LookaheadSet.before (m : LookaheadSet) : List Symbol → LookaheadSet
  | [] => m
  | s :: _ => s.firsts

/-- What a row says can follow the production `p` when `done` of its symbols have been read. -/
def Row.follow (r : Row) (p : Production) (done : Nat) : LookaheadSet :=
  match r.items.find? fun i => i.production == p && i.done == done with
  | some i => .ofList i.follow
  | none => .empty

/-- What can follow the phrase `n` where it begins in the row `r`: what can follow each of its
productions in the state that the first symbol leads to, and what can follow the phrases that it can
be built from alone, as far as `depth` of them within each other tell. -/
def Row.expectedWithin (r : Row) : Nat → Nonterminal → LookaheadSet
  | 0, _ => .empty
  | depth + 1, n =>
    n.productions.foldr (fun p m =>
      match p.rhs with
      | [] => m.inter (r.follow p 0)
      | s :: ss =>
        match r.move? s with
        | none => .empty
        | some q =>
          let m := m.inter (q.row.follow p 1)
          match ss, s with
          | [], .phrase k => m.inter (r.expectedWithin depth k)
          | _, _ => m) (.ofList Lookahead.all)

/-- What can follow the phrase `n` where it begins in the row `r`. -/
def Row.expected (r : Row) (n : Nonterminal) : LookaheadSet :=
  if (r.move? (.phrase n)).isSome then r.expectedWithin 6 n else .empty

/-- Whether a production has been read to its end. -/
def Item.isComplete (i : Item) : Bool := i.done == i.production.rhs.length

/-- The lookaheads that ask to put a production together. -/
def Row.completing (r : Row) : LookaheadSet :=
  r.items.foldr (fun i m => if i.isComplete then (LookaheadSet.ofList i.follow).union m else m)
    .empty

/-- Whether the row `r` can go on with the production `p` of which `done` symbols have been read,
for all lookaheads in `m`. -/
def Row.goesOn (r : Row) (p : Production) (done : Nat) (m : LookaheadSet) : Bool :=
  match p.rhs.drop done with
  | [] =>
    m.within (r.follow p done) && r.items.all fun i =>
      !i.isComplete || i.production == p || m.disjoint (.ofList i.follow)
  | s :: ss =>
    (match r.move? s with
    | none => false
    | some q => m.within (q.row.follow p (done + 1))) &&
    match s with
    | .token t => (LookaheadSet.single (.word t)).disjoint r.completing
    | .phrase n => (m.before ss).within (r.expected n)

/-- Whether the row can go on with everything that it awaits. -/
def Row.isClosed (r : Row) : Bool :=
  (r.items.all fun i => r.goesOn i.production i.done (.ofList i.follow)) &&
  r.moves.all fun m =>
    match m.1 with
    | .token _ => true
    | .phrase n =>
      (r.expected n).isEmpty || n.productions.all fun p => r.goesOn p 0 (r.expected n)

/-- Every row can go on with everything that it awaits. -/
theorem Table.isClosed_all : Table.rows.all Row.isClosed = true := by decide +kernel

/-- Every state can go on with everything that it awaits. -/
theorem State.isClosed (q : State) : q.row.isClosed = true := by
  unfold State.row
  cases hr : Table.rows[q]? with
  | none => rfl
  | some r => exact List.all_eq_true.1 Table.isClosed_all r (List.mem_of_getElem? hr)

/-- The state `q` has read `done` symbols of the production `p`, or may begin with it if that is
none, and `a` can follow the production here. -/
def State.Awaits (q : State) (p : Production) (done : Nat) (a : Lookahead) : Prop :=
  (q.row.follow p done).has a = true ∨ done = 0 ∧ (q.row.expected p.lhs).has a = true

/-- What a row says of a production it says in one of its items. -/
theorem Row.exists_item_of_follow {r : Row} {p : Production} {n : Nat} {a : Lookahead}
    (h : (r.follow p n).has a = true) :
    ∃ i ∈ r.items, i.production = p ∧ i.done = n ∧ a ∈ i.follow ∧
      r.follow p n = .ofList i.follow := by
  unfold Row.follow at h ⊢
  cases hi : r.items.find? fun i => i.production == p && i.done == n with
  | none => simp [hi] at h
  | some i =>
    have hprop := List.find?_some hi
    simp only [Bool.and_eq_true, beq_iff_eq] at hprop
    rw [hi] at h
    exact ⟨i, List.mem_of_find?_eq_some hi, hprop.1, hprop.2, LookaheadSet.has_ofList_iff.1 h, rfl⟩

/-- A phrase can only be expected where it has a move. -/
theorem Row.move?_of_expected {r : Row} {n : Nonterminal} {a : Lookahead}
    (h : (r.expected n).has a = true) : ∃ q, (Symbol.phrase n, q) ∈ r.moves := by
  unfold Row.expected at h
  split at h
  · next hs =>
    obtain ⟨q, hq⟩ := Option.isSome_iff_exists.1 hs
    obtain ⟨l₁, l₂, hl, -⟩ := List.lookup_eq_some_iff.1 hq
    exact ⟨q, by rw [hl]; simp⟩
  · simp at h

namespace State.Awaits

variable {q : State} {p : Production} {n : Nat} {a : Lookahead}

/-- What is awaited can go on. -/
theorem goesOn (h : q.Awaits p n a) :
    ∃ m : LookaheadSet, m.has a = true ∧ q.row.goesOn p n m = true := by
  have hclosed := q.isClosed
  simp only [Row.isClosed, Bool.and_eq_true, List.all_eq_true] at hclosed
  rcases h with h | ⟨rfl, h⟩
  · obtain ⟨i, hi, rfl, rfl, ha, -⟩ := Row.exists_item_of_follow h
    exact ⟨_, LookaheadSet.has_ofList_iff.2 ha, hclosed.1 i hi⟩
  · obtain ⟨q', hq'⟩ := Row.move?_of_expected h
    have hall := hclosed.2 _ hq'
    simp only [LookaheadSet.isEmpty_eq_false h, Bool.false_or, List.all_eq_true] at hall
    exact ⟨_, h, hall p p.mem_productions⟩

/-- A production that has been read is put together. -/
theorem reduction? (h : q.Awaits p p.rhs.length a) : q.row.reduction? a = some p := by
  obtain ⟨m, hm, hgo⟩ := h.goesOn
  simp only [Row.goesOn, List.drop_length, Bool.and_eq_true, List.all_eq_true] at hgo
  obtain ⟨i, hi, hp, hn, ha, -⟩ := Row.exists_item_of_follow (LookaheadSet.has_of_within hgo.1 hm)
  unfold Row.reduction?
  cases hf : q.row.items.find? fun i =>
      i.done == i.production.rhs.length && i.follow.contains a with
  | none =>
    have hnot := List.find?_eq_none.1 hf i hi
    simp [hn, hp, ha] at hnot
  | some j =>
    have hj := List.find?_some hf
    simp only [Bool.and_eq_true, List.contains_iff_mem] at hj
    have hother := hgo.2 j (List.mem_of_find?_eq_some hf)
    simp only [Item.isComplete, hj.1, Bool.not_true, Bool.false_or, Bool.or_eq_true,
      beq_iff_eq] at hother
    rcases hother with hother | hother
    · simp [hother]
    · have hnot := LookaheadSet.not_has_of_disjoint hother hm
      rw [LookaheadSet.has_ofList_iff.2 hj.2] at hnot
      exact absurd hnot (by simp)

/-- The next symbol leads to a state that awaits what is left. -/
theorem next {s : Symbol} (h : q.Awaits p n a) (hs : p.rhs[n]? = some s) :
    ∃ q', q.row.move? s = some q' ∧ q'.Awaits p (n + 1) a := by
  obtain ⟨m, hm, hgo⟩ := h.goesOn
  obtain ⟨hlt, hget⟩ := List.getElem?_eq_some_iff.1 hs
  rw [Row.goesOn, List.drop_eq_getElem_cons hlt, hget] at hgo
  simp only [Bool.and_eq_true] at hgo
  cases hq : q.row.move? s with
  | none => simp [hq] at hgo
  | some q' =>
    rw [hq] at hgo
    exact ⟨q', rfl, .inl (LookaheadSet.has_of_within hgo.1 hm)⟩

/-- A word that is awaited is pushed: it completes nothing before. -/
theorem reduction?_eq_none {t : Terminal} (h : q.Awaits p n a)
    (hs : p.rhs[n]? = some (.token t)) : q.row.reduction? (.word t) = none := by
  obtain ⟨m, hm, hgo⟩ := h.goesOn
  obtain ⟨hlt, hget⟩ := List.getElem?_eq_some_iff.1 hs
  rw [Row.goesOn, List.drop_eq_getElem_cons hlt, hget] at hgo
  simp only [Bool.and_eq_true] at hgo
  have hnot : q.row.completing.has (.word t) = false :=
    LookaheadSet.not_has_of_disjoint hgo.2 (by simp)
  unfold Row.reduction?
  rw [Option.map_eq_none_iff, List.find?_eq_none]
  intro i hi hcomplete
  simp only [Bool.and_eq_true, List.contains_iff_mem] at hcomplete
  have hmem : q.row.completing.has (.word t) = true := by
    unfold Row.completing
    revert hi
    induction q.row.items with
    | nil => intro hi; simp at hi
    | cons j js ih =>
      intro hi
      rw [List.foldr_cons]
      rcases List.mem_cons.1 hi with rfl | hi
      · simp [Item.isComplete, hcomplete.1, LookaheadSet.has_ofList_iff.2 hcomplete.2]
      · split
        · simp [ih hi]
        · exact ih hi
  rw [hmem] at hnot
  exact absurd hnot (by simp)

/-- A phrase that comes next is awaited with all of its productions, and with every lookahead that
what comes behind it can begin with. -/
theorem begin {k : Nonterminal} {p' : Production} {b : Lookahead} (h : q.Awaits p n a)
    (hs : p.rhs[n]? = some (.phrase k)) (hp : p'.lhs = k)
    (hb : ((LookaheadSet.single a).before (p.rhs.drop (n + 1))).has b = true) :
    q.Awaits p' 0 b := by
  obtain ⟨m, hm, hgo⟩ := h.goesOn
  obtain ⟨hlt, hget⟩ := List.getElem?_eq_some_iff.1 hs
  rw [Row.goesOn, List.drop_eq_getElem_cons hlt, hget] at hgo
  simp only [Bool.and_eq_true] at hgo
  have hbefore : (m.before (p.rhs.drop (n + 1))).has b = true := by
    cases hdrop : p.rhs.drop (n + 1) with
    | nil =>
      simp only [hdrop, LookaheadSet.before, LookaheadSet.has_single, decide_eq_true_eq] at hb ⊢
      rw [← hb]
      exact hm
    | cons s ss =>
      simp only [hdrop, LookaheadSet.before] at hb ⊢
      exact hb
  exact .inr ⟨rfl, by rw [hp]; exact LookaheadSet.has_of_within hgo.2 hbefore⟩

end State.Awaits

end CadenceEntry.Grammar
