import CadenceEntry.Proofs.Source.Writing
import CadenceEntry.Proofs.Syntax.Evaluation
import CadenceEntry.Proofs.TypeText.Characters

/-!
# Names spelled like keywords in types

A type can begin with `fun` or `auth`, so no name is spelled like one of them where a type begins,
nor behind the brace of an intersection, which could be that of a dictionary. Behind the ampersand
of a reference only `auth` is reserved, and everywhere else in a type a name may have any spelling.
`Derivation.Proper` says this of a derivation by the productions it is made of, without the states
of the automaton, so it can be said of a derivation that has not been read yet.
-/

set_option autoImplicit false

namespace CadenceEntry.Grammar

/-- The phrases of the copy of the type syntax that results are written in. -/
def Nonterminal.isResult : Nonterminal → Bool
  | .annotatedResult | .resultType | .resultPostfix | .resultPrimary => true
  | _ => false

/-- The phrases of both copies of the type syntax. -/
def Nonterminal.writesType (n : Nonterminal) : Bool := n.isType || n.isResult

/-- The symbols of both copies of the type syntax. -/
def Symbol.writesType : Symbol → Bool
  | .token t => (Symbol.token t).isType
  | .phrase n => n.writesType

/-- The keywords that a type can begin with. -/
def Terminal.typeWords : List Terminal := [.funWord, .authWord]

/-- The keywords that are no names at the beginning of the part `n` of a phrase. -/
def Production.reservedAt (p : Production) (n : Nat) : List Terminal :=
  match p.rhs[n]? with
  | some (.phrase .annotatedType) | some (.phrase .type) | some (.phrase .annotatedResult)
  | some (.phrase .resultType) => Terminal.typeWords
  | some (.phrase .primaryType) | some (.phrase .resultPrimary) => [.authWord]
  | some (.phrase .nominalType) =>
    if p.rhs.head? = some (.token .leftBrace) then Terminal.typeWords else []
  | _ => []

/-- Only keywords that a type can begin with are reserved. -/
theorem Production.reservedAt_subset (p : Production) (n : Nat) :
    p.reservedAt n ⊆ Terminal.typeWords := by
  unfold reservedAt
  split
  iterate 4 exact List.Subset.refl _
  iterate 2 decide
  · split
    · exact List.Subset.refl _
    · exact List.nil_subset _
  · exact List.nil_subset _

/-- Whether the row `r` reserves what `reservedAt` says, for all parts of types in it that can begin
with a name. Such a part stands behind a word. -/
def Row.reservesForTypes (r : Row) : Bool :=
  r.items.all fun i =>
    match i.done with
    | 0 => true
    | n + 1 =>
      match i.production.rhs[n]?, i.production.rhs[n + 1]? with
      | some (.token _), some s =>
        !i.production.lhs.writesType || !s.firsts.has (.word .name) || Terminal.all.all fun k =>
          !WordClass.name.covers k ||
            r.admits (.word k) == (i.production.reservedAt (n + 1)).contains k
      | _, some s => !i.production.lhs.writesType || !s.firsts.has (.word .name)
      | _, none => true

/-- Every row reserves for the types in it what should be reserved. -/
theorem Table.reservesForTypes_all : Table.rows.all Row.reservesForTypes = true := by
  decide +kernel

/-- The keywords that the state `q` admits are those in `ks`. -/
def State.Reserves (q : State) (ks : List Terminal) : Prop :=
  ∀ k, WordClass.name.covers k = true → (q.admits (.word k) = true ↔ k ∈ ks)

/-- A part of a type that can begin with a name stands behind a word, and the state behind this word
reserves the keywords that are no names there. -/
theorem State.Awaits.reserves {q : State} {p : Production} {n : Nat} {a : Lookahead} {s : Symbol}
    (h : q.Awaits p (n + 1) a) (hp : p.lhs.writesType = true) (hs : p.rhs[n + 1]? = some s)
    (hname : s.firsts.has (.word .name) = true) :
    (∃ t, p.rhs[n]? = some (.token t)) ∧ q.Reserves (p.reservedAt (n + 1)) := by
  have hfollow : (q.row.follow p (n + 1)).has a = true := by
    rcases h with h | ⟨h, -⟩
    · exact h
    · exact absurd h (Nat.succ_ne_zero n)
  obtain ⟨i, hi, rfl, hdone, -, -⟩ := Row.exists_item_of_follow hfollow
  have hcheck : (q.row.reservesForTypes) = true := by
    unfold State.row at hi ⊢
    cases hr : Table.rows[q]? with
    | none =>
      rw [hr] at hi
      exact absurd hi (by simp)
    | some r => exact List.all_eq_true.1 Table.reservesForTypes_all r (List.mem_of_getElem? hr)
  have hitem := List.all_eq_true.1 hcheck i hi
  simp only [hdone, hs, hp] at hitem
  split at hitem
  · next t s' ht heq =>
    obtain rfl := Option.some.inj heq
    refine ⟨⟨t, ht⟩, fun k hk => ?_⟩
    rw [hname] at hitem
    simp only [Bool.not_true, Bool.false_or] at hitem
    have hadmits := List.all_eq_true.1 hitem k k.mem_all
    rw [hk] at hadmits
    simp only [Bool.not_true, Bool.false_or, beq_iff_eq] at hadmits
    unfold State.admits
    rw [hadmits, List.contains_iff_mem]
  · next heq _ =>
    obtain rfl := Option.some.inj heq
    rw [hname] at hitem
    exact absurd hitem (by simp)
  · next heq => exact absurd heq (by simp)

/-- A terminal that has a spelling has a fixed one. -/
theorem Terminal.mem_fixed_of_chars? {t : Terminal} {w : List Char} (h : t.chars? = some w) :
    t ∈ fixed := by
  cases t <;> first
    | decide
    | exact absurd h (by simp [chars?, spelling?])

/-- A name is not reserved if none of the keywords is spelled like it. -/
theorem State.Reserves.reserves_eq_false_iff {q : State} {ks : List Terminal} {w : List Char}
    (h : q.Reserves ks) (hw : Terminal.name.Matches w) :
    q.reserves w = false ↔ ∀ k ∈ ks, k.chars? ≠ some w := by
  constructor
  · intro hreserves k hk hchars
    have hcovers : WordClass.name.covers k = true := (Terminal.covers_iff hchars).2 hw
    have hadmits := (h k hcovers).2 hk
    have hnot := List.any_eq_false.1 hreserves k (Terminal.mem_fixed_of_chars? hchars)
    simp [hadmits, hchars] at hnot
  · intro hks
    refine List.any_eq_false.2 fun k _ hk => ?_
    simp only [Bool.and_eq_true, beq_iff_eq] at hk
    have hcovers : WordClass.name.covers k = true := (Terminal.covers_iff hk.2).2 hw
    exact hks k ((h k hcovers).1 hk.1) hk.2

mutual

/-- The words of a derivation are words of their terminals, every integer literal has a value, and
no name is spelled like a keyword that is reserved where it stands. The keywords `ks` are those that
are reserved at the beginning. -/
def Derivation.Proper {s : Symbol} (d : Derivation s) (ks : List Terminal) : Prop :=
  match d with
  | .leaf t w =>
    t.Matches w.text ∧ (t = .name → ∀ k ∈ ks, k.chars? ≠ some w.text) ∧
      (t = .integer → (Number.IntegerLiteral.value? w.text).isSome = true)
  | .node p ds => ds.Proper p 0 ks

/-- The parts of a phrase from the part `n` on are proper. -/
def Derivations.Proper {ss : List Symbol} (ds : Derivations ss) (p : Production) (n : Nat)
    (ks : List Terminal) : Prop :=
  match ds with
  | .nil => True
  | .cons d ds => d.Proper ks ∧ ds.Proper p (n + 1) (p.reservedAt (n + 1))

end

mutual

/-- Fewer reserved keywords leave a derivation proper. -/
theorem Derivation.Proper.mono {s : Symbol} {d : Derivation s} {ks ks' : List Terminal}
    (h : d.Proper ks) (hks : ks' ⊆ ks) : d.Proper ks' :=
  match d with
  | .leaf _ _ => ⟨h.1, fun ht k hk => h.2.1 ht k (hks hk), h.2.2⟩
  | .node _ _ => Derivations.Proper.mono h hks

/-- Derivations that are proper for some keywords are so for fewer. -/
theorem Derivations.Proper.mono {ss : List Symbol} {ds : Derivations ss} {p : Production} {n : Nat}
    {ks ks' : List Terminal} (h : ds.Proper p n ks) (hks : ks' ⊆ ks) : ds.Proper p n ks' :=
  match ds with
  | .nil => trivial
  | .cons _ _ => ⟨h.1.mono hks, h.2⟩

end

/-- The state behind a word is the one that the word leads to. -/
theorem Derivation.lastState_of_token {t : Terminal} (d : Derivation (.token t)) (q q₀ : State) :
    d.lastState q q₀ = q.goto (.token t) := by
  cases d
  rfl

/-- A type is made of symbols that types are made of. -/
theorem Production.isType_of_mem {p : Production} {s : Symbol} (hp : p.lhs.isType = true)
    (h : s ∈ p.rhs) : s.isType = true := by
  have hall : (Production.all.all fun p => !p.lhs.isType || p.rhs.all Symbol.isType) = true := by
    decide +kernel
  have hrhs := List.all_eq_true.1 hall p p.mem_all
  rw [hp, Bool.not_true, Bool.false_or] at hrhs
  exact List.all_eq_true.1 hrhs s h

/-- What a type is put together from is made of types and their words, in both copies. -/
theorem Production.writesType_of_mem {p : Production} {s : Symbol} (hp : p.lhs.writesType = true)
    (h : s ∈ p.rhs) : s.writesType = true := by
  have hall : (Production.all.all fun p =>
      !p.lhs.writesType || p.rhs.all Symbol.writesType) = true := by
    decide
  have hrhs := List.all_eq_true.1 hall p p.mem_all
  rw [hp, Bool.not_true, Bool.false_or] at hrhs
  exact List.all_eq_true.1 hrhs s h

mutual

/-- A derivation that is awaited is proper if its words are well-formed and it is legible, and the
other way around. -/
theorem Derivation.proper_iff {s : Symbol} (d : Derivation s) {q q₀ : State} {a : Lookahead}
    {ks : List Terminal} (htype : s.writesType = true)
    (hphrase : ∀ p : Production, s = .phrase p.lhs → q.Awaits p 0 a)
    (hks : s.firsts.has (.word .name) = true → q₀.Reserves ks) :
    d.Proper ks ↔ (∀ x ∈ d.words, x.1.Matches x.2.text) ∧ d.invalidInteger? = none ∧
      d.Legible q q₀ :=
  match d with
  | .leaf t w => by
    have hinteger : (Derivation.leaf t w).invalidInteger? = none ↔
        (t = .integer → (Number.IntegerLiteral.value? w.text).isSome = true) := by
      simp [Derivation.invalidInteger?_eq_none_iff, Derivation.words]
    have hname : t.Matches w.text → ((t = .name → ∀ k ∈ ks, k.chars? ≠ some w.text) ↔
        (t = .name → q₀.reserves w.text = false)) := by
      intro hw
      refine forall_congr' fun ht => ?_
      subst ht
      exact ((hks (by decide)).reserves_eq_false_iff hw).symm
    rw [Derivation.Proper, Derivation.Legible, hinteger]
    constructor
    · rintro ⟨hw, hclean, hvalid⟩
      exact ⟨by simpa [Derivation.words] using hw, hvalid, (hname hw).1 hclean⟩
    · rintro ⟨hw, hvalid, hlegible⟩
      have hw : t.Matches w.text := hw (t, w) (List.mem_singleton.2 rfl)
      exact ⟨hw, (hname hw).2 hlegible, hvalid⟩
  | .node p ds => by
    refine ds.proper_iff htype List.drop_zero (hphrase p rfl) fun s hs hname => hks ?_
    obtain ⟨ss, hrhs⟩ := List.head?_eq_some_iff.1 hs
    exact LookaheadSet.has_of_within (Production.firsts_within hrhs) hname

/-- Parts of a type that are awaited are proper if their words are well-formed and they are legible,
and the other way around. -/
theorem Derivations.proper_iff {ss : List Symbol} (ds : Derivations ss) {q q₀ : State}
    {a : Lookahead} {p : Production} {n : Nat} {ks : List Terminal} (hp : p.lhs.writesType = true)
    (hss : p.rhs.drop n = ss) (hawaits : q.Awaits p n a)
    (hks : ∀ s, ss.head? = some s → s.firsts.has (.word .name) = true → q₀.Reserves ks) :
    ds.Proper p n ks ↔ (∀ x ∈ ds.words, x.1.Matches x.2.text) ∧ ds.invalidInteger? = none ∧
      ds.Legible q q₀ :=
  match ds with
  | .nil => by simp [Derivations.Proper, Derivations.words, Derivations.invalidInteger?,
      Derivations.Legible]
  | @Derivations.cons s ss d ds => by
    obtain ⟨hlt, hrest, ⟨q', hmove, hnext⟩, -, hphrase⟩ := hawaits.cons hss ds
    have hget : p.rhs[n]? = some s := by
      rw [← List.head?_drop, hss]
      rfl
    have hgoto : q.goto s = q' := by rw [State.goto, hmove, Option.getD_some]
    have hd : d.Proper ks ↔ (∀ x ∈ d.words, x.1.Matches x.2.text) ∧ d.invalidInteger? = none ∧
        d.Legible q q₀ :=
      d.proper_iff (p.writesType_of_mem hp (List.mem_of_getElem? hget)) hphrase (hks s rfl)
    have hds : ds.Proper p (n + 1) (p.reservedAt (n + 1)) ↔
        (∀ x ∈ ds.words, x.1.Matches x.2.text) ∧ ds.invalidInteger? = none ∧
          ds.Legible q' (d.lastState q q₀) := by
      refine ds.proper_iff hp hrest hnext fun s' hs' hname => ?_
      have hget' : p.rhs[n + 1]? = some s' := by
        rw [← List.head?_drop, hrest, hs']
      obtain ⟨⟨t, ht⟩, hreserves⟩ := hnext.reserves hp hget' hname
      obtain rfl : s = .token t := Option.some.inj (hget.symm.trans ht)
      rw [d.lastState_of_token, hgoto]
      exact hreserves
    rw [Derivations.Proper, Derivations.Legible, Derivations.words, List.forall_mem_append,
      Derivations.invalidInteger?_cons, hgoto, hd, hds]
    tauto

end

end CadenceEntry.Grammar
