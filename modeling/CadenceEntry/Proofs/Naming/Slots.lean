import CadenceEntry.Proofs.Source.Writing

/-!
# Where every word is a name

A name is not spelled like a keyword that is looked for in its place. In most places of a
declaration header nothing but a name can come, so there every word is one, keywords included:
`Production.reserved?` lists these places, with the keywords that come into question all the same,
and `Derivation.slots` are the names of a derivation that stand in them. That the states look for no
other keywords there is a check of the table, `State.reservesOnly_of_item`.
-/

set_option autoImplicit false

namespace CadenceEntry

open Grammar
open Source (Head)

namespace Grammar

/-- The keywords that can come instead of a name where the part `n` of a phrase begins, or behind
the phrase if `n` is the number of its parts. The places that are left out are those of types, which
can begin with a keyword, and the beginnings of phrases, where it depends on what comes before. -/
def Production.reserved? (p : Production) (n : Nat) : Option (List Terminal) :=
  match p, n with
  -- imports and pragmas
  | .importFrom, 1 | .importFrom, 3 | .importWhole, 1
  | .importNameFirst, 1 | .importNameNext, 2 | .pragma, 1
  -- fields, functions, events and entitlements
  | .kindLet, 1 | .kindVar, 1 | .fieldAccess, 2 | .field, 1
  | .functionAccessViewResult, 3 | .functionAccessView, 3 | .functionAccessResult, 2
  | .functionAccess, 2 | .functionViewResult, 2 | .functionView, 2 | .functionResult, 1
  | .function, 1 | .eventAccess, 2 | .event, 1 | .entitlementAccess, 2 | .entitlement, 1
  -- interfaces
  | .interfaceAccessConforming, 3 | .interfaceAccess, 3 | .interfaceConforming, 2 | .interface, 2
  -- access modifiers and parameters
  | .accessNamesMany, 2 | .accessNamesOne, 2 | .accessCommaFirst, 1 | .accessBarFirst, 1
  | .accessCommaNext, 2 | .accessBarNext, 2
  | .parametersMany, 1 | .parametersOne, 1 | .parameterFirst, 1 | .parameterNext, 2
  | .parameterLabeled, 1
  -- conformances, restrictions, the members of an intersection behind the first, and entitlements
  | .conformancesMany, 1 | .conformancesOne, 1 | .restrictedMany, 2 | .restrictedOne, 2
  | .nominalFirst, 1 | .nominalNext, 2 | .authorizedMany, 2 | .authorizedOne, 2
  | .authorizedCommaFirst, 1 | .authorizedBarFirst, 1 | .authorizedCommaNext, 2
  | .authorizedBarNext, 2
  -- the parts of a type name behind the first
  | .namePartFirst, 1 | .namePartNext, 2 => some []
  -- other composites, which could be interfaces
  | .kindContract, 1 | .kindResource, 1 | .kindStruct, 1 | .kindEnum, 1
  | .compositeAccessConforming, 2 | .compositeAccess, 2 | .compositeConforming, 1
  | .composite, 1 => some [.interfaceWord]
  | _, _ => none

end Grammar

/-- A name of a derivation, with the keywords that it cannot be. -/
structure NameSlot where
  word : Lexeme
  reserved : List Terminal
  deriving DecidableEq, Repr

namespace Grammar

mutual

/-- The names of a derivation in whose place any other word is a name, but for some keywords; `rs`
are the keywords that could come instead of a name where the derivation begins. Bodies have no
names. -/
def Derivation.slots {s : Symbol} (rs : Option (List Terminal)) : Derivation s → List NameSlot
  | .leaf t w => if t = .name then rs.toList.map fun ts => ⟨w, ts⟩ else []
  | .node p ds => if p.lhs = .block then [] else ds.slots p 0 rs

/-- The names of the parts of a phrase from the part `n` on in whose place any other word is a name,
but for some keywords. -/
def Derivations.slots {ss : List Symbol} (p : Production) (n : Nat) (rs : Option (List Terminal)) :
    Derivations ss → List NameSlot
  | .nil => []
  | .cons d ds => d.slots rs ++ ds.slots p (n + 1) (p.reserved? (n + 1))

end

/-- Among the keywords that are spelled like names the state looks for `ts` only. -/
def State.ReservesOnly (q : State) (ts : List Terminal) : Prop :=
  ∀ t ∈ Terminal.fixed, q.admits (.word t) = true → WordClass.name.covers t = true → t ∈ ts

/-- A name that is spelled like none of these keywords is not reserved. -/
theorem State.ReservesOnly.reserves_eq_false {q : State} {ts : List Terminal}
    (h : q.ReservesOnly ts) {v : List Char} (hv : Terminal.name.Matches v)
    (hts : ∀ t ∈ ts, t.chars? ≠ some v) : q.reserves v = false := by
  rw [Bool.eq_false_iff]
  intro hreserves
  obtain ⟨t, ht, hprop⟩ := List.any_eq_true.1 hreserves
  simp only [Bool.and_eq_true, beq_iff_eq] at hprop
  obtain ⟨hadmits, hchars⟩ := hprop
  have hcovers : WordClass.name.covers t = true := (Terminal.covers_iff hchars).2 hv
  exact hts t (h t ht hadmits hcovers) hchars

/-- Whether behind a word that leads to one of the places, of the keywords only those that come into
question there are admitted. -/
def Row.reservesOnly (r : Row) (i : Item) : Bool :=
  match i.production.rhs[i.done - 1]?, i.production.reserved? i.done with
  | some (.token _), some ts => Terminal.fixed.all fun t =>
      !r.admits (.word t) || !WordClass.name.covers t || ts.contains t
  | _, _ => true

/-- Where a word leads to one of the places, the state looks for the keywords that come into
question there only. -/
theorem State.reservesOnly_of_item {q : State} {i : Item} (hi : i ∈ q.row.items) {n : Nat}
    (hn : i.done = n + 1) {t : Terminal} (ht : i.production.rhs[n]? = some (.token t))
    {ts : List Terminal} (hts : i.production.reserved? (n + 1) = some ts) : q.ReservesOnly ts := by
  have hall : (Table.rows.all fun r => r.items.all r.reservesOnly) = true := by
    decide +kernel
  have hitem := List.all_eq_true.1 (List.all_eq_true.1 hall _ (row_mem_of_item hi)) i hi
  simp only [Row.reservesOnly, hn, Nat.add_sub_cancel, ht, hts, List.all_eq_true, Bool.or_eq_true,
    Bool.not_eq_true', List.contains_iff_mem] at hitem
  intro t ht hadmits hcovers
  have hadmits' : q.row.admits (.word t) = true := hadmits
  rcases hitem t ht with (hnot | hnot) | hmem
  · rw [hadmits'] at hnot
    exact absurd hnot (by simp)
  · rw [hcovers] at hnot
    exact absurd hnot (by simp)
  · exact hmem

/-- Behind a word that leads to one of the places, the state looks for the keywords that come into
question there only. -/
theorem Derivations.reservesOnly_behind_token {ss : List Symbol} (ds : Derivations ss)
    {t : Terminal}
    (ht : ss = [.token t]) {p : Production} {n : Nat} (hss : p.rhs[n]? = some (.token t))
    {q : State} {h h' : Head} {a : Lookahead} (hds : ds.Reads q h h') (hawaits : q.Awaits p n a)
    {ts : List Terminal} (hts : p.reserved? (n + 1) = some ts) : h'.state.ReservesOnly ts := by
  subst ht
  cases ds with | cons d ds =>
  cases d with | leaf _ w =>
  cases ds with | nil =>
  obtain ⟨h₁, q', hd, hmove, hnil⟩ := hds
  obtain rfl : h' = h₁ := hnil
  obtain ⟨q'', hmove', hnext⟩ := hawaits.next hss
  rw [hd.2] at hmove'
  obtain rfl := Option.some.inj hmove'
  rcases hnext with hfollow | ⟨hzero, -⟩
  · obtain ⟨i, hi, rfl, hdone, -⟩ := Row.exists_item_of_follow hfollow
    exact State.reservesOnly_of_item hi hdone hss hts
  · exact absurd hzero (Nat.succ_ne_zero n)

/-- Whether a right-hand side is a single word. -/
def Production.isWord (p : Production) : Bool :=
  match p.rhs with
  | [.token _] => true
  | _ => false

/-- Whether a phrase that leads to one of the places can be single words only, and these reserve the
same keywords. -/
def Production.leadsByWords (p : Production) (n : Nat) : Bool :=
  match p.rhs[n]?, p.reserved? (n + 1) with
  | some (.phrase k), some ts => k.productions.all fun p' => p'.isWord && p'.reserved? 1 == some ts
  | _, _ => true

/-- Only the kind of a field or of a composite is a phrase before one of the places, and it is a
single word. -/
theorem Production.rhs_of_reserved? {p p' : Production} {n : Nat} {ts : List Terminal}
    (hs : p.rhs[n]? = some (.phrase p'.lhs)) (hts : p.reserved? (n + 1) = some ts) :
    (∃ t, p'.rhs = [.token t]) ∧ p'.reserved? 1 = some ts := by
  have hall : (Production.all.all fun p =>
      (List.range p.rhs.length).all p.leadsByWords) = true := by
    decide +kernel
  have hlt : n < p.rhs.length := (List.getElem?_eq_some_iff.1 hs).1
  have hn := List.all_eq_true.1 (List.all_eq_true.1 hall p p.mem_all) n (List.mem_range.2 hlt)
  simp only [Production.leadsByWords, hs, hts] at hn
  have hp' := List.all_eq_true.1 hn p' p'.mem_productions
  simp only [Bool.and_eq_true, beq_iff_eq] at hp'
  refine ⟨?_, hp'.2⟩
  have hrhs := hp'.1
  unfold Production.isWord at hrhs
  split at hrhs
  · next t ht => exact ⟨t, ht⟩
  · exact absurd hrhs (by simp)

/-- Behind a part that leads to one of the places, the state looks for the keywords that come into
question there only. -/
theorem Derivation.reservesOnly_behind {s : Symbol} (d : Derivation s) {p : Production} {n : Nat}
    (hs : p.rhs[n]? = some s) {q : State} {h h' : Head} {a b : Lookahead} (hd : d.Reads q h h')
    (hawaits : q.Awaits p n a) (hphrase : ∀ p' : Production, s = .phrase p'.lhs → q.Awaits p' 0 b)
    {ts : List Terminal} (hts : p.reserved? (n + 1) = some ts) : h'.state.ReservesOnly ts := by
  cases d with
  | leaf t w =>
    obtain ⟨hread, hmove⟩ := hd
    exact (Derivations.cons (.leaf t w) .nil).reservesOnly_behind_token rfl hs
      ⟨h', h'.state, ⟨hread, hmove⟩, hmove, rfl⟩ hawaits hts
  | node p' ds =>
    obtain ⟨⟨t, ht⟩, hts'⟩ := Production.rhs_of_reserved? hs hts
    exact ds.reservesOnly_behind_token ht (by rw [ht]; rfl) hd (hphrase p' rfl) hts'

end Grammar

end CadenceEntry
