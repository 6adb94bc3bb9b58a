import CadenceEntry.Grammar.Symbol
import Mathlib.Data.Nat.Bitwise

/-!
# Sets of lookaheads

The lookaheads are few, so a set of them is a number with one bit for each. Membership, union and
inclusion are then single operations on numbers, which makes facts about the whole table cheap to
check. The main statement is `has_ofList_iff`: the set of a list has the lookaheads of the list.
-/

set_option autoImplicit false

namespace CadenceEntry.Grammar

/-- A terminal stands in the list of all terminals at its number. -/
theorem Terminal.all_getElem? (t : Terminal) : Terminal.all[t.ctorIdx]? = some t := by
  cases t <;> rfl

/-- Terminals with the same number are the same. -/
theorem Terminal.ctorIdx_injective {s t : Terminal} (h : s.ctorIdx = t.ctorIdx) : s = t := by
  have hs := Terminal.all_getElem? s
  rw [h, Terminal.all_getElem? t] at hs
  exact (Option.some.inj hs).symm

/-- All lookaheads are listed. -/
theorem Lookahead.mem_all (a : Lookahead) : a ∈ all := by
  cases a with
  | word t => cases t <;> decide
  | finish => decide

/-- The bit of a lookahead in a set. -/
def Lookahead.index : Lookahead → Nat
  | finish => 0
  | word t => t.ctorIdx + 1

/-- Lookaheads with the same bit are the same. -/
theorem Lookahead.index_injective {a b : Lookahead} (h : a.index = b.index) : a = b := by
  cases a with
  | finish =>
    cases b with
    | finish => rfl
    | word t => exact absurd h (by simp [index])
  | word s =>
    cases b with
    | finish => exact absurd h (by simp [index])
    | word t => rw [Terminal.ctorIdx_injective (Nat.succ.inj h)]

/-- A set of lookaheads, one bit for each. -/
def LookaheadSet := Nat

namespace LookaheadSet

/-- The set without elements. -/
def empty : LookaheadSet := (0 : Nat)

/-- The set of one lookahead. -/
def single (a : Lookahead) : LookaheadSet := (2 ^ a.index : Nat)

/-- The lookaheads of two sets. -/
def union (m n : LookaheadSet) : LookaheadSet := Nat.lor m n

/-- The lookaheads that two sets share. -/
def inter (m n : LookaheadSet) : LookaheadSet := Nat.land m n

/-- The lookaheads of a list. -/
def ofList (as : List Lookahead) : LookaheadSet :=
  as.foldr (fun a m => (single a).union m) empty

/-- Whether a set has a lookahead. -/
def has (m : LookaheadSet) (a : Lookahead) : Bool := Nat.testBit m a.index

/-- Whether all lookaheads of one set are in another. -/
def within (m n : LookaheadSet) : Bool := Nat.beq (Nat.land m n) m

/-- Whether a set has nothing. -/
def isEmpty (m : LookaheadSet) : Bool := Nat.beq m 0

/-- Whether two sets share nothing. -/
def disjoint (m n : LookaheadSet) : Bool := Nat.beq (Nat.land m n) 0

/-- The empty set has nothing. -/
@[simp] theorem has_empty (a : Lookahead) : empty.has a = false := Nat.zero_testBit a.index

/-- A set with something is not empty. -/
theorem isEmpty_eq_false {m : LookaheadSet} {a : Lookahead} (h : m.has a = true) :
    m.isEmpty = false := by
  rw [Bool.eq_false_iff]
  intro hm
  have heq : m = empty := Nat.eq_of_beq_eq_true hm
  rw [heq, has_empty] at h
  exact absurd h (by simp)

/-- The set of one lookahead has that one only. -/
@[simp] theorem has_single (a b : Lookahead) : (single a).has b = decide (a = b) := by
  have h : (single a).has b = decide (a.index = b.index) := Nat.testBit_two_pow
  rw [h]
  exact decide_eq_decide.2 ⟨Lookahead.index_injective, congrArg _⟩

/-- A union has what one of its parts has. -/
@[simp] theorem has_union (m n : LookaheadSet) (a : Lookahead) :
    (m.union n).has a = (m.has a || n.has a) := Nat.testBit_or m n a.index

/-- An intersection has what both of its parts have. -/
@[simp] theorem has_inter (m n : LookaheadSet) (a : Lookahead) :
    (m.inter n).has a = (m.has a && n.has a) := Nat.testBit_and m n a.index

/-- The set of a list has the lookaheads of the list. -/
theorem has_ofList_iff {as : List Lookahead} {a : Lookahead} :
    (ofList as).has a = true ↔ a ∈ as := by
  induction as with
  | nil => simp [ofList]
  | cons b as ih =>
    have hcons : ofList (b :: as) = (single b).union (ofList as) := rfl
    rw [hcons, has_union, has_single, Bool.or_eq_true, decide_eq_true_iff, ih, List.mem_cons,
      eq_comm]

/-- What is in a set is in every set around it. -/
theorem has_of_within {m n : LookaheadSet} {a : Lookahead} (h : m.within n = true)
    (ha : m.has a = true) : n.has a = true := by
  have heq : m.inter n = m := Nat.eq_of_beq_eq_true h
  have hboth : (m.inter n).has a = true := by rw [heq, ha]
  simp only [has_inter, Bool.and_eq_true] at hboth
  exact hboth.2

/-- What is in a set is in no set disjoint from it. -/
theorem not_has_of_disjoint {m n : LookaheadSet} {a : Lookahead} (h : m.disjoint n = true)
    (ha : m.has a = true) : n.has a = false := by
  have heq : m.inter n = empty := Nat.eq_of_beq_eq_true h
  have hboth : (m.inter n).has a = false := by rw [heq, has_empty]
  simpa [ha] using hboth

end LookaheadSet

end CadenceEntry.Grammar
