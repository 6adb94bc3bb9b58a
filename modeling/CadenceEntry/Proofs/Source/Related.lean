import CadenceEntry.Grammar.Automaton
import Mathlib.Data.List.Forall2
import Mathlib.Data.Option.Basic

/-!
# Stacks with related derivations

What the automaton does depends on the symbols and the states on its stack only, not on the
derivations there. So if two stacks hold the same symbols in the same states, and related
derivations of them, the same productions are put together on both, and the results are related, as
long as the relation carries over from the parts of a phrase to the phrase: a `Congruence`.
-/

set_option autoImplicit false

namespace CadenceEntry.Grammar

/-- A relation between derivations that carries over from the parts of a phrase to the phrase. -/
structure Congruence where
  rel : {s : Symbol} → Derivation s → Derivation s → Prop
  relAll : {ss : List Symbol} → Derivations ss → Derivations ss → Prop
  nil : relAll .nil .nil
  cons : ∀ {s : Symbol} {ss : List Symbol} {d d' : Derivation s} {ds ds' : Derivations ss},
    rel d d' → relAll ds ds' → relAll (.cons d ds) (.cons d' ds')
  node : ∀ {p : Production} {ds ds' : Derivations p.rhs},
    relAll ds ds' → rel (.node p ds) (.node p ds')

/-- Two frames hold related derivations of the same symbol in the same state. -/
inductive Frame.Related (r : Congruence) : Frame → Frame → Prop
  | mk {s : Symbol} {d d' : Derivation s} (q : State) (hd : r.rel d d') :
      Related r ⟨s, d, q⟩ ⟨s, d', q⟩

namespace Stack

variable {g : Goal} {r : Congruence} {k k' : Stack g}

/-- Two stacks hold related frames, one by one. -/
def Related (r : Congruence) (k k' : Stack g) : Prop :=
  List.Forall₂ (Frame.Related r) k.frames k'.frames

/-- Related stacks are in the same state. -/
theorem Related.state (h : Related r k k') : k.state = k'.state := by
  obtain ⟨fs⟩ := k
  obtain ⟨fs'⟩ := k'
  cases h with
  | nil => rfl
  | cons hf _ =>
    cases hf
    rfl

/-- Related derivations can be pushed on related stacks alike. -/
theorem Related.push? (h : Related r k k') {s : Symbol} {d d' : Derivation s}
    (hd : r.rel d d') : Option.Rel (Related r) (k.push? d) (k'.push? d') := by
  unfold Stack.push?
  rw [← h.state]
  cases k.state.row.move? s with
  | none => exact .none
  | some q => exact .some (.cons (.mk q hd) h)

/-- Related frames hold related derivations of a right-hand side, or none of them does. -/
theorem Related.derivations? (ss : List Symbol) {fs fs' : List Frame}
    (h : List.Forall₂ (Frame.Related r) fs fs') :
    Option.Rel r.relAll (derivations? ss fs) (derivations? ss fs') := by
  induction ss generalizing fs fs' with
  | nil =>
    cases h with
    | nil => exact .some r.nil
    | cons => exact .none
  | cons s ss ih =>
    cases h with
    | nil => exact .none
    | cons hf hfs =>
      obtain ⟨q, hd⟩ := hf
      unfold Stack.derivations?
      dsimp only
      split
      · next hs =>
        subst hs
        have hrel := ih hfs
        revert hrel
        generalize Stack.derivations? ss _ = o
        generalize Stack.derivations? ss _ = o'
        rintro (⟨hds⟩ | _)
        · exact .some (r.cons hd hds)
        · exact .none
      · exact .none

/-- A production is put together on both stacks or on neither. -/
theorem Related.reduce? (h : Related r k k') (p : Production) :
    Option.Rel (Related r) (k.reduce? p) (k'.reduce? p) := by
  have hrel := Related.derivations? p.rhs
    (List.rel_reverse (List.forall₂_take p.rhs.length h))
  unfold Stack.reduce?
  dsimp only
  revert hrel
  generalize Stack.derivations? p.rhs _ = o
  generalize Stack.derivations? p.rhs _ = o'
  rintro (⟨hds⟩ | _)
  · exact Related.push? (List.forall₂_drop p.rhs.length h) (r.node hds)
  · exact .none

/-- Related stacks are settled alike. -/
theorem Related.settleWithin (h : Related r k k') (fuel : Nat) (a : Lookahead) :
    Related r (settleWithin fuel k a) (settleWithin fuel k' a) := by
  induction fuel generalizing k k' with
  | zero => exact h
  | succ fuel ih =>
    rw [Stack.settleWithin, Stack.settleWithin, ← h.state]
    cases k.state.row.reduction? a with
    | none => exact h
    | some p =>
      have hrel := h.reduce? p
      dsimp only
      revert hrel
      generalize k.reduce? p = o
      generalize k'.reduce? p = o'
      rintro (⟨hk⟩ | _)
      · exact ih hk
      · exact h

/-- The same productions are put together on both stacks. -/
theorem Related.settle (h : Related r k k') (a : Lookahead) :
    Related r (k.settle a) (k'.settle a) := by
  have hbound : k.settleBound = k'.settleBound := by
    unfold settleBound
    rw [List.Forall₂.length_eq h]
  unfold Stack.settle
  rw [hbound]
  exact h.settleWithin _ a

/-- Both stacks hold a result or neither. -/
theorem Related.result? (h : Related r k k') : Option.Rel r.rel k.result? k'.result? := by
  obtain ⟨fs⟩ := k
  obtain ⟨fs'⟩ := k'
  cases h with
  | nil => exact .none
  | cons hf hfs =>
    cases hfs with
    | cons => exact .none
    | nil =>
      obtain ⟨q, hd⟩ := hf
      unfold Stack.result?
      dsimp only
      split
      · next hs =>
        subst hs
        exact .some hd
      · exact .none

end Stack

end CadenceEntry.Grammar
