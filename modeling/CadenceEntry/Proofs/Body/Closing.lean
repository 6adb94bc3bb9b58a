import CadenceEntry.Proofs.Body.Extent
import CadenceEntry.Proofs.Source.Alike

/-!
# Behind a body

Behind the closing brace of a body the next word, or the end of the text, makes it a block, whatever
the body consists of. So what follows a body is read as if the body were empty.
-/

set_option autoImplicit false

namespace CadenceEntry

open Grammar

namespace Grammar

/-- What can come behind a body at all. -/
def Lookahead.followsBody (a : Lookahead) : Bool := ((State.row 181).reduction? a).isSome

namespace State

/-- Behind a body it is made a block, with items or without. -/
theorem reduction?_of_followsBody {a : Lookahead} (h : a.followsBody = true) :
    (row 181).reduction? a = some .blockItems ∧ (row 182).reduction? a = some .blockEmpty := by
  have hall : (Lookahead.all.all fun a => !a.followsBody ||
      ((row 181).reduction? a == some .blockItems &&
        (row 182).reduction? a == some .blockEmpty)) = true := by
    decide
  have ha := List.all_eq_true.1 hall a a.mem_all
  simpa [h] using ha

/-- Nothing else is done with a body. -/
theorem reduction?_of_not_followsBody {a : Lookahead} (h : a.followsBody = false) :
    (row 181).reduction? a = none ∧ (row 182).reduction? a = none := by
  have hall : (Lookahead.all.all fun a => a.followsBody ||
      ((row 181).reduction? a == none && (row 182).reduction? a == none)) = true := by
    decide
  have ha := List.all_eq_true.1 hall a a.mem_all
  simpa [h] using ha

/-- Behind items the same words are admitted as behind an opening brace. -/
theorem admits_behind_body (t : Terminal) :
    admits 181 (.word t) = admits 182 (.word t) := by
  have hall : (Terminal.all.all fun t => admits 181 (.word t) == admits 182 (.word t)) = true := by
    decide
  exact beq_iff_eq.1 (List.all_eq_true.1 hall t t.mem_all)

/-- Where a body can begin a block is awaited. -/
theorem exists_move?_block {q : State} (h : q.row.move? (.token .leftBrace) = some 179) :
    ∃ q', q.row.move? (.phrase .block) = some q' := by
  have hall : (Table.rows.all fun r => r.move? (.token .leftBrace) != some 179 ||
      (r.move? (.phrase .block)).isSome) = true := by
    decide +kernel
  have hr := List.all_eq_true.1 hall _ (State.row_mem_of_move? h)
  simp only [h, bne_self_eq_false, Bool.false_or] at hr
  exact Option.isSome_iff_exists.1 hr

end State

namespace Stack

variable {g : Goal} {k k₁ k₂ : Stack g}

/-- The stack `k₁` is `k` with the parts of the block `d`, which are not put together yet. -/
structure Completes (k : Stack g) (d : Derivation (.phrase .block)) (k₁ : Stack g) : Prop where
  state : k₁.state = 181 ∨ k₁.state = 182
  valid : d.invalidInteger? = none
  reduces : ∀ {a k'}, a.followsBody = true → k.push? d = some k' → Reduces a k₁ k'

/-- A body that lies on the stack as far as its closing brace runs from brace to brace. -/
theorem Closed.completes {w w' : Lexeme} (h : Closed k w w' k₁) :
    ∃ d, Completes k d k₁ ∧
      ∀ source, d.value source = Block.ofSpan source ⟨w.start, w'.stop⟩ := by
  cases h with
  | items d hd hpush hstate =>
    refine ⟨.node .blockItems (.cons (.leaf .leftBrace w) (.cons d
      (.cons (.leaf .rightBrace w') .nil))), ⟨.inl hstate, ?_, fun ha hnode => ?_⟩, fun _ => rfl⟩
    · refine (Derivations.invalidInteger?_cons _ _).2 ⟨rfl, ?_⟩
      exact (Derivations.invalidInteger?_cons _ _).2 ⟨hd, rfl⟩
    · refine reduces_of_pushAll? hpush ?_ hnode
      rw [hstate]
      exact (State.reduction?_of_followsBody ha).1
  | empty hpush hstate =>
    refine ⟨.node .blockEmpty (.cons (.leaf .leftBrace w) (.cons (.leaf .rightBrace w') .nil)),
      ⟨.inr hstate, rfl, fun ha hnode => ?_⟩, fun _ => rfl⟩
    refine reduces_of_pushAll? hpush ?_ hnode
    rw [hstate]
    exact (State.reduction?_of_followsBody ha).2

/-- What can follow a body makes it a block. -/
theorem Completes.settle {d : Derivation (.phrase .block)} (h : Completes k d k₁) {a : Lookahead}
    {k' : Stack g} (ha : a.followsBody = true) (hpush : k.push? d = some k') :
    k₁.settle a = k'.settle a :=
  settle_of_reduces (h.reduces ha hpush)

/-- What cannot follow a body is not pushed behind one. -/
theorem Completes.push?_settle {d : Derivation (.phrase .block)} (h : Completes k d k₁)
    {t : Terminal} (ht : (Lookahead.word t).followsBody = false) (w : Lexeme) :
    (k₁.settle (.word t)).push? (.leaf t w) = none := by
  obtain ⟨hnone, hnone'⟩ := State.reduction?_of_not_followsBody ht
  have hsettle : k₁.settle (.word t) = k₁ := by
    refine settle_eq_of_settles .refl ?_
    rcases h.state with hstate | hstate
    · rw [hstate]
      exact hnone
    · rw [hstate]
      exact hnone'
  rw [hsettle]
  unfold push?
  rcases h.state with hstate | hstate <;> rw [hstate] <;> rfl

end Stack

end Grammar

namespace Source

open Stack

variable {g : Goal} {k k₁ k₂ : Stack g}

/-- Behind two bodies the same texts are read alike. -/
theorem similar_of_completes {d d' : Derivation (.phrase .block)} (h₁ : Completes k d k₁)
    (h₂ : Completes k d' k₂) (hopen : k.state.row.move? (.token .leftBrace) = some 179) :
    Similar k₁ k₂ := by
  obtain ⟨q, hq⟩ := State.exists_move?_block hopen
  have hpush := push?_of_move? d hq
  have hpush' := push?_of_move? d' hq
  have hvalid : d.invalidInteger? = none ↔ d'.invalidInteger? = none := by
    simp [h₁.valid, h₂.valid]
  have halike : Stack.Alike (⟨⟨.phrase .block, d, q⟩ :: k.frames⟩ : Stack g)
      ⟨⟨.phrase .block, d', q⟩ :: k.frames⟩ := .cons (.mk q hvalid) (Stack.Alike.refl k)
  have hsimilar := similar_of_alike halike
  refine ⟨fun t => ?_, fun t w w' hw => ?_, ?_⟩
  · rcases h₁.state with hstate | hstate <;> rcases h₂.state with hstate' | hstate' <;>
      rw [hstate, hstate']
    · exact State.admits_behind_body t
    · exact (State.admits_behind_body t).symm
  · by_cases ht : (Lookahead.word t).followsBody = true
    · rw [h₁.settle ht hpush, h₂.settle ht hpush']
      exact hsimilar.push t w w' hw
    · rw [Bool.not_eq_true] at ht
      rw [h₁.push?_settle ht, h₂.push?_settle ht]
      exact .none
  · have hfinish : Lookahead.finish.followsBody = true := by decide
    rw [h₁.settle hfinish hpush, h₂.settle hfinish hpush']
    exact hsimilar.result

end Source

end CadenceEntry
