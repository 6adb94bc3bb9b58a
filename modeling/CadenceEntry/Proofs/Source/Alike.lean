import CadenceEntry.Proofs.Source.Related
import CadenceEntry.Proofs.Syntax.Evaluation

/-!
# Texts that are read alike

Whether a text is a program does not depend on the places where its words stand, nor on the words of
what has been put together before, as long as they have a value. So two stacks that hold the same
symbols in the same states go on alike with the same text. `Similar` asks for less: the two stacks
may differ in their states, if these admit the same words and lead to stacks that are alike.
-/

set_option autoImplicit false

namespace CadenceEntry

open Grammar

namespace Grammar

/-- Two frames hold the same symbol in the same state, and both of their derivations have a value or
neither. -/
inductive Frame.Alike : Frame → Frame → Prop
  | mk {s : Symbol} {d d' : Derivation s} (q : State)
      (hd : d.invalidInteger? = none ↔ d'.invalidInteger? = none) : Alike ⟨s, d, q⟩ ⟨s, d', q⟩

namespace Stack

variable {g : Goal} {k k' : Stack g}

/-- Two stacks hold frames that are alike, one by one. -/
def Alike (k k' : Stack g) : Prop := List.Forall₂ Frame.Alike k.frames k'.frames

end Stack

/-- Whether derivations have a value carries over from the parts of a phrase to the phrase. -/
def Congruence.valid : Congruence where
  rel d d' := d.invalidInteger? = none ↔ d'.invalidInteger? = none
  relAll ds ds' := ds.invalidInteger? = none ↔ ds'.invalidInteger? = none
  nil := Iff.rfl
  cons hd hds := by
    rw [Derivations.invalidInteger?_cons, Derivations.invalidInteger?_cons, hd, hds]
  node hds := hds

/-- Frames are alike if they are related by whether their derivations have a value. -/
theorem Frame.alike_eq_related : Frame.Alike = Frame.Related .valid := by
  funext f f'
  refine propext ⟨?_, ?_⟩
  · rintro ⟨q, hd⟩
    exact .mk q hd
  · rintro ⟨q, hd⟩
    exact .mk q hd

namespace Stack

variable {g : Goal} {k k' : Stack g}

/-- Stacks are alike if they are related by whether their derivations have a value. -/
theorem alike_eq_related : Stack.Alike (g := g) = Stack.Related .valid := by
  funext k k'
  rw [Stack.Alike, Frame.alike_eq_related]
  rfl

/-- Alike stacks are in the same state. -/
theorem Alike.state (h : Alike k k') : k.state = k'.state := by
  rw [alike_eq_related] at h
  exact h.state

/-- Every stack is alike itself. -/
theorem Alike.refl (k : Stack g) : Alike k k :=
  List.forall₂_same.2 fun f _ => Frame.Alike.mk f.state Iff.rfl

/-- Derivations that both have a value or not are pushed alike. -/
theorem Alike.push? (h : Alike k k') {s : Symbol} {d d' : Derivation s}
    (hd : d.invalidInteger? = none ↔ d'.invalidInteger? = none) :
    Option.Rel Alike (k.push? d) (k'.push? d') := by
  rw [alike_eq_related] at h ⊢
  exact h.push? hd

/-- Stacks are settled alike. -/
theorem Alike.settle (h : Alike k k') (a : Lookahead) : Alike (k.settle a) (k'.settle a) := by
  rw [alike_eq_related] at h ⊢
  exact h.settle a

/-- Both stacks hold a result or neither, and both results have a value or neither. -/
theorem Alike.result? (h : Alike k k') :
    Option.Rel (fun d d' => d.invalidInteger? = none ↔ d'.invalidInteger? = none)
      k.result? k'.result? := by
  rw [alike_eq_related] at h
  exact h.result?

end Stack

end Grammar

namespace NextWord

/-- Two texts go on with the same word, and the same text behind it, or with none. -/
inductive Alike : NextWord → NextWord → Prop
  | word (t : Terminal) {w w' : Lexeme} {c c' : Cursor} (hw : w.text = w'.text)
      (hc : c.rest = c'.rest) : Alike (.word t w c) (.word t w' c')
  | finish : Alike .finish .finish
  | stuck (c c' : Cursor) : Alike (.stuck c) (.stuck c')

/-- The same word is read off the same text, wherever it stands. -/
theorem read_alike (q : State) {c c' : Cursor} (hc : c.rest = c'.rest) :
    Alike (read q c) (read q c') := by
  induction hlength : c.rest.length using Nat.strong_induction_on generalizing c c' with
  | _ length ih =>
    by_cases hnil : c.rest = []
    · rw [read_of_nil hnil, read_of_nil (hc ▸ hnil)]
      exact .finish
    cases hnext : Piece.next? q c.rest with
    | none =>
      rw [read_of_next?_eq_none hnil hnext, read_of_next?_eq_none (hc ▸ hnil) (hc ▸ hnext)]
      exact .stuck c c'
    | some p =>
      have hadvance : ∀ n, (c.advance n).rest = (c'.advance n).rest := by
        intro n
        rw [Cursor.advance, Cursor.advance, hc]
      cases p with
      | word t n =>
        rw [read_of_word hnext, read_of_word (hc ▸ hnext)]
        exact .word t (by rw [Cursor.lexeme, Cursor.lexeme, hc]) (hadvance n)
      | gap n =>
        have hpos : 0 < n := Piece.length_pos_of_next? hnext
        rw [read_of_gap hnext, read_of_gap (c := c') (hc ▸ hnext)]
        exact ih _ (hlength ▸ Cursor.length_advance_lt hpos hnil) (hadvance n) rfl

end NextWord

namespace Source

open Stack

variable {g : Goal} {k k' : Stack g}

/-- Two stacks go on alike: the same words are looked for on both, and when one is read, or the end
of the text, what lies on them is put together to stacks that are alike. -/
structure Similar (k k' : Stack g) : Prop where
  admits : ∀ t, k.state.admits (.word t) = k'.state.admits (.word t)
  push : ∀ (t : Terminal) (w w' : Lexeme), w.text = w'.text →
    Option.Rel Stack.Alike ((k.settle (.word t)).push? (.leaf t w))
      ((k'.settle (.word t)).push? (.leaf t w'))
  result : Option.Rel (fun d d' => d.invalidInteger? = none ↔ d'.invalidInteger? = none)
    (k.settle .finish).result? (k'.settle .finish).result?

/-- Words that are spelled alike both have a value or not. -/
theorem invalidInteger?_leaf (t : Terminal) {w w' : Lexeme} (h : w.text = w'.text) :
    (Derivation.leaf t w).invalidInteger? = none ↔
      (Derivation.leaf t w').invalidInteger? = none := by
  rw [Derivation.invalidInteger?, Derivation.invalidInteger?, h]
  split <;> simp

/-- Alike stacks go on alike. -/
theorem similar_of_alike (h : Stack.Alike k k') : Similar k k' where
  admits t := by rw [h.state]
  push t w w' hw := (h.settle _).push? (invalidInteger?_leaf t hw)
  result := (h.settle _).result?

/-- A text is read to its end, and what is derived has a value. -/
def Accepts {s : Symbol} (r : Except SyntaxError (Derivation s)) : Prop :=
  ∃ d, r = .ok d ∧ d.invalidInteger? = none

/-- Where two stacks go on alike, the same texts are accepted. -/
theorem accepts_deriveFrom_iff (h : Similar k k') (last last' : Position) {c c' : Cursor}
    (hc : c.rest = c'.rest) :
    Accepts (deriveFrom k last c) ↔ Accepts (deriveFrom k' last' c') := by
  induction hlength : c.rest.length using Nat.strong_induction_on
    generalizing k k' last last' c c' with
  | _ length ih =>
    have hread : NextWord.read k'.state c' = NextWord.read k.state c' := by
      unfold NextWord.read
      rw [Piece.next?_congr h.admits]
    have halike := NextWord.read_alike k.state hc
    rw [deriveFrom_eq k, deriveFrom_eq k', hread]
    cases hword : NextWord.read k.state c with
    | word t w c₁ =>
      have hlt : c₁.rest.length < length := hlength ▸ NextWord.length_lt_of_readBy hword
      rw [hword] at halike
      generalize NextWord.read k.state c' = r' at halike
      cases halike with
      | word _ hw hc₁ =>
        have hrel := h.push t w _ hw
        dsimp only
        generalize (k.settle (.word t)).push? (.leaf t w) = o at hrel
        generalize (k'.settle (.word t)).push? (.leaf t _) = o' at hrel
        cases hrel with
        | some hk => exact ih _ hlt (similar_of_alike hk) _ _ hc₁ rfl
        | none => simp [Accepts]
    | finish =>
      rw [hword] at halike
      generalize NextWord.read k.state c' = r' at halike
      cases halike
      have hrel := h.result
      dsimp only
      generalize (k.settle .finish).result? = o at hrel
      generalize (k'.settle .finish).result? = o' at hrel
      cases hrel with
      | some hd => simp [Accepts, hd]
      | none => simp [Accepts]
    | stuck c₁ =>
      rw [hword] at halike
      generalize NextWord.read k.state c' = r' at halike
      cases halike
      simp [Accepts]

end Source

end CadenceEntry
