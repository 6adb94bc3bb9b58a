import CadenceEntry.Proofs.Source.Writing
import Mathlib.Data.List.Induction

/-!
# A text at another place

What is read of a text does not depend on the place where the text begins, apart from the places of
the words. `Position.movedFrom a b` says where the places of a text go that is moved from `a` to
`b`: offsets and lines are shifted, and columns on the first line only. Since it commutes with going
on in the text (`movedFrom_afterAll`), what is read at `b` is what is read at `a`, with each word
moved: `NextWord.read_moved`.
-/

set_option autoImplicit false

namespace CadenceEntry

open Grammar (State Terminal)

namespace Position

/-- The place of what stands at `p` when the text from `a` on is moved to `b`. Places before `a`
stay where they are, and so does the place of what no text was written for. -/
def movedFrom (a b p : Position) : Position :=
  if p = {} ∨ p.offset < a.offset then p
  else
    { offset := b.offset + (p.offset - a.offset)
      line := b.line + (p.line - a.line)
      column := if p.line = a.line then b.column + (p.column - a.column) else p.column }

/-- What no text was written for is not moved. -/
@[simp] theorem movedFrom_zero (a b : Position) : movedFrom a b {} = {} := by
  simp [movedFrom]

/-- What stands before the moved text stays where it is. -/
theorem movedFrom_of_lt {a b p : Position} (h : p.offset < a.offset) : movedFrom a b p = p := by
  rw [movedFrom, if_pos (.inr h)]

/-- What stands in the moved text keeps its distance from the beginning of it. -/
theorem offset_movedFrom {a b p : Position} (hline : 0 < p.line) (h : a.offset ≤ p.offset) :
    (movedFrom a b p).offset = b.offset + (p.offset - a.offset) := by
  have hne : ¬ (p = {} ∨ p.offset < a.offset) := by
    rintro (rfl | hlt)
    · exact absurd hline (by decide)
    · omega
  rw [movedFrom, if_neg hne]

/-- A text does not lead back. -/
theorem le_afterAll (a : Position) (cs : List Char) :
    a.line ≤ (a.afterAll cs).line ∧
      ((a.afterAll cs).line = a.line → a.column ≤ (a.afterAll cs).column) := by
  induction cs generalizing a with
  | nil => exact ⟨Nat.le_refl _, fun _ => Nat.le_refl _⟩
  | cons x cs ih =>
    obtain ⟨hline, hcolumn⟩ := ih (a.after x)
    rw [afterAll_cons]
    unfold after at hline hcolumn ⊢
    split at hline
    · next hx =>
      simp only [if_pos hx] at hline hcolumn ⊢
      constructor <;> omega
    · next hx =>
      simp only [if_neg hx] at hline hcolumn ⊢
      refine ⟨hline, fun h => ?_⟩
      have hle := hcolumn h
      omega

/-- Going on in a text that is moved leads where the place goes that the text leads to. -/
theorem movedFrom_afterAll {a : Position} (ha : 0 < a.line) (b : Position) (cs : List Char) :
    movedFrom a b (a.afterAll cs) = b.afterAll cs := by
  induction cs using List.reverseRecOn with
  | nil =>
    have hne : ¬ (a = {} ∨ a.offset < a.offset) := by
      rintro (rfl | h)
      · exact absurd ha (by decide)
      · omega
    rw [afterAll_nil, afterAll_nil, movedFrom, if_neg hne]
    simp
  | append_singleton cs x ih =>
    obtain ⟨hline, hcolumn⟩ := le_afterAll a cs
    have hoffset := offset_afterAll a cs
    rw [afterAll_append, afterAll_append, ← ih]
    generalize a.afterAll cs = p at *
    have hne : ¬ (p = {} ∨ p.offset < a.offset) := by
      rintro (rfl | h)
      · have hzero : a.line ≤ 0 := hline
        omega
      · omega
    have hne' : ¬ (p.after x = {} ∨ (p.after x).offset < a.offset) := by
      have hafter := offset_after p x
      rintro (h | h)
      · rw [h] at hafter
        have hzero : 0 = p.offset + 1 := hafter
        omega
      · omega
    rw [afterAll_cons, afterAll_cons, afterAll_nil, afterAll_nil, movedFrom, if_neg hne',
      movedFrom, if_neg hne]
    unfold after
    split
    · simp only [mk.injEq]
      refine ⟨by omega, by omega, if_neg ?_⟩
      omega
    · simp only [mk.injEq]
      refine ⟨by omega, trivial, ?_⟩
      split
      · next h =>
        have hle := hcolumn h
        omega
      · rfl

end Position

/-- A word stands where another one goes. -/
structure Lexeme.Moved (f : Position → Position) (w w' : Lexeme) : Prop where
  text : w'.text = w.text
  start : w'.start = f w.start
  stop : w'.stop = f w.stop

/-- The same text stands at both cursors, and all of its places go from the first to the second. -/
structure Cursor.Moved (f : Position → Position) (c c' : Cursor) : Prop where
  rest : c'.rest = c.rest
  place : ∀ cs, c'.place.afterAll cs = f (c.place.afterAll cs)

/-- Places go where the text goes that is moved from `a` to `b`. -/
theorem Cursor.moved_of_movedFrom {a : Position} (ha : 0 < a.line) (b : Position)
    (cs : List Char) : Cursor.Moved (Position.movedFrom a b) ⟨a, cs⟩ ⟨b, cs⟩ :=
  ⟨rfl, fun ds => (Position.movedFrom_afterAll ha b ds).symm⟩

namespace Cursor.Moved

variable {f : Position → Position} {c c' : Cursor}

/-- Cursors that are moved stay so when both advance. -/
theorem advance (h : Moved f c c') (n : Nat) : Moved f (c.advance n) (c'.advance n) := by
  refine ⟨?_, fun cs => ?_⟩
  · rw [Cursor.advance, Cursor.advance, h.rest]
  · rw [Cursor.advance, Cursor.advance, h.rest, ← Position.afterAll_append, h.place,
      Position.afterAll_append]

/-- The words at two cursors that are moved. -/
theorem lexeme (h : Moved f c c') (n : Nat) : Lexeme.Moved f (c.lexeme n) (c'.lexeme n) := by
  refine ⟨?_, h.place [], ?_⟩
  · rw [Cursor.lexeme, Cursor.lexeme, h.rest]
  · rw [Lexeme.stop, Lexeme.stop, Cursor.lexeme, Cursor.lexeme, h.rest]
    exact h.place _

end Cursor.Moved

namespace NextWord

/-- The same comes next in both texts, and its places go from the first to the second. -/
inductive Moved (f : Position → Position) : NextWord → NextWord → Prop
  | word (t : Terminal) {w w' : Lexeme} {c c' : Cursor} (hw : w.Moved f w') (hc : c.Moved f c') :
      Moved f (.word t w c) (.word t w' c')
  | finish : Moved f .finish .finish
  | stuck {c c' : Cursor} (hc : c.Moved f c') : Moved f (.stuck c) (.stuck c')

/-- At another place the same word is read off the same text. -/
theorem read_moved {f : Position → Position} (q : State) {c c' : Cursor} (hc : c.Moved f c') :
    Moved f (read q c) (read q c') := by
  -- each gap leaves a shorter text
  induction hlength : c.rest.length using Nat.strong_induction_on generalizing c c' with
  | _ length ih =>
    have hrest := hc.rest
    by_cases hnil : c.rest = []
    · rw [read_of_nil hnil, read_of_nil (hrest.trans hnil)]
      exact .finish
    cases hnext : Piece.next? q c.rest with
    | none =>
      rw [read_of_next?_eq_none hnil hnext, read_of_next?_eq_none (hrest ▸ hnil) (hrest ▸ hnext)]
      exact .stuck hc
    | some p =>
      cases p with
      | word t n =>
        rw [read_of_word hnext, read_of_word (hrest ▸ hnext)]
        exact .word t (hc.lexeme n) (hc.advance n)
      | gap n =>
        have hpos : 0 < n := Piece.length_pos_of_next? hnext
        rw [read_of_gap hnext, read_of_gap (c := c') (hrest ▸ hnext)]
        exact ih _ (hlength ▸ Cursor.length_advance_lt hpos hnil) (hc.advance n) rfl

/-- What is read in the first text is read in the second, and its places go there. -/
theorem Moved.exists_word {f : Position → Position} {r : NextWord} {t : Terminal} {w : Lexeme}
    {c : Cursor} (h : Moved f (.word t w c) r) :
    ∃ w' c', r = .word t w' c' ∧ w.Moved f w' ∧ c.Moved f c' := by
  cases h with
  | word _ hw hc => exact ⟨_, _, rfl, hw, hc⟩

end NextWord

end CadenceEntry
