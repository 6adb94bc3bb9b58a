/-!
# Places in a source text

A position counts characters; the line starts at one, the column at zero, and only a line feed
starts a new line.
-/

set_option autoImplicit false

namespace CadenceEntry

/-- A place in a source text. The all-zero position marks a node no text was written for. -/
structure Position where
  offset : Nat := 0
  line : Nat := 0
  column : Nat := 0
  deriving DecidableEq, Repr

namespace Position

/-- The place before the first character of a text. -/
def origin : Position := ⟨0, 1, 0⟩

/-- The place after the character `c` that stands at `p`. -/
def after (p : Position) (c : Char) : Position :=
  if c = '\n' then ⟨p.offset + 1, p.line + 1, 0⟩ else ⟨p.offset + 1, p.line, p.column + 1⟩

/-- The place after the text `cs` that starts at `p`. -/
def afterAll (p : Position) (cs : List Char) : Position := cs.foldl after p

/-- Behind no text the place is the same. -/
@[simp] theorem afterAll_nil (p : Position) : p.afterAll [] = p := rfl

/-- The place behind a text is found character by character. -/
@[simp] theorem afterAll_cons (p : Position) (c : Char) (cs : List Char) :
    p.afterAll (c :: cs) = (p.after c).afterAll cs := rfl

/-- A text in two parts moves a place part by part. -/
theorem afterAll_append (p : Position) (xs ys : List Char) :
    p.afterAll (xs ++ ys) = (p.afterAll xs).afterAll ys := List.foldl_append

/-- Every character moves the offset by one. -/
@[simp] theorem offset_after (p : Position) (c : Char) : (p.after c).offset = p.offset + 1 := by
  unfold after; split <;> rfl

/-- A text moves the offset by its length. -/
@[simp] theorem offset_afterAll (p : Position) (cs : List Char) :
    (p.afterAll cs).offset = p.offset + cs.length := by
  induction cs generalizing p with
  | nil => rfl
  | cons c cs ih => rw [afterAll_cons, ih, offset_after, List.length_cons]; omega

end Position

/-- The places of the first and of the last character of a piece of text. -/
structure Span where
  start : Position := {}
  stop : Position := {}
  deriving DecidableEq, Repr

/-- A word as it stands in a text. -/
structure Lexeme where
  text : List Char
  start : Position
  deriving DecidableEq, Repr

namespace Lexeme

/-- The place of the last character of a word. -/
def stop (w : Lexeme) : Position := w.start.afterAll w.text.dropLast

/-- The spelling of a word. -/
def spelling (w : Lexeme) : String := String.ofList w.text

end Lexeme

end CadenceEntry
