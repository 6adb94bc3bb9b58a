import CadenceEntry.Source.Position

/-!
# Cursors

A cursor is the part of a text that is still to be read, with the place where it begins.
-/

set_option autoImplicit false

namespace CadenceEntry

/-- The rest of a text and the place where it begins. -/
structure Cursor where
  place : Position
  rest : List Char

namespace Cursor

/-- The cursor before the first character of `cs`. -/
def ofText (cs : List Char) : Cursor := ⟨.origin, cs⟩

/-- The cursor `n` characters further on. -/
def advance (c : Cursor) (n : Nat) : Cursor := ⟨c.place.afterAll (c.rest.take n), c.rest.drop n⟩

/-- The word that the next `n` characters are. -/
def lexeme (c : Cursor) (n : Nat) : Lexeme := ⟨c.rest.take n, c.place⟩

/-- Going on leaves less text. -/
theorem length_advance_lt {c : Cursor} {n : Nat} (hn : 0 < n) (hc : c.rest ≠ []) :
    (c.advance n).rest.length < c.rest.length := by
  have : 0 < c.rest.length := List.length_pos_iff.2 hc
  simp only [advance, List.length_drop]
  omega

end Cursor

end CadenceEntry
