/-!
# Places in a YAML text

A cursor is the part of a text that is still to be read, with the line and the column of its first
character and the number of characters before it. Next line, line separator and paragraph separator
end lines as the line feed does. A byte order mark takes no column.
-/

set_option autoImplicit false

namespace CadenceEntry.Yaml

/-- Whether a character ends a line. -/
def isBreak (c : Char) : Bool := c == '\n' || c == '\x85' || c == '\u2028' || c == '\u2029'

/-- The line end that a scalar gets for a line end of the text. -/
def breakChar (c : Char) : Char := if c = '\x85' then '\n' else c

/-- Whether a character is a space or a tab. -/
def isSpaceOrTab (c : Char) : Bool := c == ' ' || c == '\t'

/-- Whether a text is at the end of a line or of everything. -/
def atLineEnd (cs : List Char) : Bool := cs.head?.all isBreak

/-- Whether a text is at a space or at the end of a line. -/
def atSpace (cs : List Char) : Bool := cs.head?.all fun c => c == ' ' || isBreak c

/-- Whether a text is at a space, at a tab or at the end of a line. -/
def atBlank (cs : List Char) : Bool := cs.head?.all fun c => isSpaceOrTab c || isBreak c

/-- Whether a text begins with the marker of the begin of a document. -/
def atDocumentStart : List Char → Bool
  | '-' :: '-' :: '-' :: cs => atBlank cs
  | _ => false

/-- Whether a text begins with the marker of the end of a document. -/
def atDocumentEnd : List Char → Bool
  | '.' :: '.' :: '.' :: cs => atBlank cs
  | _ => false

/-- Whether a text begins with a document marker. -/
def atMarker (cs : List Char) : Bool := atDocumentStart cs || atDocumentEnd cs

/-- The rest of a text and where it begins. -/
structure Cursor where
  rest : List Char
  index : Nat := 0
  line : Nat := 0
  column : Nat := 0

namespace Cursor

/-- The cursor so many characters further on. -/
def advance (c : Cursor) : (n : Nat) → Cursor
  | 0 => c
  | n + 1 =>
    match c.rest with
    | [] => c
    | ch :: rest =>
      if isBreak ch then advance ⟨rest, c.index + 1, c.line + 1, 0⟩ n
      else
        advance ⟨rest, c.index + 1, c.line, if ch = '\ufeff' then c.column else c.column + 1⟩ n

/-- The cursor before the last part of its text. -/
def advanceTo (c : Cursor) (rest : List Char) : Cursor :=
  c.advance (c.rest.length - rest.length)

end Cursor

end CadenceEntry.Yaml
