/-!
# Line ends

A line ends with a line feed, a carriage return, or both in this order. Texts from outside are
brought to line feeds only.
-/

set_option autoImplicit false

namespace CadenceEntry.Text

/-- A text with line feeds for all line ends. -/
def normalizeNewlines : List Char → List Char
  | [] => []
  | '\r' :: '\n' :: cs => '\n' :: normalizeNewlines cs
  | '\r' :: cs => '\n' :: normalizeNewlines cs
  | c :: cs => c :: normalizeNewlines cs

/-- Whether the end of the first line is known: it may not be if the text ends with a carriage
return, after which a line feed may follow. -/
def hasLine : List Char → Bool
  | [] => false
  | ['\r'] => false
  | c :: cs => c == '\n' || c == '\r' || hasLine cs

/-- A text without the characters `c` at its end. -/
def stripEnd (c : Char) (cs : List Char) : List Char := (cs.reverse.dropWhile (· == c)).reverse

end CadenceEntry.Text
