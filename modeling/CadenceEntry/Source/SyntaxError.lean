import CadenceEntry.Grammar.Symbol
import CadenceEntry.Source.Position

/-!
# Why a text is refused

A text is refused at the first word that cannot come next, at a character that begins no word, at
its end, or, when it is read to the end, because of an integer literal without a value. The first
three name what could have come instead.
-/

set_option autoImplicit false

namespace CadenceEntry

open Grammar (Lookahead)

/-- The reason why a text is refused. -/
inductive SyntaxError where
  | unexpectedWord (text : List Char) (expected : List Lookahead) (place : Position)
  | unexpectedCharacter (c : Char) (expected : List Lookahead) (place : Position)
  | unexpectedEnd (expected : List Lookahead) (place : Position)
  | invalidInteger (literal : String)
  deriving DecidableEq, Repr

namespace SyntaxError

/-- The place a message points at. An integer literal is reported without one. -/
def place? : SyntaxError → Option Position
  | unexpectedWord _ _ p | unexpectedCharacter _ _ p | unexpectedEnd _ p => some p
  | invalidInteger _ => none

/-- What could have come instead, as a message lists it. -/
def expectation : List Lookahead → String
  | [] => ""
  | as => ", expected " ++ ", ".intercalate (as.map Lookahead.description)

/-- The reason without the place. -/
def reason : SyntaxError → String
  | unexpectedWord w as _ => "unexpected token '" ++ String.ofList w ++ "'" ++ expectation as
  | unexpectedCharacter c as _ =>
    "unexpected character '" ++ String.singleton c ++ "'" ++ expectation as
  | unexpectedEnd as _ => "unexpected end of program" ++ expectation as
  | invalidInteger s => "invalid integer literal: " ++ s

/-- The whole message: the reason and, if there is one, the place. -/
def message (e : SyntaxError) : String :=
  match e.place? with
  | none => e.reason
  | some p =>
    "Parsing failed:\nerror: " ++ e.reason ++ "\n --> " ++ toString p.line ++ ":" ++
      toString p.column

end SyntaxError

end CadenceEntry
