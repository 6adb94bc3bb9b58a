import CadenceEntry.Source.Derive
import CadenceEntry.Syntax.Meaning

/-!
# Parsing

A text is derived first and given its meaning afterwards, so an integer literal without a value is
only reported when everything else is right.
-/

set_option autoImplicit false

namespace CadenceEntry

open Grammar

/-- The value of a derivation, unless one of its integer literals has none. -/
def Grammar.Derivation.evaluate (source : List Char) {s : Symbol} (d : Derivation s) :
    Except SyntaxError s.Value :=
  match d.invalidInteger? with
  | some w => .error (.invalidInteger w.spelling)
  | none => .ok (d.value source)

/-- The program that a text is. -/
def Program.parse (text : String) : Except SyntaxError Program :=
  (Source.derive .program text.toList).bind (·.evaluate text.toList)

/-- The type, with its resource marker, that a text is. -/
def AnnotatedType.parse (text : String) : Except SyntaxError AnnotatedType :=
  (Source.derive .typeText text.toList).bind (·.evaluate text.toList)

/-- The type that a text is, without its resource marker. -/
def TypeExpr.parse (text : String) : Except SyntaxError TypeExpr :=
  (AnnotatedType.parse text).map AnnotatedType.type

end CadenceEntry
