import CadenceEntry.Source.Position

/-!
# Type expressions

The types that a Cadence source text can write, with the places they were written at, and their
text. The text of a type has one space after a comma or a colon and no grouping parentheses.
-/

set_option autoImplicit false

namespace CadenceEntry

/-- A name and where it stands. -/
structure Identifier where
  text : String := ""
  place : Position := {}
  deriving DecidableEq, Repr

/-- A type name, qualified by the names before it: `Address`, `FungibleToken.Vault`. -/
structure NominalType where
  head : Identifier := {}
  nested : List Identifier := []
  span : Span := {}
  deriving DecidableEq, Repr

namespace NominalType

/-- The parts of a type name joined by dots. -/
def text (t : NominalType) : String :=
  ".".intercalate (t.head.text :: t.nested.map Identifier.text)

end NominalType

mutual

/-- A type as it is written. -/
inductive TypeExpr where
  /-- `A.B` -/
  | nominal (name : NominalType)
  /-- `T?` -/
  | optional (wrapped : TypeExpr) (span : Span)
  /-- `[T]` -/
  | variableSized (element : TypeExpr) (span : Span)
  /-- `[T; 3]`. The literal keeps the spelling of the size; an empty one shows the size itself. -/
  | constantSized (element : TypeExpr) (size : Int) (literal : String) (span : Span)
  /-- A dictionary from keys to values. -/
  | dictionary (key value : TypeExpr) (span : Span)
  /-- `T<U>` -/
  | instantiation (base : TypeExpr) (arguments : List AnnotatedType) (span : Span)
  /-- `&T`, `auth &T`, `auth(E) &T` -/
  | reference (authorized : Bool) (entitlements : List NominalType) (target : TypeExpr)
      (span : Span)
  /-- The values that conform to all interfaces of a list. -/
  | intersection (interfaces : List NominalType) (span : Span)
  /-- A type that is used through the interfaces of a list only. -/
  | restricted (base : NominalType) (interfaces : List NominalType) (span : Span)
  /-- `fun(T): U` -/
  | function (parameters : List AnnotatedType) (result : Option AnnotatedType) (span : Span)

/-- A type with its resource marker. -/
inductive AnnotatedType where
  | mk (isResource : Bool) (type : TypeExpr) (span : Span)

end

namespace AnnotatedType

/-- Whether the type is marked by `@`. -/
def isResource : AnnotatedType → Bool
  | mk r _ _ => r

/-- The type without its marker. -/
def type : AnnotatedType → TypeExpr
  | mk _ t _ => t

/-- Where the type stands with its marker. -/
def span : AnnotatedType → Span
  | mk _ _ s => s

end AnnotatedType

/-- A list of type names in braces. -/
def NominalType.braced (ts : List NominalType) : String :=
  "\x7b" ++ ", ".intercalate (ts.map NominalType.text) ++ "\x7d"

/-- What stands before the ampersand of a reference. Entitlements imply an authorization. -/
def NominalType.authorization (authorized : Bool) (entitlements : List NominalType) : String :=
  match entitlements with
  | [] => if authorized then "auth " else ""
  | es => "auth(" ++ ", ".intercalate (es.map NominalType.text) ++ ") "

mutual

/-- The text of a type. A function type without a result shows `None` in its place. -/
def TypeExpr.text : TypeExpr → String
  | .nominal n => n.text
  | .optional t _ => t.text ++ "?"
  | .variableSized t _ => "[" ++ t.text ++ "]"
  | .constantSized t size literal _ =>
    "[" ++ t.text ++ "; " ++ (if literal.isEmpty then toString size else literal) ++ "]"
  | .dictionary k v _ => "\x7b" ++ k.text ++ ": " ++ v.text ++ "\x7d"
  | .instantiation t args _ => t.text ++ "<" ++ ", ".intercalate (AnnotatedType.texts args) ++ ">"
  | .reference authorized es t _ => NominalType.authorization authorized es ++ "&" ++ t.text
  | .intersection ts _ => NominalType.braced ts
  | .restricted t ts _ => t.text ++ NominalType.braced ts
  | .function ps none _ => "fun(" ++ ", ".intercalate (AnnotatedType.texts ps) ++ "): None"
  | .function ps (some r) _ =>
    "fun(" ++ ", ".intercalate (AnnotatedType.texts ps) ++ "): " ++ r.text

/-- The text of a type with its resource marker. -/
def AnnotatedType.text : AnnotatedType → String
  | .mk r t _ => if r then "@" ++ t.text else t.text

/-- The texts of a list of types. -/
def AnnotatedType.texts : List AnnotatedType → List String
  | [] => []
  | a :: as => a.text :: AnnotatedType.texts as

end

end CadenceEntry
