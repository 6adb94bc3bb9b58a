import CadenceEntry.Kind.Table
import CadenceEntry.Syntax.Type

/-!
# Descriptors

A descriptor says of what kind the type of a parameter is. Optionality is a mark on the descriptor
and not a layer around it, and what an array or a dictionary consists of is part of the descriptor,
so a descriptor of another kind has neither. The raw type, by which a descriptor names what it
describes, is the text of a type when it comes from a source, and any JSON value when it comes from
a document.
-/

set_option autoImplicit false

namespace CadenceEntry

/-- What is known about a type. -/
inductive Descriptor (ρ : Type) where
  | named (kind : Option ScalarKind) (raw : ρ) (isOptional : Bool)
  | array (raw : ρ) (isOptional : Bool) (element : Descriptor ρ) (size : Int)
  | dictionary (raw : ρ) (isOptional : Bool) (key value : Descriptor ρ)
  deriving DecidableEq

namespace Descriptor

variable {ρ σ : Type}

/-- The size of an array that can be of any size. -/
def unbounded : Int := -1

/-- The kind of a type. -/
def kind : Descriptor ρ → TypeKind
  | named none _ _ => .unknown
  | named (some k) _ _ => .scalar k
  | array .. => .array
  | dictionary .. => .dictionary

/-- The raw type. -/
def raw : Descriptor ρ → ρ
  | named _ r _ | array r _ _ _ | dictionary r _ _ _ => r

/-- Whether the type is optional. -/
def isOptional : Descriptor ρ → Bool
  | named _ _ o | array _ o _ _ | dictionary _ o _ _ => o

/-- The descriptor of the same type made optional. -/
def asOptional : Descriptor ρ → Descriptor ρ
  | named k r _ => named k r true
  | array r _ e n => array r true e n
  | dictionary r _ k v => dictionary r true k v

/-- The descriptor with other raw types. -/
def map (f : ρ → σ) : Descriptor ρ → Descriptor σ
  | named k r o => named k (f r) o
  | array r o e n => array (f r) o (e.map f) n
  | dictionary r o k v => dictionary (f r) o (k.map f) (v.map f)

/-- The descriptor of a type. Optionals, arrays and dictionaries are described by their structure,
every other type by looking up its text. -/
def ofType (table : KindTable ScalarKind) : TypeExpr → Descriptor String
  | .optional t _ => (ofType table t).asOptional
  | .variableSized t s =>
    array (TypeExpr.text (.variableSized t s)) false (ofType table t) unbounded
  | .constantSized t n literal s =>
    array (TypeExpr.text (.constantSized t n literal s)) false (ofType table t) n
  | .dictionary k v s =>
    dictionary (TypeExpr.text (.dictionary k v s)) false (ofType table k) (ofType table v)
  | t => named (table.kind? t.text) t.text false

/-- The texts of the types inside a type that no kind is known for, from left to right. -/
def unclassified (table : KindTable ScalarKind) : TypeExpr → List String
  | .optional t _ | .variableSized t _ | .constantSized t _ _ _ => unclassified table t
  | .dictionary k v _ => unclassified table k ++ unclassified table v
  | t => if (table.kind? t.text).isNone then [t.text] else []

end Descriptor

end CadenceEntry
