import CadenceEntry.Descriptor.Basic
import CadenceEntry.Number.IntegerText

/-!
# Descriptors as an outline

A descriptor is shown on one line, its raw type and its kind, followed by indented lines for what an
array or a dictionary consists of. There is no outline if the size of an array is longer than a
decimal text may be.
-/

set_option autoImplicit false

namespace CadenceEntry.Descriptor

/-- So many spaces; none for a negative number. -/
def spaces (n : Int) : String := String.ofList (List.replicate n.toNat ' ')

/-- The size of an array in words, unless the number is too long. -/
def sizeText? (n : Int) : Option String :=
  if n = unbounded then some "unbounded" else Number.decimal? n

/-- The first line of an outline. -/
def heading (indent : Int) (d : Descriptor String) : String :=
  spaces indent ++ d.raw ++ "  (" ++ d.kind.word ++ (if d.isOptional then ", optional" else "") ++
    ")"

/-- The lines of an outline. -/
def outline? (indent : Int) : Descriptor String → Option (List String)
  | named k r o => some [heading indent (named k r o)]
  | array r o e n => do
    let size ← sizeText? n
    let element ← outline? (indent + 4) e
    return heading indent (array r o e n) :: (spaces indent ++ "  size: " ++ size) ::
      (spaces indent ++ "  element:") :: element
  | dictionary r o k v => do
    let key ← outline? (indent + 4) k
    let value ← outline? (indent + 4) v
    return heading indent (dictionary r o k v) :: (spaces indent ++ "  key:") :: key ++
      (spaces indent ++ "  value:") :: value

end CadenceEntry.Descriptor
