import CadenceEntry.Datum
import CadenceEntry.Descriptor.Basic
import CadenceEntry.Number.IntegerText

/-!
# Descriptors as JSON

`toJson` writes a descriptor with the code number of its kind. `ofJson` reads one back, from data
that nobody has checked: a missing kind is the unknown one, a part that is null, empty or missing is
not there, sizes may be numbers or texts, and only then the parts that are there must fit the kind.
-/

set_option autoImplicit false

namespace CadenceEntry

/-- Why data do not describe a type or an interaction. -/
inductive DataError where
  /-- The value of a kind is not the number of one. -/
  | notTypeKind (shown : String)
  | notInteractionKind (shown : String)
  /-- An object lacks a member that it must have. -/
  | missingMember (name : String)
  /-- Something else stands where an object with optional members should. -/
  | notObject
  /-- Something else stands where an object with required members should. -/
  | notIndexable
  /-- The parameters cannot be gone through one by one. -/
  | notSequence
  /-- The size is nothing that can be read as an integer. -/
  | sizeNotNumber
  | sizeMalformed (shown : String)
  | sizeTooLong (digits : Nat)
  | sizeInfinite
  | sizeNotANumber
  /-- The parts do not fit the kind. -/
  | arrayMismatch (kind : TypeKind)
  | dictionaryMismatch (kind : TypeKind)
  deriving DecidableEq, Repr

namespace DataError

/-- The message of an error, if it has one. -/
def message? : DataError → Option String
  | notTypeKind s => some (s ++ " is not a valid CadenceTypeKind")
  | notInteractionKind s => some (s ++ " is not a valid InteractionKind")
  | missingMember _ | notObject | notIndexable | notSequence | sizeNotNumber | sizeInfinite => none
  | sizeMalformed s =>
    some ("invalid literal for int() with base 10: " ++ String.ofList (s.toList.take 200))
  | sizeTooLong n =>
    some ("Exceeds the limit (4300 digits) for integer string conversion: value has " ++
      toString n ++ " digits; use sys.set_int_max_str_digits() to increase the limit")
  | sizeNotANumber => some "cannot convert float NaN to integer"
  | arrayMismatch k =>
    some ("array_type must be set iff kind is ARRAY (kind=" ++ k.name ++ ")")
  | dictionaryMismatch k =>
    some ("dictionary_type must be set iff kind is DICTIONARY (kind=" ++ k.name ++ ")")

end DataError

namespace Json

/-- Whether a value counts as true. -/
def isTrue (v : Json) : Bool := (Datum.ofJson v).isTrue

/-- A member of an object that must have it. -/
def required (v : Json) (name : String) : Except DataError Json :=
  match v with
  | object ms =>
    match ms.lookup name with
    | some w => .ok w
    | none => .error (.missingMember name)
  | _ => .error .notIndexable

/-- A member that is there and counts as true. -/
def part? (ms : List (String × Json)) (name : String) : Option Json :=
  (ms.lookup name).filter isTrue

/-- A member is smaller than its object. -/
theorem sizeOf_lookup_lt {ms : List (String × Json)} {name : String} {v : Json}
    (h : ms.lookup name = some v) : sizeOf v < sizeOf (object ms) := by
  induction ms with
  | nil => simp at h
  | cons m ms ih =>
    obtain ⟨n, w⟩ := m
    rw [List.lookup_cons] at h
    split at h
    · cases h
      simp
      omega
    · have := ih h
      simp at this ⊢
      omega

/-- A part that is there is smaller than the object it is a part of. -/
theorem sizeOf_part?_lt {ms : List (String × Json)} {name : String} {v : Json}
    (h : part? ms name = some v) : sizeOf v < sizeOf (object ms) :=
  sizeOf_lookup_lt (Option.filter_eq_some_iff.1 h).1

/-- A required member is smaller than its object. -/
theorem sizeOf_required_lt {v w : Json} {name : String} (h : v.required name = .ok w) :
    sizeOf w < sizeOf v := by
  cases v with
  | object ms =>
    rw [required] at h
    split at h
    · next hw =>
      cases h
      exact sizeOf_lookup_lt hw
    · cases h
  | _ => cases h

/-- The integer that a size is given as. A fraction is cut off. -/
def size : Json → Except DataError Int
  | bool b => .ok (if b then 1 else 0)
  | int n => .ok n
  | float .nan => .error .sizeNotANumber
  | float x =>
    match x.truncate? with
    | some n => .ok n
    | none => .error .sizeInfinite
  | string s =>
    match Number.ofDecimal s.toList with
    | .ok n => .ok n
    | .error .malformed => .error (.sizeMalformed (Text.quoted s))
    | .error (.tooLong n) => .error (.sizeTooLong n)
  | null | array _ | object _ => .error .sizeNotNumber

/-- The kind that a value gives; none given is the unknown one. -/
def typeKind : Option Json → Except DataError TypeKind
  | none => .ok .unknown
  | some v =>
    match (Datum.ofJson v).toInt?.bind TypeKind.ofCode? with
    | some k => .ok k
    | none => .error (.notTypeKind (Datum.ofJson v).shown)

end Json

namespace Descriptor

open Json

/-- A descriptor as an object. -/
def toJson (d : Descriptor Json) : Json :=
  let parts (array dictionary : Json) : Json :=
    object
      [("Kind", nat d.kind.code), ("RawType", d.raw), ("Optional", bool d.isOptional),
        ("ArrayType", array), ("DictionaryType", dictionary)]
  match d with
  | .named .. => parts null null
  | .array _ _ e n => parts (object [("Element", e.toJson), ("Size", int n)]) null
  | .dictionary _ _ k v => parts null (object [("Key", k.toJson), ("Value", v.toJson)])

/-- The descriptor of a kind with the parts that are there, if they fit. -/
def assemble (kind : TypeKind) (raw : Json) (isOptional : Bool)
    (array? : Option (Descriptor Json × Int))
    (dictionary? : Option (Descriptor Json × Descriptor Json)) :
    Except DataError (Descriptor Json) :=
  if array?.isSome != (kind == .array) then .error (.arrayMismatch kind)
  else if dictionary?.isSome != (kind == .dictionary) then .error (.dictionaryMismatch kind)
  else
    match kind, array?, dictionary? with
    | .array, some (e, n), _ => .ok (array raw isOptional e n)
    | .dictionary, _, some (k, v) => .ok (dictionary raw isOptional k v)
    | .scalar k, _, _ => .ok (named (some k) raw isOptional)
    | _, _, _ => .ok (named none raw isOptional)

/-- The descriptor that an object describes. -/
def ofJson : Json → Except DataError (Descriptor Json)
  | object ms => do
    let kind ← typeKind (ms.lookup "Kind")
    let array? ← match _ : part? ms "ArrayType" with
      | none => pure none
      | some v =>
        let element ← match _ : v.required "Element" with
          | .error e => .error e
          | .ok w => ofJson w
        let n ← (v.required "Size").bind Json.size
        pure (some (element, n))
    let dictionary? ← match _ : part? ms "DictionaryType" with
      | none => pure none
      | some v =>
        let key ← match _ : v.required "Key" with
          | .error e => .error e
          | .ok w => ofJson w
        let value ← match _ : v.required "Value" with
          | .error e => .error e
          | .ok w => ofJson w
        pure (some (key, value))
    assemble kind ((ms.lookup "RawType").getD (string ""))
      (((ms.lookup "Optional").map isTrue).getD false) array? dictionary?
  | _ => .error .notObject
termination_by v => sizeOf v
decreasing_by
  all_goals
    have := sizeOf_part?_lt ‹_›
    have := sizeOf_required_lt ‹_›
    omega

end Descriptor

end CadenceEntry
