import CadenceEntry.Kind.Basic
import CadenceEntry.Text.Quoted

/-!
# Kind tables

A kind table tells the kind of a type by its name. It is built from groups, a kind and the names of
that kind, and no name may be listed twice. The table of the current type names and the table of the
legacy names are built from the same groups.
-/

set_option autoImplicit false

namespace CadenceEntry

/-- Names with their kinds, in the order in which they were listed. -/
structure KindTable (κ : Type) where
  entries : List (String × κ)

/-- Why a kind table cannot be built. -/
inductive KindTableError (κ : Type) where
  | repeated (name : String) (first again : κ)
  | missing (names : List String)

/-- The message of an error, given the names of the kinds. -/
def KindTableError.message {κ : Type} (nameOf : κ → String) : KindTableError κ → String
  | repeated name first again =>
    "type name " ++ Text.quoted name ++ " listed under both " ++ nameOf first ++ " and " ++
      nameOf again
  | missing names => "type table is missing " ++ ", ".intercalate names

namespace KindTable

variable {κ : Type}

/-- The kind of a name. -/
def kind? (t : KindTable κ) (name : String) : Option κ := t.entries.lookup name

/-- The kind of a name in a table of type kinds: unknown, if the table does not list it. -/
def kind (t : KindTable TypeKind) (name : String) : TypeKind := (t.kind? name).getD .unknown

/-- The names of some groups with their kinds, in order. -/
def listed (groups : List (κ × List String)) : List (String × κ) :=
  groups.flatMap fun g => g.2.map (·, g.1)

/-- Adds entries one after the other; a name that is there already is an error. -/
def addAll (t : KindTable κ) : List (String × κ) → Except (KindTableError κ) (KindTable κ)
  | [] => .ok t
  | (name, k) :: rest =>
    match t.kind? name with
    | some first => .error (.repeated name first k)
    | none => addAll ⟨t.entries ++ [(name, k)]⟩ rest

/-- The table of some groups, in which every required name is listed. -/
def build (groups : List (κ × List String)) (required : List String) :
    Except (KindTableError κ) (KindTable κ) :=
  match addAll ⟨[]⟩ (listed groups) with
  | .error e => .error e
  | .ok t =>
    match required.filter fun name => (t.kind? name).isNone with
    | [] => .ok t
    | names => .error (.missing names)

/-- The names that every table must list. -/
def requiredNames : List String := ["Address", "Bool", "String", "Int"]

/-- The sizes of the integer types. -/
def integerSizes : List String := ["8", "16", "32", "64", "128", "256"]

/-- The names of the numeric types. -/
def numericNames : List String :=
  ["Number", "SignedNumber", "Integer", "SignedInteger", "FixedPoint", "SignedFixedPoint"] ++
    "Int" :: integerSizes.map ("Int" ++ ·) ++ "UInt" :: integerSizes.map ("UInt" ++ ·) ++
    integerSizes.map ("Word" ++ ·) ++ ["Fix64", "UFix64"]

/-- The groups whose numeric names are `names`. -/
def groupsWith (names : List String) : List (ScalarKind × List String) :=
  [(.address, ["Address"]), (.boolean, ["Bool"]),
    (.textual,
      ["String", "Character", "Bytes", "Path", "CapabilityPath", "StoragePath", "PublicPath",
        "PrivatePath"]),
    (.numeric, names)]

/-- The groups of the current names. -/
def currentGroups : List (ScalarKind × List String) := groupsWith numericNames

/-- The numeric names of old: no `Word` types, and another spelling of `UFix64`. -/
def legacyNumericNames : List String :=
  (numericNames.filter fun n => !"Word".toList.isPrefixOf n.toList).map fun n =>
    if n = "UFix64" then "UFIx64" else n

/-- The groups of the names of old. -/
def legacyGroups : List (ScalarKind × List String) := groupsWith legacyNumericNames

/-- The table of the current names. -/
def current : KindTable ScalarKind := ⟨listed currentGroups⟩

/-- The table of the names of old. -/
def legacy : KindTable ScalarKind := ⟨listed legacyGroups⟩

/-- The current groups list no name twice and all that are required, `UFix64` among them. -/
theorem build_currentGroups :
    build currentGroups (requiredNames ++ ["UFix64"]) = .ok current := by rfl

/-- The groups of old list no name twice and all that are required. -/
theorem build_legacyGroups : build legacyGroups requiredNames = .ok legacy := by rfl

end KindTable

end CadenceEntry
