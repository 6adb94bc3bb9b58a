/-!
# Kinds

A type is of one of seven kinds and a program of one of three. Both have a code number, by which
data documents name them, and a name, by which messages do.
-/

set_option autoImplicit false

namespace CadenceEntry

/-- The kind of a type that is known by its name. -/
inductive ScalarKind where
  | numeric
  | textual
  | boolean
  | address
  deriving DecidableEq, Repr

/-- The kind of a type. -/
inductive TypeKind where
  | unknown
  | scalar (k : ScalarKind)
  | array
  | dictionary
  deriving DecidableEq, Repr

namespace TypeKind

/-- All kinds in the order of their codes. -/
def all : List TypeKind :=
  [unknown, scalar .numeric, scalar .textual, scalar .boolean, scalar .address, array, dictionary]

/-- The code number of a kind. -/
def code : TypeKind → Nat
  | unknown => 0
  | scalar .numeric => 1
  | scalar .textual => 2
  | scalar .boolean => 3
  | scalar .address => 4
  | array => 5
  | dictionary => 6

/-- The kind with a code number. -/
def ofCode? (n : Int) : Option TypeKind := all.find? fun k => (k.code : Int) == n

/-- The name of a kind in messages. -/
def name : TypeKind → String
  | unknown => "UNKNOWN"
  | scalar .numeric => "NUMERIC"
  | scalar .textual => "TEXTUAL"
  | scalar .boolean => "BOOLEAN"
  | scalar .address => "ADDRESS"
  | array => "ARRAY"
  | dictionary => "DICTIONARY"

/-- The word for a kind in running text. -/
def word : TypeKind → String
  | unknown => "unknown"
  | scalar .numeric => "numeric"
  | scalar .textual => "textual"
  | scalar .boolean => "boolean"
  | scalar .address => "address"
  | array => "array"
  | dictionary => "dictionary"

/-- The kind with a name. -/
def ofName? (s : String) : Option TypeKind := all.find? fun k => k.name == s

/-- A code number belongs to one kind only. -/
theorem ofCode?_code (k : TypeKind) : ofCode? k.code = some k := by
  rcases k with _ | k | _ | _ <;> try rfl
  cases k <;> rfl

end TypeKind

/-- The kind of a program by its entry point. -/
inductive InteractionKind where
  | unknown
  | script
  | transaction
  deriving DecidableEq, Repr

namespace InteractionKind

/-- All kinds in the order of their codes. -/
def all : List InteractionKind := [unknown, script, transaction]

/-- The code number of a kind. -/
def code : InteractionKind → Nat
  | unknown => 0
  | script => 1
  | transaction => 2

/-- The kind with a code number. -/
def ofCode? (n : Int) : Option InteractionKind := all.find? fun k => (k.code : Int) == n

/-- The name of a kind in messages. -/
def name : InteractionKind → String
  | unknown => "UNKNOWN"
  | script => "SCRIPT"
  | transaction => "TRANSACTION"

/-- The word for a kind at the beginning of a text. -/
def word : InteractionKind → String
  | unknown => "Unknown"
  | script => "Script"
  | transaction => "Transaction"

/-- A code number belongs to one kind only. -/
theorem ofCode?_code (k : InteractionKind) : ofCode? k.code = some k := by cases k <;> rfl

end InteractionKind

end CadenceEntry
