import CadenceEntry.Number.Binary64

/-!
# JSON documents

A document is a tree of objects and arrays. The members of an object keep their order. Integers are
of any size and differ from floating-point numbers, as they do for the programs that exchange these
documents.
-/

set_option autoImplicit false

namespace CadenceEntry

/-- A JSON document. -/
inductive Json where
  | null
  | bool (b : Bool)
  | int (n : Int)
  | float (x : Number.Binary64)
  | string (s : String)
  | array (items : List Json)
  | object (members : List (String × Json))

namespace Json

/-- The member of an object with a name. -/
def member? : Json → String → Option Json
  | object members, name => members.lookup name
  | _, _ => none

/-- The members of an object after `name` is given the value `v`: in its old place if it has one, at
the end if not. -/
def putMember (members : List (String × Json)) (name : String) (v : Json) :
    List (String × Json) :=
  match members with
  | [] => [(name, v)]
  | (n, w) :: rest => if n = name then (n, v) :: rest else (n, w) :: putMember rest name v

/-- A natural number. -/
def nat (n : Nat) : Json := int n

/-- A document that may be missing. -/
def ofOption {α : Type} (f : α → Json) : Option α → Json
  | none => null
  | some a => f a

/-- An array of documents. -/
def arrayOf {α : Type} (f : α → Json) (as : List α) : Json := array (as.map f)

end Json

end CadenceEntry
