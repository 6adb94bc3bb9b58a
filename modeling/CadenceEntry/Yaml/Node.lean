import CadenceEntry.Yaml.Schema
import CadenceEntry.Yaml.Token

/-!
# Nodes

A YAML document is a tree of scalars, sequences and mappings, each with its tag. A node can have an
anchor, by which an alias further on, also inside of the node itself, stands for it.
-/

set_option autoImplicit false

namespace CadenceEntry.Yaml

/-- A node of a document. -/
inductive Node where
  | scalar (anchor : Option String) (tag : Tag) (text : String)
  | sequence (anchor : Option String) (tag : Tag) (items : List Node)
  | mapping (anchor : Option String) (tag : Tag) (entries : List (Node × Node))
  | reference (name : String)

namespace Node

/-- The scalar that stands where nothing is written. -/
def empty : Node := scalar none .null ""

/-- The anchor of a node. -/
def anchor? : Node → Option String
  | scalar a _ _ | sequence a _ _ | mapping a _ _ => a
  | reference _ => none

/-- The tag of a node. -/
def tag : Node → Tag
  | scalar _ t _ | sequence _ t _ | mapping _ t _ => t
  | reference _ => .other

mutual

/-- The node inside of a node that has an anchor with a name. -/
def find? (name : String) : Node → Option Node
  | scalar a t s => if a = some name then some (scalar a t s) else none
  | sequence a t items =>
    if a = some name then some (sequence a t items) else findInItems? name items
  | mapping a t entries =>
    if a = some name then some (mapping a t entries) else findInEntries? name entries
  | reference _ => none

/-- The node inside of some nodes that has an anchor with a name. -/
def findInItems? (name : String) : List Node → Option Node
  | [] => none
  | n :: ns => (n.find? name).or (findInItems? name ns)

/-- The node inside of some entries that has an anchor with a name. -/
def findInEntries? (name : String) : List (Node × Node) → Option Node
  | [] => none
  | (k, v) :: es => ((k.find? name).or (v.find? name)).or (findInEntries? name es)

end

mutual

/-- The number of nodes in a node. -/
def count : Node → Nat
  | scalar _ _ _ | reference _ => 1
  | sequence _ _ items => countItems items + 1
  | mapping _ _ entries => countEntries entries + 1

/-- The number of nodes in some nodes. -/
def countItems : List Node → Nat
  | [] => 0
  | n :: ns => n.count + countItems ns

/-- The number of nodes in some entries. -/
def countEntries : List (Node × Node) → Nat
  | [] => 0
  | (k, v) :: es => k.count + v.count + countEntries es

end

end Node

end CadenceEntry.Yaml
