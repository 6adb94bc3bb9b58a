import CadenceEntry.Number.FloatText
import CadenceEntry.Text.Base64
import CadenceEntry.Yaml.Document

/-!
# The data in a document

A node stands for a datum of the kind that its tag says. Merge keys are replaced by the entries of
the mappings that they name, in front of the other entries; of equal keys the last one counts. A
document may be followed into the nodes that its aliases stand for, or checked without following
them.
-/

set_option autoImplicit false

namespace CadenceEntry.Yaml

open Number (Binary64)

/-! ### Scalars -/

/-- A text without the underscores that separate its digits. -/
def withoutUnderscores (text : String) : List Char := text.toList.filter (· != '_')

/-- The truth value that a word names. -/
def boolOfText (text : String) : Except Fault Datum :=
  match Tag.truthWords.lookup text.toLower with
  | some b => .ok (.bool b)
  | none => .error .noTruthValue

/-- The digits after the letter by which a number of a radix may begin. -/
def withoutRadixMark (radix : Nat) : List Char → List Char
  | '0' :: m :: ds =>
    let mark := if radix = 2 then 'b' else if radix = 8 then 'o' else 'x'
    if m.toLower = mark then ds else '0' :: m :: ds
  | cs => cs

/-- The integer that a text of a radix other than ten is. -/
def integerOfRadix (radix : Nat) (cs : List Char) : Except Fault Int :=
  let (negative, body) := Number.sign (Number.trim cs)
  match Number.ofDigits? radix (withoutRadixMark radix body) with
  | some n => .ok (if negative then -n else n)
  | none => .error (.noInteger radix cs)

/-- The integer that a decimal text is. -/
def decimalInteger (cs : List Char) : Except Fault Int :=
  match Number.ofDecimal cs with
  | .ok n => .ok n
  | .error .malformed => .error (.noInteger 10 cs)
  | .error (.tooLong n) => .error (.integerTooLong n)

/-- Whether a number has a minus sign, and the text after its sign. -/
def signOf (cs : List Char) : Except Fault (Bool × List Char) :=
  if cs.isEmpty then .error .emptyNumber else .ok (Number.sign cs)

/-- The integer that a text is: binary, hexadecimal, octal, of base sixty, or decimal. -/
def integerOfText (text : String) : Except Fault Int := do
  let (negative, cs) ← signOf (withoutUnderscores text)
  let n ←
    match cs with
    | ['0'] => pure 0
    | '0' :: 'b' :: ds => integerOfRadix 2 ds
    | '0' :: 'x' :: ds => integerOfRadix 16 ds
    | '0' :: ds => integerOfRadix 8 ('0' :: ds)
    | [] => .error .emptyNumber
    | cs =>
      if cs.contains ':' then
        return (← (cs.splitOn ':').mapM decimalInteger).foldl (fun n d => n * 60 + d) 0 *
          (if negative then -1 else 1)
      else decimalInteger cs
  return if negative then -n else n

/-- The floating-point number that a text is. -/
def floatOfPart (cs : List Char) : Except Fault Binary64 :=
  match Binary64.ofText? cs with
  | some x => .ok x
  | none => .error (.noFloat cs)

/-- The sum of the parts of a number of base sixty, the last part first, where `unit` is what the
first of them counts. -/
def sumOfParts (unit : Nat) (sum : Binary64) : List Binary64 → Binary64
  | [] => sum
  | x :: xs => sumOfParts (unit * 60) (sum.add (x.scale unit)) xs

/-- The floating-point number that a text is: a word, of base sixty, or decimal. -/
def floatOfText (text : String) : Except Fault Binary64 := do
  let (negative, cs) ← signOf (String.ofList (withoutUnderscores text)).toLower.toList
  let x ←
    if cs == ['.', 'i', 'n', 'f'] then pure (.infinite false)
    else if cs == ['.', 'n', 'a', 'n'] then pure .nan
    else if cs.contains ':' then do
      let parts ← (cs.splitOn ':').mapM floatOfPart
      pure (sumOfParts 1 (.finite false 0 Binary64.minExponent) parts.reverse)
    else floatOfPart cs
  return if negative then x.negate else x

/-- The datum that a text with a tag stands for. -/
def datumOfText (tag : Tag) (text : String) : Except Fault Datum :=
  match tag with
  | .null => .ok .null
  | .bool => boolOfText text
  | .int => (integerOfText text).map .int
  | .float => (floatOfText text).map .float
  | .str => .ok (.text text)
  | .binary =>
    if text.toList.all fun c => c.toNat < 128 then
      match Text.Base64.decode? text.toList with
      | some bytes => .ok (.bytes bytes)
      | none => .error .malformed
    else .error .malformed
  | .timestamp =>
    match Timestamp.ofText? (Tag.withoutLineEnd text.toList) with
    | some t => t.datum
    | none => .error .noTimestamp
  | _ => .error .malformed

/-! ### Collections -/

/-- What the nodes of a document are read with: its root, and whether aliases are followed. -/
structure Surroundings where
  root : Node
  follows : Bool

namespace Surroundings

/-- The node that a node stands for. -/
def target (s : Surroundings) : Node → Node
  | .reference name => (s.root.find? name).getD .empty
  | n => n

/-- The entries of a mapping with the entries that its merge keys stand for, which are not looked
for inside of `passed` anchors again. Every key is the node that it stands for. -/
def mergedEntries (s : Surroundings) :
    (fuel : Nat) → (passed : List String) → List (Node × Node) → Except Fault (List (Node × Node))
  | 0, _, _ => .ok []
  | fuel + 1, passed, entries => do
    let entries := entries.map fun e => (s.target e.1, e.2)
    let entriesOf (n : Node) : Except Fault (List (Node × Node)) :=
      match s.target n with
      | .mapping a? _ es =>
        if a?.any passed.contains then .ok []
        else s.mergedEntries fuel (a?.toList ++ passed) es
      | _ => .error .malformed
    let merged ← (entries.filter fun e => e.1.tag == .merge).mapM fun e =>
      match s.target e.2 with
      | .sequence _ _ items => do
        let parts ← items.mapM entriesOf
        pure parts.reverse.flatten
      | _ => entriesOf e.2
    return merged.flatten ++ entries.filter fun e => e.1.tag != .merge

/-- The text of a node that stands for a scalar: a mapping does by the value of the key for that. -/
def scalarText (s : Surroundings) : (fuel : Nat) → Node → Except Fault String
  | fuel + 1, n =>
    match s.target n with
    | .scalar _ _ text => .ok text
    | .mapping _ _ entries =>
      match entries.find? fun e => (s.target e.1).tag == .value with
      | some e => s.scalarText fuel e.2
      | none => .error .malformed
    | _ => .error .malformed
  | 0, _ => .error .malformed

/-- The datum that a node stands for. `passed` are the anchors of the nodes around it. -/
def datum (s : Surroundings) : (fuel : Nat) → (passed : List String) → Node → Except Fault Datum
  | 0, _, _ => .error .malformed
  | fuel + 1, passed, n => do
    let passed := n.anchor?.toList ++ passed
    let pairs (entries : List (Node × Node)) : Except Fault (List (Datum × Datum)) :=
      entries.mapM fun e => do
        let k ← s.datum fuel passed e.1
        let v ← s.datum fuel passed e.2
        pure (k, v)
    let map (entries : List (Node × Node)) : Except Fault (List (Datum × Datum)) := do
      let entries ← s.mergedEntries fuel (n.anchor?.toList) entries
      entries.foldlM (fun es e => do
        let k ←
          match e.1 with
          | .scalar _ .value text => pure (.text text)
          | k => s.datum fuel passed k
        if k.isKey then
          let v ← s.datum fuel passed e.2
          pure (Datum.putEntry es k v)
        else .error .malformed) []
    let tuple (n : Node) : Except Fault Datum :=
      match s.target n with
      | .mapping _ _ [e] => do
        let ps ← pairs [e]
        pure (.tuple (ps.flatMap fun p => [p.1, p.2]))
      | _ => .error .malformed
    match n with
    | .reference name =>
      if passed.contains name then
        return .enclosing (s.target n matches .mapping ..)
      else if s.follows then s.datum fuel passed (s.target n)
      else return .null
    | .sequence _ .seq items => return .list (← items.mapM (s.datum fuel passed))
    | .sequence _ .omap items | .sequence _ .pairs items => return .list (← items.mapM tuple)
    | .mapping _ .map entries => return .map (← map entries)
    | .mapping _ .set entries => return .set ((← map entries).map Prod.fst)
    | n => datumOfText n.tag (← s.scalarText fuel n)

end Surroundings

namespace Node

/-- More steps than any way through a document has that passes no anchor twice. -/
def depthBound (root : Node) : Nat := (root.count + 2) * (root.count + 2)

/-- The datum of a document whose aliases are not followed, which tells of what kind the document is
and whether every node in it stands for a datum. -/
def outerDatum (root : Node) : Except Fault Datum :=
  Surroundings.datum ⟨root, false⟩ root.depthBound [] root

/-- Whether a node stands for a text. -/
def isText (s : Surroundings) (key : String) (n : Node) : Bool :=
  match s.datum s.root.depthBound [] n with
  | .ok (.text t) => t == key
  | _ => false

/-- The value of a text key of a document that is a mapping, with its aliases followed. -/
def valueOf? (root : Node) (key : String) : Option Datum :=
  let s : Surroundings := ⟨root, true⟩
  match root with
  | .mapping _ _ entries =>
    match s.mergedEntries root.depthBound root.anchor?.toList entries with
    | .ok es =>
      (es.findRev? fun e => isText s key e.1).bind fun e =>
        (s.datum root.depthBound [] e.2).toOption
    | .error _ => none
  | _ => none

end Node

end CadenceEntry.Yaml
