import CadenceEntry.Yaml.Fault
import CadenceEntry.Yaml.Node
import CadenceEntry.Yaml.Scanner

/-!
# From tokens to nodes

A text holds one document or none. Nodes are read from the tokens by recursive descent. An alias
must come after the anchor that it names, and a name can be given to one node only.
-/

set_option autoImplicit false

namespace CadenceEntry.Yaml

/-- The tokens that are still to be read, and the names of the anchors so far. -/
structure Remaining where
  tokens : List Token
  anchors : List String := []

/-- A way of reading something from tokens. -/
abbrev Reading (α : Type) := StateT Remaining (Except Fault) α

namespace Reading

/-- The next token, which is left in its place. -/
def next? : Reading (Option Token) := do return (← get).tokens.head?

/-- Passes over the next token. -/
def skip : Reading Unit := modify fun r => { r with tokens := r.tokens.drop 1 }

/-- Whether the next token is one of some. -/
def nextIs (ts : List Token) : Reading Bool := do return (← next?).any ts.contains

/-- Passes over a token that must come next. -/
def expect (t : Token) : Reading Unit := do
  if ← nextIs [t] then skip else throw .malformed

/-- Passes over a token if it comes next, and says whether it did. -/
def accept (t : Token) : Reading Bool := do
  if ← nextIs [t] then
    skip
    return true
  else return false

/-- The anchor that comes next, if there is one. Its name must be new. -/
def anchor? : Reading (Option String) := do
  match ← next? with
  | some (.anchor name) =>
    skip
    if (← get).anchors.contains name then throw .malformed
    modify fun r => { r with anchors := name :: r.anchors }
    return some name
  | _ => return none

/-- The URI of the tag that comes next, if there is one. Its handle must be known. -/
def tag? (handles : List (String × String)) : Reading (Option String) := do
  match ← next? with
  | some (.tag none suffix) =>
    skip
    return some suffix
  | some (.tag (some handle) suffix) =>
    skip
    match handles.lookup handle with
    | some uri => return some (uri ++ suffix)
    | none => throw .malformed
  | _ => return none

/-- The tag of a node with a URI or none. A single exclamation mark is none. -/
def tagOr (default : Tag) : Option String → Tag
  | none | some "!" => default
  | some uri => .ofUri uri

/-- The tag of a scalar. The form of a text counts if it is plain, or marked by a single exclamation
mark. -/
def scalarTag (uri? : Option String) (text : String) (isPlain : Bool) : Tag :=
  match uri? with
  | none => if isPlain then .ofForm text else .str
  | some "!" => .ofForm text
  | some uri => .ofUri uri

mutual

/-- A node. Block collections can only stand in blocks, and block sequences without indentation only
in block mappings. -/
def node (handles : List (String × String)) (inBlock unindented : Bool) :
    (fuel : Nat) → Reading Node
  | 0 => throw .malformed
  | fuel + 1 => do
    if let some (.reference name) ← next? then
      skip
      if (← get).anchors.contains name then return .reference name else throw .malformed
    let a? ← anchor?
    let uri? ← tag? handles
    let a? ← if a?.isSome then pure a? else anchor?
    match ← next? with
    | some (.scalar text isPlain) =>
      skip
      return .scalar a? (scalarTag uri? text isPlain) text
    | some .flowSequenceStart =>
      skip
      return .sequence a? (tagOr .seq uri?) (← flowSequence handles true fuel)
    | some .flowMappingStart =>
      skip
      return .mapping a? (tagOr .map uri?) (← flowMapping handles true fuel)
    | t =>
      if unindented && t == some .blockEntry then
        return .sequence a? (tagOr .seq uri?) (← unindentedSequence handles fuel)
      else if inBlock && t == some .blockSequenceStart then
        skip
        return .sequence a? (tagOr .seq uri?) (← blockSequence handles fuel)
      else if inBlock && t == some .blockMappingStart then
        skip
        return .mapping a? (tagOr .map uri?) (← blockMapping handles fuel)
      else if a?.isSome || uri?.isSome then return .scalar a? (tagOr .null uri?) ""
      else throw .malformed

/-- A node in front of one of some tokens, or the empty scalar if nothing stands there. -/
def nodeBefore (handles : List (String × String)) (inBlock unindented : Bool) (ts : List Token) :
    (fuel : Nat) → Reading Node
  | 0 => throw .malformed
  | fuel + 1 => do
    if ← nextIs ts then return .empty else node handles inBlock unindented fuel

/-- The items of a block sequence. -/
def blockSequence (handles : List (String × String)) : (fuel : Nat) → Reading (List Node)
  | 0 => throw .malformed
  | fuel + 1 => do
    if ← accept .blockEnd then return []
    expect .blockEntry
    let n ← nodeBefore handles true false [.blockEntry, .blockEnd] fuel
    return n :: (← blockSequence handles fuel)

/-- The items of a block sequence without indentation. -/
def unindentedSequence (handles : List (String × String)) : (fuel : Nat) → Reading (List Node)
  | 0 => throw .malformed
  | fuel + 1 => do
    if ← accept .blockEntry then
      let n ← nodeBefore handles true false [.blockEntry, .key, .value, .blockEnd] fuel
      return n :: (← unindentedSequence handles fuel)
    else return []

/-- The entries of a block mapping. -/
def blockMapping (handles : List (String × String)) : (fuel : Nat) → Reading (List (Node × Node))
  | 0 => throw .malformed
  | fuel + 1 => do
    if ← accept .blockEnd then return []
    expect .key
    let k ← nodeBefore handles true true [.key, .value, .blockEnd] fuel
    let v ←
      if ← accept .value then nodeBefore handles true true [.key, .value, .blockEnd] fuel
      else pure .empty
    return (k, v) :: (← blockMapping handles fuel)

/-- The items of a flow sequence. A pair of a key and a value is a mapping with one entry. -/
def flowSequence (handles : List (String × String)) (isFirst : Bool) :
    (fuel : Nat) → Reading (List Node)
  | 0 => throw .malformed
  | fuel + 1 => do
    if ← accept .flowSequenceEnd then return []
    unless isFirst do expect .flowEntry
    if ← accept .flowSequenceEnd then return []
    let n ←
      if ← accept .key then do
        let k ← nodeBefore handles false false [.value, .flowEntry, .flowSequenceEnd] fuel
        let v ←
          if ← accept .value then
            nodeBefore handles false false [.flowEntry, .flowSequenceEnd] fuel
          else pure .empty
        pure (.mapping none .map [(k, v)])
      else node handles false false fuel
    return n :: (← flowSequence handles false fuel)

/-- The entries of a flow mapping. A node alone is a key. -/
def flowMapping (handles : List (String × String)) (isFirst : Bool) :
    (fuel : Nat) → Reading (List (Node × Node))
  | 0 => throw .malformed
  | fuel + 1 => do
    if ← accept .flowMappingEnd then return []
    unless isFirst do expect .flowEntry
    if ← accept .flowMappingEnd then return []
    let e ←
      if ← accept .key then do
        let k ← nodeBefore handles false false [.value, .flowEntry, .flowMappingEnd] fuel
        let v ←
          if ← accept .value then
            nodeBefore handles false false [.flowEntry, .flowMappingEnd] fuel
          else pure .empty
        pure (k, v)
      else do
        let k ← node handles false false fuel
        pure (k, .empty)
    return e :: (← flowMapping handles false fuel)

end

/-- The handles that are known without a directive. -/
def knownHandles : List (String × String) := [("!", "!"), ("!!", Tag.uriStart)]

/-- The handles that directives define, each once, in front of the known ones. The version must be
stated once at most, and be a first one. -/
def directives (hasVersion : Bool) (handles : List (String × String)) :
    List Token → Except Fault (List (String × String) × List Token)
  | .directive (.version major _) :: ts =>
    if hasVersion || major != 1 then .error .malformed else directives true handles ts
  | .directive (.tagHandle handle uri) :: ts =>
    if (handles.lookup handle).isSome then .error .malformed
    else directives hasVersion ((handle, uri) :: handles) ts
  | .directive .reserved :: ts => directives hasVersion handles ts
  | ts => .ok (handles ++ knownHandles, ts)

/-- The root of a document that begins after a marker, if it has one. -/
def explicitRoot (handles : List (String × String)) (fuel : Nat) : Reading Node := do
  match ← next? with
  | none | some (.directive _) | some .documentStart | some .documentEnd => return .empty
  | _ => node handles true false fuel

/-- Ends a document, after which there is no other. -/
def finish : Reading Unit := do
  unless (← get).tokens.all (· == .documentEnd) do throw .malformed

/-- The root of the document that some tokens are, if they are one. -/
def document (ts : List Token) : Except Fault (Option Node) := do
  let fuel := 3 * ts.length + 3
  let whole (root : Reading Node) (ts : List Token) : Except Fault (Option Node) :=
    (do let n ← root; finish; return some n : Reading (Option Node)).run' { tokens := ts }
  match ts with
  | [] => return none
  | .directive _ :: _ | .documentStart :: _ =>
    let (handles, rest) ← directives false [] ts
    match rest with
    | .documentStart :: rest => whole (explicitRoot handles fuel) rest
    | _ => throw .malformed
  | ts => whole (node knownHandles true false fuel) ts

end Reading

/-- Whether a character can be part of a text. -/
def isAllowed (c : Char) : Bool :=
  let n := c.toNat
  n == 9 || n == 10 || n == 13 || (0x20 ≤ n && n ≤ 0x7e) || n == 0x85 ||
    (0xa0 ≤ n && n ≤ 0xfffd) || 0x10000 ≤ n

/-- The root of the document in a text, if there is a document. -/
def document? (cs : List Char) : Except Fault (Option Node) := do
  if cs.all isAllowed then Reading.document (← tokens cs) else .error .malformed

end CadenceEntry.Yaml
