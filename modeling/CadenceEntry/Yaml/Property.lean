import CadenceEntry.Text.Utf8
import CadenceEntry.Yaml.Scalar
import CadenceEntry.Yaml.Token

/-!
# Anchors, tags and directives

The tokens that name things. Each function reads one at the beginning of a text and returns it with
the text after it, which must be a place where another token can begin.
-/

set_option autoImplicit false

namespace CadenceEntry.Yaml

/-- Whether a character can be part of the name of an anchor, a handle or a directive. -/
def isNameChar (c : Char) : Bool := c.isAlphanum || c == '-' || c == '_'

/-- Whether a character can be part of the URI of a tag; a percent sign begins an escape. -/
def isUriChar (c : Char) : Bool :=
  c.isAlphanum ||
    ['-', ';', '/', '?', ':', '@', '&', '=', '+', '$', ',', '_', '.', '!', '~', '*', '\'', '(', ')',
      '[', ']'].contains c

/-- The name of an anchor after its indicator, and the text after it. -/
def anchorName (cs : List Char) : Except Fault (String × List Char) :=
  let name := cs.takeWhile isNameChar
  let rest := cs.dropWhile isNameChar
  let ends := rest.head?.any fun c => ['?', ':', ',', ']', '\x7d', '%', '@', '\x60'].contains c
  if !name.isEmpty && (atBlank rest || ends) then .ok (String.ofList name, rest)
  else .error .malformed

/-- The bytes that are escaped by percent signs at the beginning of a text, and the text after
them. -/
def uriEscapes : List Char → Except Fault (List UInt8 × List Char)
  | '%' :: a :: b :: cs => do
    match hexValue? a, hexValue? b with
    | some m, some n =>
      let (bytes, rest) ← uriEscapes cs
      pure (UInt8.ofNat (m * 16 + n) :: bytes, rest)
    | _, _ => .error .malformed
  | '%' :: _ => .error .malformed
  | cs => .ok ([], cs)

/-- A URI with its escapes, which may be empty, and the text after it. -/
def uriFrom : (fuel : Nat) → List Char → Except Fault (List Char × List Char)
  | fuel + 1, c :: cs =>
    if c = '%' then do
      let (bytes, rest) ← uriEscapes (c :: cs)
      match Text.Utf8.decode bytes with
      | .error _ => .error .malformed
      | .ok new =>
        let (more, rest) ← uriFrom fuel rest
        pure (new ++ more, rest)
    else if isUriChar c then (uriFrom fuel cs).map fun r => (c :: r.1, r.2)
    else .ok ([], c :: cs)
  | _, cs => .ok ([], cs)

/-- The URI at the beginning of a text, and the text after it. -/
def uri (cs : List Char) : Except Fault (String × List Char) :=
  if cs.head?.any fun c => c == '%' || isUriChar c then
    (uriFrom cs.length cs).map fun r => (String.ofList r.1, r.2)
  else .error .malformed

/-- The handle at the beginning of a text, between exclamation marks or a single one, and the text
after it. -/
def handle : List Char → Except Fault (String × List Char)
  | '!' :: cs =>
    if cs.head? == some ' ' then .ok ("!", cs)
    else
      match cs.dropWhile isNameChar with
      | '!' :: rest => .ok (String.ofList ('!' :: cs.takeWhile isNameChar ++ ['!']), rest)
      | _ => .error .malformed
  | _ => .error .malformed

/-- The tag after its indicator, and the text after it. -/
def tag (cs : List Char) : Except Fault (Token × List Char) := do
  let (t, rest) ←
    if cs.head? == some '<' then
      let (suffix, rest) ← uri (cs.drop 1)
      if rest.head? == some '>' then pure (Token.tag none suffix, rest.drop 1)
      else .error .malformed
    else if atBlank cs then pure (Token.tag none "!", cs)
    else
      let hasHandle := (cs.takeWhile fun c => !(c == ' ' || isBreak c)).contains '!'
      let (h, rest) ← if hasHandle then handle ('!' :: cs) else pure ("!", cs)
      let (suffix, rest) ← uri rest
      pure (Token.tag (some h) suffix, rest)
  if atSpace rest then pure (t, rest) else .error .malformed

/-- The number at the beginning of a text, and the text after it. -/
def number (cs : List Char) : Except Fault (Nat × List Char) :=
  match cs.takeWhile Char.isDigit with
  | [] => .error .malformed
  | ds => .ok (ds.foldl (fun n d => n * 10 + (d.toNat - '0'.toNat)) 0, cs.drop ds.length)

/-- The text without the spaces at its beginning. -/
def skipSpaces (cs : List Char) : List Char := cs.dropWhile (· == ' ')

/-- The version that a directive states, and the text after it. -/
def versionDirective (cs : List Char) : Except Fault (Directive × List Char) := do
  match ← number (skipSpaces cs) with
  | (major, '.' :: rest) =>
    let (minor, rest) ← number rest
    if atSpace rest then pure (.version major minor, rest) else .error .malformed
  | _ => .error .malformed

/-- The handle that a directive defines, and the text after the definition. -/
def tagDirective (cs : List Char) : Except Fault (Directive × List Char) := do
  let (h, rest) ← handle (skipSpaces cs)
  if rest.head? ≠ some ' ' then .error .malformed
  else
    let (u, rest) ← uri (skipSpaces rest)
    if atSpace rest then pure (.tagHandle h u, rest) else .error .malformed

/-- The directive after its indicator, and the text from the next line on. -/
def directive (cs : List Char) : Except Fault (Directive × List Char) := do
  let name := cs.takeWhile isNameChar
  let rest := cs.dropWhile isNameChar
  if name.isEmpty || !atSpace rest then .error .malformed
  else
    let (d, rest) ←
      match String.ofList name with
      | "YAML" => versionDirective rest
      | "TAG" => tagDirective rest
      | _ => pure (Directive.reserved, rest.dropWhile fun c => !isBreak c)
    pure (d, ← restOfLine rest)

end CadenceEntry.Yaml
