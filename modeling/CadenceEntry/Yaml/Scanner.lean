import CadenceEntry.Yaml.Property

/-!
# From text to tokens

A text is taken apart token by token. Blocks begin and end where the indentation of their first
token says. What turns out to be a key, because a colon follows on the same line, gets its token
afterwards, so places where a key may have begun are remembered: one for each flow collection that
is open, and one outside of them.
-/

set_option autoImplicit false

namespace CadenceEntry.Yaml

/-- A place where a key may have begun: the number of tokens before it, its cursor, and whether a
key must begin there because nothing else can. -/
structure PossibleKey where
  position : Nat
  isRequired : Bool
  index : Nat
  line : Nat
  column : Nat

/-- What has been read of a text: the tokens, the indentations of the blocks that are open, whether
a key may begin here, and the places where keys may have begun, the innermost collection first. -/
structure Scanner where
  cursor : Cursor
  tokens : Array Token := #[]
  indent : Int := -1
  outerIndents : List Int := []
  allowsKey : Bool := true
  key? : Option PossibleKey := none
  outerKeys : List (Option PossibleKey) := []

namespace Scanner

/-- Whether the scanner is inside of a flow collection. -/
def inFlow (s : Scanner) : Bool := !s.outerKeys.isEmpty

/-- Adds a token and goes on to a text. -/
def emit (s : Scanner) (t : Token) (rest : List Char) : Scanner :=
  { s with tokens := s.tokens.push t, cursor := s.cursor.advanceTo rest }

/-- Puts a token before the tokens from a position on. -/
def insert (s : Scanner) (position : Nat) (t : Token) : Scanner :=
  let before := s.tokens.extract 0 position
  { s with tokens := before ++ #[t] ++ s.tokens.extract position s.tokens.size }

/-- The length of the spaces, comments and line ends at the beginning of a text, and whether there
are line ends among them. -/
def gap (inComment : Bool) : List Char → Nat × Bool
  | [] => (0, false)
  | c :: cs =>
    if isBreak c then ((gap false cs).1 + 1, true)
    else if inComment || c == ' ' then
      let (n, broken) := gap inComment cs
      (n + 1, broken)
    else if c == '#' then
      let (n, broken) := gap true cs
      (n + 1, broken)
    else (0, false)

/-- Goes on to the next token. At the beginning of a line outside of flow collections a key may
begin. -/
def skipGap (s : Scanner) : Scanner :=
  let (n, broken) := gap false s.cursor.rest
  { s with cursor := s.cursor.advance n, allowsKey := s.allowsKey || (broken && !s.inFlow) }

/-- The greatest number of characters in a key. -/
def maxKeyLength : Nat := 1024

/-- What becomes of the place of a possible key: a key ends on its line. -/
def checkKey (c : Cursor) : Option PossibleKey → Except Fault (Option PossibleKey)
  | none => .ok none
  | some k =>
    if k.line = c.line ∧ c.index - k.index ≤ maxKeyLength then .ok (some k)
    else if k.isRequired then .error .malformed
    else .ok none

/-- Forgets the places of keys that are too far away. -/
def checkKeys (s : Scanner) : Except Fault Scanner := do
  let key? ← checkKey s.cursor s.key?
  let outerKeys ← s.outerKeys.mapM (checkKey s.cursor)
  pure { s with key?, outerKeys }

/-- Forgets the place of the innermost possible key. -/
def dropKey (s : Scanner) : Except Fault Scanner :=
  if s.key?.any PossibleKey.isRequired then .error .malformed else .ok { s with key? := none }

/-- Remembers that a key may begin here, if one may. -/
def saveKey (s : Scanner) : Except Fault Scanner :=
  if s.allowsKey then do
    let s ← s.dropKey
    let c := s.cursor
    let isRequired := !s.inFlow && decide (s.indent = c.column)
    pure { s with key? := some ⟨s.tokens.size, isRequired, c.index, c.line, c.column⟩ }
  else .ok s

/-- Ends the blocks that are indented by more than `column` columns, `indents` being the
indentations of the outer blocks. -/
def closeBlocks (s : Scanner) (column : Int) : (indents : List Int) → Scanner
  | [] => { s with outerIndents := [] }
  | i :: is =>
    if column < s.indent then
      closeBlocks { s with indent := i, tokens := s.tokens.push .blockEnd } column is
    else { s with outerIndents := i :: is }

/-- Ends the blocks that a token at a column is not part of. Flow collections ignore columns. -/
def unwind (s : Scanner) (column : Int) : Scanner :=
  if s.inFlow then s else s.closeBlocks column s.outerIndents

/-- Begins a block at a column, if it is indented by more than the block around it; its first token
goes to `position`. -/
def openBlock (s : Scanner) (column position : Nat) (t : Token) : Scanner :=
  if s.indent < column then
    { s.insert position t with indent := column, outerIndents := s.indent :: s.outerIndents }
  else s

/-- A document marker or a directive ends all blocks. -/
def endBlocks (s : Scanner) : Except Fault Scanner := do
  let s ← (s.unwind (-1)).dropKey
  pure { s with allowsKey := false }

/-- Begins a flow collection. -/
def openFlow (s : Scanner) (t : Token) : Except Fault Scanner := do
  let s ← s.saveKey
  let s := { s with key? := none, outerKeys := s.key? :: s.outerKeys, allowsKey := true }
  pure (s.emit t (s.cursor.rest.drop 1))

/-- Ends a flow collection. -/
def closeFlow (s : Scanner) (t : Token) : Except Fault Scanner := do
  let s ← s.dropKey
  match s.outerKeys with
  | [] => .error .malformed
  | k :: ks =>
    let s := { s with key? := k, outerKeys := ks, allowsKey := false }
    pure (s.emit t (s.cursor.rest.drop 1))

/-- The comma between the entries of a flow collection. -/
def flowEntry (s : Scanner) : Except Fault Scanner := do
  let s ← s.dropKey
  pure ({ s with allowsKey := true }.emit .flowEntry (s.cursor.rest.drop 1))

/-- The dash before an entry of a block sequence. -/
def blockEntry (s : Scanner) : Except Fault Scanner := do
  let s ←
    if s.inFlow then pure s
    else if s.allowsKey then
      pure (s.openBlock s.cursor.column s.tokens.size .blockSequenceStart)
    else .error .malformed
  let s ← s.dropKey
  pure ({ s with allowsKey := true }.emit .blockEntry (s.cursor.rest.drop 1))

/-- The question mark before a key. -/
def explicitKey (s : Scanner) : Except Fault Scanner := do
  let s ←
    if s.inFlow then pure s
    else if s.allowsKey then pure (s.openBlock s.cursor.column s.tokens.size .blockMappingStart)
    else .error .malformed
  let s ← s.dropKey
  pure ({ s with allowsKey := !s.inFlow }.emit .key (s.cursor.rest.drop 1))

/-- The colon before a value. What came before it may now turn out to be a key. -/
def value (s : Scanner) : Except Fault Scanner := do
  let s ←
    match s.key? with
    | some k =>
      let s := { s.insert k.position .key with key? := none, allowsKey := false }
      pure (if s.inFlow then s else s.openBlock k.column k.position .blockMappingStart)
    | none =>
      if s.inFlow then pure { s with allowsKey := false }
      else if s.allowsKey then pure (s.openBlock s.cursor.column s.tokens.size .blockMappingStart)
      else .error .malformed
  pure (s.emit .value (s.cursor.rest.drop 1))

/-- A token that can be a key or begin one. -/
def keyToken (s : Scanner) (read : List Char → Except Fault (Token × List Char)) :
    Except Fault Scanner := do
  let s ← s.saveKey
  let (t, rest) ← read (s.cursor.rest.drop 1)
  pure ({ s with allowsKey := false }.emit t rest)

/-- A quoted scalar. -/
def quotedToken (s : Scanner)
    (read : Nat → List Char → Except Fault (List Char × List Char)) : Except Fault Scanner :=
  s.keyToken fun cs => do
    let (text, rest) ← read cs.length cs
    pure (.scalar (String.ofList text) false, rest)

/-- A block scalar. -/
def blockToken (s : Scanner) (isFolded : Bool) : Except Fault Scanner := do
  let s ← s.dropKey
  let (text, rest) ← block isFolded s.indent (s.cursor.rest.drop 1)
  pure ({ s with allowsKey := true }.emit (.scalar (String.ofList text) false) rest)

/-- A plain scalar. After a line end another key may begin. -/
def plainToken (s : Scanner) : Except Fault Scanner := do
  let s ← s.saveKey
  let (text, broken, c) := plain s.inFlow (s.indent + 1) s.cursor
  pure ({ s with allowsKey := broken }.emit (.scalar (String.ofList text) true) c.rest)

/-- Whether a plain scalar begins with a character in front of a text. -/
def beginsPlain (inFlow : Bool) (c : Char) (cs : List Char) : Bool :=
  if (c == '-' || (!inFlow && (c == '?' || c == ':'))) && !atBlank cs then true
  else
    !(isSpaceOrTab c || isBreak c ||
      ['-', '?', ':', ',', '[', ']', '\x7b', '\x7d', '#', '&', '*', '!', '|', '>', '\'', '"', '%',
        '@', '\x60'].contains c)

/-- Reads the token that begins with a character in front of a text. -/
def token (s : Scanner) (c : Char) (cs : List Char) : Except Fault Scanner := do
  let atLineStart := s.cursor.column == 0
  if atLineStart && c == '%' then
    let s ← s.endBlocks
    let (d, rest) ← directive cs
    pure (s.emit (.directive d) rest)
  else if atLineStart && atDocumentStart (c :: cs) then
    pure ((← s.endBlocks).emit .documentStart (cs.drop 2))
  else if atLineStart && atDocumentEnd (c :: cs) then
    pure ((← s.endBlocks).emit .documentEnd (cs.drop 2))
  else if c = '[' then s.openFlow .flowSequenceStart
  else if c = '\x7b' then s.openFlow .flowMappingStart
  else if c = ']' then s.closeFlow .flowSequenceEnd
  else if c = '\x7d' then s.closeFlow .flowMappingEnd
  else if c = ',' then s.flowEntry
  else if c = '-' && atBlank cs then s.blockEntry
  else if c = '?' && (s.inFlow || atBlank cs) then s.explicitKey
  else if c = ':' && (s.inFlow || atBlank cs) then s.value
  else if c = '*' then
    s.keyToken fun cs => (anchorName cs).map fun r => (.reference r.1, r.2)
  else if c = '&' then
    s.keyToken fun cs => (anchorName cs).map fun r => (.anchor r.1, r.2)
  else if c = '!' then s.keyToken tag
  else if c = '|' && !s.inFlow then s.blockToken false
  else if c = '>' && !s.inFlow then s.blockToken true
  else if c = '\'' then s.quotedToken singleQuoted
  else if c = '"' then s.quotedToken doubleQuoted
  else if beginsPlain s.inFlow c cs then s.plainToken
  else .error .malformed

/-- Reads all tokens. Each takes a character at least, so as much fuel as there are characters is
enough. -/
def run : (fuel : Nat) → Scanner → Except Fault (Array Token)
  | 0, _ => .error .malformed
  | fuel + 1, s => do
    let s ← s.skipGap.checkKeys
    let s := s.unwind s.cursor.column
    match s.cursor.rest with
    | [] => pure (← (s.unwind (-1)).dropKey).tokens
    | c :: cs => run fuel (← s.token c cs)

end Scanner

/-- The tokens of a text. A byte order mark may stand in front of it. -/
def tokens (cs : List Char) : Except Fault (List Token) :=
  let cursor : Cursor := ⟨cs, 0, 0, 0⟩
  let cursor := if cs.head? == some '\ufeff' then cursor.advance 1 else cursor
  (Scanner.run (cs.length + 1) { cursor }).map Array.toList

end CadenceEntry.Yaml
