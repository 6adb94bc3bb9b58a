import CadenceEntry.Yaml.Cursor
import CadenceEntry.Yaml.Fault

/-!
# Scalars

A scalar is plain, quoted, or a block of lines. In plain and quoted scalars a line end becomes a
space, unless empty lines follow, which are kept. Each function reads a scalar at the beginning of a
text and returns its value with the text after it.
-/

set_option autoImplicit false

namespace CadenceEntry.Yaml

/-- What a line end followed by the line ends of empty lines becomes. -/
def folded (c : Char) (breaks : List Char) : List Char :=
  (if breakChar c ≠ '\n' then [breakChar c] else if breaks.isEmpty then [' '] else []) ++ breaks

/-! ### Plain scalars -/

/-- The characters of a plain scalar up to a blank or to an indicator. -/
def plainRun (inFlow : Bool) : List Char → List Char
  | [] => []
  | c :: cs =>
    if isSpaceOrTab c || isBreak c then []
    else if c == ':' &&
        (atBlank cs || (inFlow && cs.head?.any fun d => [',', '[', ']', '\x7b', '\x7d'].contains d))
    then []
    else if inFlow && [',', '?', '[', ']', '\x7b', '\x7d'].contains c then []
    else c :: plainRun inFlow cs

/-- The line ends of the empty lines at the beginning of a text, and the text after them and the
spaces that follow, unless a document marker comes. -/
def plainBreaks : List Char → Option (List Char) × List Char
  | [] => (some [], [])
  | c :: cs =>
    if c == ' ' then plainBreaks cs
    else if isBreak c then
      if atMarker cs then (none, cs)
      else
        let (breaks?, rest) := plainBreaks cs
        (breaks?.map (breakChar c :: ·), rest)
    else (some [], c :: cs)

/-- What stands between two runs of a plain scalar: what it becomes, if the scalar can go on,
whether it holds a line end, and the text after it. -/
def plainGap (cs : List Char) : Option (List Char) × Bool × List Char :=
  let spaces := cs.takeWhile (· == ' ')
  match cs.dropWhile (· == ' ') with
  | [] => (some spaces, false, [])
  | c :: rest =>
    if isBreak c then
      if atMarker rest then (none, true, rest)
      else
        let (breaks?, rest) := plainBreaks rest
        (breaks?.map (folded c), true, rest)
    else (some spaces, false, c :: rest)

/-- The value of a plain scalar, whether a line end follows it, and the text after it. The scalar
goes on as long as its lines are indented by `indent` columns, where `c` is the cursor of its first
line; `before` is what the last gap became. -/
def plainFrom (inFlow : Bool) (indent : Int) (before : List Char) (brokenBefore : Bool) :
    (fuel : Nat) → Cursor → List Char × Bool × Cursor
  | 0, c => ([], brokenBefore, c)
  | fuel + 1, c =>
    let run := if c.rest.head? == some '#' then [] else plainRun inFlow c.rest
    if run.isEmpty then ([], brokenBefore, c)
    else
      let c := c.advance run.length
      let (gap?, broken, rest) := plainGap c.rest
      let c := c.advanceTo rest
      let gap := gap?.getD []
      if gap.isEmpty || rest.head? == some '#' || (!inFlow && decide ((c.column : Int) < indent))
      then (before ++ run, broken, c)
      else
        let (more, broken, c) := plainFrom inFlow indent gap broken fuel c
        (before ++ run ++ more, broken, c)

/-- The plain scalar at a cursor. -/
def plain (inFlow : Bool) (indent : Int) (c : Cursor) : List Char × Bool × Cursor :=
  plainFrom inFlow indent [] false c.rest.length c

/-! ### Quoted scalars -/

/-- The line ends of the empty lines at the beginning of a text, and the text after them and the
blanks that follow. A document marker cannot stand there. -/
def quotedBreaks (atStart : Bool) : List Char → Except Fault (List Char × List Char)
  | [] => .ok ([], [])
  | c :: cs =>
    if atStart && atMarker (c :: cs) then .error .malformed
    else if isSpaceOrTab c then quotedBreaks false cs
    else if isBreak c then (quotedBreaks true cs).map fun r => (breakChar c :: r.1, r.2)
    else .ok ([], c :: cs)

/-- What stands between two runs of a quoted scalar: what it becomes, and the text after it. -/
def quotedGap (cs : List Char) : Except Fault (List Char × List Char) :=
  match cs.dropWhile isSpaceOrTab with
  | [] => .error .malformed
  | c :: rest =>
    if isBreak c then (quotedBreaks true rest).map fun r => (folded c r.1, r.2)
    else .ok (cs.takeWhile isSpaceOrTab, c :: rest)

/-- The characters that are escaped by one other character. -/
def escapes : List (Char × Char) :=
  [('0', '\x00'), ('a', '\x07'), ('b', '\x08'), ('t', '\t'), ('\t', '\t'), ('n', '\n'),
    ('v', '\x0b'), ('f', '\x0c'), ('r', '\r'), ('e', '\x1b'), (' ', ' '), ('"', '"'), ('\\', '\\'),
    ('/', '/'), ('N', '\x85'), ('_', '\xa0'), ('L', '\u2028'), ('P', '\u2029')]

/-- The number of digits by which a letter lets a character be escaped. -/
def escapeWidth? : Char → Option Nat
  | 'x' => some 2
  | 'u' => some 4
  | 'U' => some 8
  | _ => none

/-- The value of a hexadecimal digit. -/
def hexValue? (c : Char) : Option Nat :=
  if '0' ≤ c && c ≤ '9' then some (c.toNat - '0'.toNat)
  else if 'a' ≤ c && c ≤ 'f' then some (c.toNat - 'a'.toNat + 10)
  else if 'A' ≤ c && c ≤ 'F' then some (c.toNat - 'A'.toNat + 10)
  else none

/-- The value of so many hexadecimal digits at the beginning of a text. -/
def hexNumber? (width : Nat) (cs : List Char) : Option Nat :=
  if width ≤ cs.length then
    (cs.take width).foldlM (fun n c => (hexValue? c).map (n * 16 + ·)) 0
  else none

/-- The character with a code point. Half of a surrogate pair is none and is replaced. -/
def charOfCode (n : Nat) : Char := if 0xd800 ≤ n ∧ n < 0xe000 then '\ufffd' else Char.ofNat n

/-- What an escape stands for, given the text after the backslash, and the text after the escape. A
line end that is escaped stands for nothing. -/
def escaped : List Char → Except Fault (List Char × List Char)
  | [] => .error .malformed
  | c :: cs =>
    match escapes.lookup c, escapeWidth? c with
    | some e, _ => .ok ([e], cs)
    | none, some width =>
      match hexNumber? width cs with
      | none => .error .malformed
      | some n =>
        if n < 0x110000 then .ok ([charOfCode n], cs.drop width) else .error (.noCharacter n)
    | none, none => if isBreak c then quotedBreaks true cs else .error .malformed

/-- The rest of a scalar in double quotes, and the text after it. -/
def doubleQuoted : (fuel : Nat) → List Char → Except Fault (List Char × List Char)
  | fuel + 1, c :: cs => do
    if c = '"' then pure ([], cs)
    else
      let (new, rest) ←
        if isSpaceOrTab c || isBreak c then quotedGap (c :: cs)
        else if c = '\\' then escaped cs
        else pure ([c], cs)
      let (more, rest) ← doubleQuoted fuel rest
      pure (new ++ more, rest)
  | _, _ => .error .malformed

/-- The rest of a scalar in single quotes, and the text after it. A quote is written twice. -/
def singleQuoted : (fuel : Nat) → List Char → Except Fault (List Char × List Char)
  | fuel + 1, c :: cs => do
    if c = '\'' ∧ cs.head? ≠ some '\'' then pure ([], cs)
    else
      let (new, rest) ←
        if isSpaceOrTab c || isBreak c then quotedGap (c :: cs)
        else if c = '\'' then pure (['\''], cs.drop 1)
        else pure ([c], cs)
      let (more, rest) ← singleQuoted fuel rest
      pure (new ++ more, rest)
  | _, _ => .error .malformed

/-! ### Block scalars -/

/-- What becomes of the line ends at the end of a block. -/
inductive Chomping where
  /-- None is kept. -/
  | strip
  /-- The last line keeps its own. -/
  | clip
  /-- All are kept. -/
  | keep
  deriving DecidableEq, Repr

/-- The way of chomping that a sign asks for. -/
def chomping? : Char → Option Chomping
  | '-' => some .strip
  | '+' => some .keep
  | _ => none

/-- The value of a digit other than zero. -/
def indentDigit? (c : Char) : Option Nat :=
  if '1' ≤ c && c ≤ '9' then some (c.toNat - '0'.toNat) else none

/-- The indicators of a block, in either order, and the text after them. -/
def blockHeader (cs : List Char) : Chomping × Option Nat × List Char :=
  match cs.head?.bind chomping?, cs.head?.bind indentDigit? with
  | some ch, _ =>
    match (cs.drop 1).head?.bind indentDigit? with
    | some n => (ch, some n, cs.drop 2)
    | none => (ch, none, cs.drop 1)
  | none, some n =>
    match (cs.drop 1).head?.bind chomping? with
    | some ch => (ch, some n, cs.drop 2)
    | none => (.clip, some n, cs.drop 1)
  | none, none => (.clip, none, cs)

/-- The text after the rest of a line, which holds nothing but maybe a comment. -/
def restOfLine (cs : List Char) : Except Fault (List Char) :=
  let cs := cs.dropWhile (· == ' ')
  let cs := if cs.head? == some '#' then cs.dropWhile fun c => !isBreak c else cs
  if atLineEnd cs then .ok (cs.drop 1) else .error .malformed

/-- The line ends of the empty lines at the beginning of a text, the column of the first character
after them and after the indentation, and the text from there on. -/
def blockBreaks (indent column : Nat) : List Char → List Char × Nat × List Char
  | [] => ([], column, [])
  | c :: cs =>
    if c == ' ' && decide (column < indent) then blockBreaks indent (column + 1) cs
    else if isBreak c then
      let (breaks, k, rest) := blockBreaks indent 0 cs
      (breakChar c :: breaks, k, rest)
    else ([], column, c :: cs)

/-- The line ends of the empty lines at the beginning of a text, the greatest indentation among them
and the line after them, the column of the first character of that line, and the text from there
on. -/
def blockIndentation (greatest column : Nat) : List Char → List Char × Nat × Nat × List Char
  | [] => ([], greatest, column, [])
  | c :: cs =>
    if c == ' ' then blockIndentation (max greatest (column + 1)) (column + 1) cs
    else if isBreak c then
      let (breaks, g, k, rest) := blockIndentation greatest 0 cs
      (breakChar c :: breaks, g, k, rest)
    else ([], greatest, column, c :: cs)

/-- The lines of a block whose first character is at `column`, after the line ends `breaks`; the
last line end, the line ends of the empty lines after it, and the text after them. -/
def blockLines (isFolded : Bool) (indent column : Nat) (breaks : List Char) :
    (fuel : Nat) → List Char → List Char × List Char × List Char × List Char
  | fuel + 1, c :: cs =>
    if column = indent then
      let line := (c :: cs).takeWhile fun d => !isBreak d
      let rest := (c :: cs).dropWhile fun d => !isBreak d
      let lineEnd := rest.take 1 |>.map breakChar
      let (nextBreaks, nextColumn, rest) := blockBreaks indent 0 (rest.drop 1)
      if nextColumn = indent ∧ rest ≠ [] then
        let joint :=
          if isFolded && lineEnd == ['\n'] && !isSpaceOrTab c && !(rest.head?.any isSpaceOrTab)
          then if nextBreaks.isEmpty then [' '] else []
          else lineEnd
        let (more, last) := blockLines isFolded indent nextColumn nextBreaks fuel rest
        (breaks ++ line ++ joint ++ more, last)
      else (breaks ++ line, lineEnd, nextBreaks, rest)
    else ([], [], breaks, c :: cs)
  | _, cs => ([], [], breaks, cs)

/-- The block scalar at the beginning of a text, after its indicator, and the text after it. It is
part of something indented by `parent` columns. -/
def block (isFolded : Bool) (parent : Int) (cs : List Char) :
    Except Fault (List Char × List Char) :=
  let (chomping, increment?, cs) := blockHeader cs
  if !atSpace cs then .error .malformed
  else do
    let cs ← restOfLine cs
    let least := (max (parent + 1) 1).toNat
    let (indent, breaks, column, cs) :=
      match increment? with
      | some n =>
        let indent := least + n - 1
        let (breaks, column, cs) := blockBreaks indent 0 cs
        (indent, breaks, column, cs)
      | none =>
        let (breaks, greatest, column, cs) := blockIndentation 0 0 cs
        (max least greatest, breaks, column, cs)
    let (text, lineEnd, breaks, rest) := blockLines isFolded indent column breaks cs.length cs
    pure
      (text ++
        (match chomping with
          | .strip => []
          | .clip => lineEnd
          | .keep => lineEnd ++ breaks),
        rest)

end CadenceEntry.Yaml
