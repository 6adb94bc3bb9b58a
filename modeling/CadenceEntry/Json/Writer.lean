import CadenceEntry.Json.Basic
import CadenceEntry.Number.IntegerText
import CadenceEntry.Text.Quoted

/-!
# Writing JSON

A document is written in ASCII: a character outside the printable ASCII characters is escaped by the
code units of UTF-16. Without an indent everything is on one line, with a space after commas and
colons. With an indent every item is on a line of its own, so many spaces deeper than what it is in;
an indent below one gives lines without spaces. Empty arrays and objects are always closed at once.
Nothing is written if the indent is no number of the machine, or if an integer is longer than a
decimal text may be.
-/

set_option autoImplicit false

namespace CadenceEntry

/-- Why an answer cannot be written. -/
inductive WritingFault where
  /-- The spaces of a level are more or fewer than the machine can count. -/
  | indentOutOfRange
  /-- An integer has more digits than a decimal text may have. -/
  | integerTooLong
  deriving DecidableEq, Repr

namespace Json

/-- The escape of a UTF-16 code unit. -/
def unitEscape (n : Nat) : List Char := '\\' :: 'u' :: Text.hexDigits 4 n

/-- A character inside a string. -/
def writtenChar (c : Char) : List Char :=
  if c = '"' then ['\\', '"']
  else if c = '\\' then ['\\', '\\']
  else if c = '\n' then ['\\', 'n']
  else if c = '\r' then ['\\', 'r']
  else if c = '\t' then ['\\', 't']
  else if c = '\x0c' then ['\\', 'f']
  else if c = '\x08' then ['\\', 'b']
  else if 0x20 ≤ c.toNat ∧ c.toNat ≤ 0x7e then [c]
  else if c.toNat < 0x10000 then unitEscape c.toNat
  else
    unitEscape (0xd800 + (c.toNat - 0x10000) / 0x400) ++
      unitEscape (0xdc00 + (c.toNat - 0x10000) % 0x400)

/-- A string in quotes. -/
def writtenString (s : String) : List Char := '"' :: s.toList.flatMap writtenChar ++ ['"']

/-- A floating-point number. The infinities and what is no number have names. -/
def writtenFloat : Number.Binary64 → List Char
  | .nan => "NaN".toList
  | .infinite negative => (if negative then "-Infinity" else "Infinity").toList
  | x => x.text.toList

/-- What comes before an item at a depth: nothing, or a new line and its spaces. -/
def lineStart (indent : Option Int) (depth : Nat) : List Char :=
  match indent with
  | none => []
  | some n => '\n' :: List.replicate (n.toNat * depth) ' '

/-- What comes between two items at a depth. -/
def separator (indent : Option Int) (depth : Nat) : List Char :=
  match indent with
  | none => [',', ' ']
  | some _ => ',' :: lineStart indent depth

mutual

/-- A document at a depth. -/
def written (indent : Option Int) (depth : Nat) : Json → List Char
  | null => "null".toList
  | bool true => "true".toList
  | bool false => "false".toList
  | int n => (toString n).toList
  | float x => writtenFloat x
  | string s => writtenString s
  | array [] => ['[', ']']
  | array (v :: vs) =>
    '[' :: lineStart indent (depth + 1) ++ written indent (depth + 1) v ++
      writtenItems indent (depth + 1) vs ++ lineStart indent depth ++ [']']
  | object [] => ['\x7b', '\x7d']
  | object ((n, v) :: ms) =>
    '\x7b' :: lineStart indent (depth + 1) ++ writtenString n ++ [':', ' '] ++
      written indent (depth + 1) v ++ writtenMembers indent (depth + 1) ms ++
      lineStart indent depth ++ ['\x7d']

/-- The items of an array after the first. -/
def writtenItems (indent : Option Int) (depth : Nat) : List Json → List Char
  | [] => []
  | v :: vs => separator indent depth ++ written indent depth v ++ writtenItems indent depth vs

/-- The members of an object after the first. -/
def writtenMembers (indent : Option Int) (depth : Nat) : List (String × Json) → List Char
  | [] => []
  | (n, v) :: ms =>
    separator indent depth ++ writtenString n ++ [':', ' '] ++ written indent depth v ++
      writtenMembers indent depth ms

end

mutual

/-- The integers in a document, from left to right. -/
def integers : Json → List Int
  | int n => [n]
  | array vs => integersOfItems vs
  | object ms => integersOfMembers ms
  | _ => []

/-- The integers in the items of an array. -/
def integersOfItems : List Json → List Int
  | [] => []
  | v :: vs => v.integers ++ integersOfItems vs

/-- The integers in the members of an object. -/
def integersOfMembers : List (String × Json) → List Int
  | [] => []
  | (_, v) :: ms => v.integers ++ integersOfMembers ms

end

/-- Whether the spaces of a level can be counted by a number of the machine. -/
def isIndent (n : Int) : Bool := -0x8000000000000000 ≤ n && n < 0x8000000000000000

/-- The text of a document, unless it cannot be written. The indent is looked at first, but for a
document that is a mere string. -/
def write (indent : Option Int) : Json → Except WritingFault String
  | string s => .ok (String.ofList (writtenString s))
  | v =>
    if indent.all isIndent then
      if v.integers.all Number.hasDecimal then .ok (String.ofList (written indent 0 v))
      else .error .integerTooLong
    else .error .indentOutOfRange

end Json

end CadenceEntry
