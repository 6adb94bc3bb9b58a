import CadenceEntry.Grammar.Symbol
import CadenceEntry.Text.Blank

/-!
# Classes of words

A class of words is recognised at the beginning of a text: `WordClass.length? c cs` is the length of
the word of class `c` that `cs` begins with, always the longest one that the class's rule takes.
Words of the classes without a terminal (white space and comments) separate other words and mean
nothing. No class takes an empty word.
-/

set_option autoImplicit false

namespace CadenceEntry

open Grammar (Terminal)

/-- A class of words that is given by a rule instead of a spelling. The order of the constructors is
the order in which the classes are tried. -/
inductive WordClass where
  | integer | statement | name | blockComment | string | address | blanks | lineComment
  deriving DecidableEq, Repr

namespace WordClass

/-- All classes in the order in which they are tried. -/
def all : List WordClass :=
  [integer, statement, name, blockComment, string, address, blanks, lineComment]

/-- The terminal that a word of the class is; white space and comments are none. -/
def terminal? : WordClass → Option Terminal
  | integer => some .integer
  | statement => some .statement
  | name => some .name
  | string => some .string
  | address => some .address
  | blockComment | blanks | lineComment => none

/-- The number of characters at the beginning of `cs` that satisfy `p`. -/
def run (p : Char → Bool) (cs : List Char) : Nat := (cs.takeWhile p).length

/-- As `run`, but at least one character. -/
def run? (p : Char → Bool) (cs : List Char) : Option Nat :=
  match run p cs with
  | 0 => none
  | n + 1 => some (n + 1)

/-- Letters and the underscore begin a name. -/
def beginsName (c : Char) : Bool := c.isAlpha || c == '_'

/-- Letters, digits and the underscore continue a name. -/
def continuesName (c : Char) : Bool := c.isAlphanum || c == '_'

/-- A hexadecimal digit of either case. -/
def isHexDigit (c : Char) : Bool :=
  c.isDigit || ('a' ≤ c && c ≤ 'f') || ('A' ≤ c && c ≤ 'F')

/-- White space between words. -/
def separates (c : Char) : Bool :=
  c == ' ' || c == '\t' || c == '\x0c' || c == '\r' || c == '\n'

/-- A character that stands for itself in a body. -/
def isOrdinary (c : Char) : Bool :=
  !(c == '\x7b' || c == '\x7d' || c == '"' || c == '/' || Text.isBlank c)

/-- The digits, with underscores, that the letter after a leading zero asks for. -/
def radixDigit? : Char → Option (Char → Bool)
  | 'x' | 'X' => some fun c => isHexDigit c || c == '_'
  | 'b' | 'B' => some fun c => c == '0' || c == '1' || c == '_'
  | 'o' | 'O' => some fun c => ('0' ≤ c && c ≤ '7') || c == '_'
  | _ => none

/-- A decimal literal: a digit, then digits and underscores. -/
def decimalLength? : List Char → Option Nat
  | c :: cs => if c.isDigit then some (run (fun c => c.isDigit || c == '_') cs + 1) else none
  | [] => none

/-- An integer literal: a zero, a radix letter and digits of that radix, or a decimal literal. -/
def integerLength? : List Char → Option Nat
  | '0' :: m :: cs =>
    match (radixDigit? m).bind (run? · cs) with
    | some n => some (n + 2)
    | none => decimalLength? ('0' :: m :: cs)
  | cs => decimalLength? cs

/-- A name. -/
def nameLength? : List Char → Option Nat
  | c :: cs => if beginsName c then some (run continuesName cs + 1) else none
  | [] => none

/-- An account address: `0x` and hexadecimal digits. -/
def addressLength? : List Char → Option Nat
  | '0' :: 'x' :: cs => (run? isHexDigit cs).map (· + 2)
  | _ => none

/-- The rest of a string literal, through the closing quote. A backslash takes the next character
with it; a line feed ends the attempt. -/
def stringTail? : List Char → Option Nat
  | [] => none
  | '"' :: _ => some 1
  | '\n' :: _ => none
  | '\\' :: cs =>
    match cs with
    | [] => none
    | c :: cs => if c = '\n' then none else (stringTail? cs).map (· + 2)
  | _ :: cs => (stringTail? cs).map (· + 1)

/-- A string literal. -/
def stringLength? : List Char → Option Nat
  | '"' :: cs => (stringTail? cs).map (· + 1)
  | _ => none

/-- The rest of a block comment, through the first closing mark. -/
def blockCommentTail? : List Char → Option Nat
  | [] => none
  | c :: cs =>
    if c = '*' ∧ cs.head? = some '/' then some 2 else (blockCommentTail? cs).map (· + 1)

/-- A block comment. -/
def blockCommentLength? : List Char → Option Nat
  | '/' :: '*' :: cs => (blockCommentTail? cs).map (· + 2)
  | _ => none

/-- A line comment, without the line feed that ends it. -/
def lineCommentLength? : List Char → Option Nat
  | '/' :: '/' :: cs => some (run (· != '\n') cs + 2)
  | _ => none

/-- Opaque text of a body: ordinary characters, or one slash that opens no comment. -/
def statementLength? : List Char → Option Nat
  | '/' :: cs => if cs.head? = some '/' ∨ cs.head? = some '*' then none else some 1
  | cs => run? isOrdinary cs

/-- The length of the word of a class that a text begins with. -/
def length? : WordClass → List Char → Option Nat
  | integer => integerLength?
  | statement => statementLength?
  | name => nameLength?
  | blockComment => blockCommentLength?
  | string => stringLength?
  | address => addressLength?
  | blanks => run? separates
  | lineComment => lineCommentLength?

/-- Whether a word of the class can be spelled like the terminal `t`. -/
def covers (c : WordClass) (t : Terminal) : Bool :=
  match t.spelling? with
  | some s => c.length? s.toList == some s.length
  | none => false

/-- A run has a character. -/
theorem run?_pos {p : Char → Bool} {cs : List Char} {n : Nat} (h : run? p cs = some n) :
    0 < n := by
  unfold run? at h
  split at h
  · exact absurd h (by simp)
  · obtain rfl := Option.some.inj h; omega

/-- A decimal literal has a digit. -/
theorem decimalLength?_pos {cs : List Char} {n : Nat} (h : decimalLength? cs = some n) :
    0 < n := by
  unfold decimalLength? at h
  split at h
  · split at h
    · obtain rfl := Option.some.inj h; omega
    · exact absurd h (by simp)
  · exact absurd h (by simp)

/-- No class takes an empty word. -/
theorem length?_pos {c : WordClass} {cs : List Char} {n : Nat} (h : c.length? cs = some n) :
    0 < n := by
  cases c <;> simp only [length?] at h
  case integer =>
    unfold integerLength? at h
    split at h
    · split at h
      · obtain rfl := Option.some.inj h; omega
      · exact decimalLength?_pos h
    · exact decimalLength?_pos h
  case statement =>
    unfold statementLength? at h
    split at h
    · split at h
      · exact absurd h (by simp)
      · obtain rfl := Option.some.inj h; omega
    · exact run?_pos h
  case name =>
    unfold nameLength? at h
    split at h
    · split at h
      · obtain rfl := Option.some.inj h; omega
      · exact absurd h (by simp)
    · exact absurd h (by simp)
  case blockComment =>
    unfold blockCommentLength? at h
    split at h
    · obtain ⟨m, -, rfl⟩ := Option.map_eq_some_iff.1 h; omega
    · exact absurd h (by simp)
  case string =>
    unfold stringLength? at h
    split at h
    · obtain ⟨m, -, rfl⟩ := Option.map_eq_some_iff.1 h; omega
    · exact absurd h (by simp)
  case address =>
    unfold addressLength? at h
    split at h
    · obtain ⟨m, -, rfl⟩ := Option.map_eq_some_iff.1 h; omega
    · exact absurd h (by simp)
  case blanks => exact run?_pos h
  case lineComment =>
    unfold lineCommentLength? at h
    split at h
    · obtain rfl := Option.some.inj h; omega
    · exact absurd h (by simp)

end WordClass

end CadenceEntry
