import CadenceEntry.Text.Blank
import CadenceEntry.Text.DecimalDigit

/-!
# Integers as text

An integer is written with an optional sign and digits, and white space around it. Digits of any
script count, and single underscores may stand between digits. A decimal text of more than 4300
digits is neither read nor written, because that takes time quadratic in its length; the digits of a
power of two radix are read however many there are.
-/

set_option autoImplicit false

namespace CadenceEntry.Number

/-- Why a text is not read as an integer. -/
inductive IntegerError where
  | malformed
  | tooLong (digits : Nat)
  deriving DecidableEq, Repr

/-- The most digits that a decimal text may have. -/
def maxDecimalDigits : Nat := 4300

/-- White space around a number. The information separators are not part of it. -/
def isMargin (c : Char) : Bool := Text.isBlank c && !(28 ≤ c.toNat && c.toNat ≤ 31)

/-- A text without the white space at its end. -/
def trimEnd (cs : List Char) : List Char := (cs.reverse.dropWhile isMargin).reverse

/-- A text without the white space around it. -/
def trim (cs : List Char) : List Char := trimEnd (cs.dropWhile isMargin)

/-- The value of a digit: a decimal digit of any script, or a letter from `a` on. -/
def digitValue? (c : Char) : Option Nat :=
  match Text.decimalDigit? c with
  | some d => some d
  | none =>
    if 'a' ≤ c && c ≤ 'z' then some (c.toNat - 'a'.toNat + 10)
    else if 'A' ≤ c && c ≤ 'Z' then some (c.toNat - 'A'.toNat + 10)
    else none

/-- The value of a digit of the radix `b`. -/
def digit? (b : Nat) (c : Char) : Option Nat := (digitValue? c).filter (· < b)

/-- The value of digits that are read from left to right, after digits of value `acc`. -/
def valueFrom (b acc : Nat) (ds : List Nat) : Nat := ds.foldl (fun n d => n * b + d) acc

/-- The digits of a text in which single underscores may stand between digits. -/
def digits? (b : Nat) : List Char → Option (List Nat)
  | [] => none
  | [c] => (digit? b c).map ([·])
  | c :: '_' :: cs => do
    let d ← digit? b c
    let ds ← digits? b cs
    return d :: ds
  | c :: cs => do
    let d ← digit? b c
    let ds ← digits? b cs
    return d :: ds

/-- The number of digits in the run of digits and underscores at the beginning of a text, if no two
underscores meet and the run begins and ends with a digit. -/
def leadingDigits? (b : Nat) (cs : List Char) : Option Nat :=
  let r := cs.takeWhile fun c => (digit? b c).isSome || c == '_'
  (digits? b r).map List.length

/-- A text split into whether it has a minus sign, and the text after the sign. -/
def sign : List Char → Bool × List Char
  | '+' :: cs => (false, cs)
  | '-' :: cs => (true, cs)
  | cs => (false, cs)

/-- The integer that a decimal text is. -/
def ofDecimal (cs : List Char) : Except IntegerError Int :=
  let (negative, body) := sign (trim cs)
  match leadingDigits? 10 body with
  | none => .error .malformed
  | some n =>
    if maxDecimalDigits < n then .error (.tooLong n)
    else
      match digits? 10 body with
      | none => .error .malformed
      | some ds =>
        let v : Int := valueFrom 10 0 ds
        .ok (if negative then -v else v)

/-- The natural number that digits of radix `b` are. White space may follow them. -/
def ofDigits? (b : Nat) (cs : List Char) : Option Nat :=
  (digits? b (trimEnd cs)).map (valueFrom b 0)

/-- Whether an integer can be written as a decimal text: it has no more digits than one may have. -/
def hasDecimal (n : Int) : Bool := n.natAbs < Nat.pow 10 maxDecimalDigits

/-- The decimal text of an integer, unless the integer is too long. -/
def decimal? (n : Int) : Option String := if hasDecimal n then some (toString n) else none

end CadenceEntry.Number
