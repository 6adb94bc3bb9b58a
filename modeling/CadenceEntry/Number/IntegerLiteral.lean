import CadenceEntry.Number.IntegerText

/-!
# Integer literals

The value of an integer literal of a source text. Underscores separate digits and mean nothing. The
prefixes `0x`, `0o` and `0b`, in either case, choose the radix; everything else is decimal, also
with leading zeros.
-/

set_option autoImplicit false

namespace CadenceEntry.Number.IntegerLiteral

/-- The radix that a letter after a leading zero chooses. -/
def radix? : Char → Option Nat
  | 'x' | 'X' => some 16
  | 'o' | 'O' => some 8
  | 'b' | 'B' => some 2
  | _ => none

/-- The value of an integer literal, if it has one. -/
def value? (cs : List Char) : Option Int :=
  match cs.filter (· != '_') with
  | '0' :: m :: ds =>
    match radix? m with
    | some b => (ofDigits? b ds).map Int.ofNat
    | none => (ofDecimal ('0' :: m :: ds)).toOption
  | ds => (ofDecimal ds).toOption

end CadenceEntry.Number.IntegerLiteral
