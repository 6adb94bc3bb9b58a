import CadenceEntry.Number.Binary64
import CadenceEntry.Number.IntegerText

/-!
# Floating-point numbers as text

A number is written with an optional sign, digits with an optional point, and an optional power of
ten, or as a word for infinity or for what is no number. Sums and products are rounded once.
-/

set_option autoImplicit false

namespace CadenceEntry.Number.Binary64

/-- The digits at the beginning of a text, and the text after them. Digits of any script count. -/
def decimalDigits : List Char → List Nat × List Char
  | [] => ([], [])
  | c :: cs =>
    match Text.decimalDigit? c with
    | some d => (d :: (decimalDigits cs).1, (decimalDigits cs).2)
    | none => ([], c :: cs)

/-- The power of ten that a text is; no text is the power zero. -/
def power? : List Char → Option Int
  | [] => some 0
  | e :: cs =>
    if e = 'e' ∨ e = 'E' then
      let (negative, ds) := sign cs
      match decimalDigits ds with
      | (d :: ds, []) =>
        let n : Int := valueFrom 10 0 (d :: ds)
        some (if negative then -n else n)
      | _ => none
    else none

/-- The number that a text is. -/
def ofText? (cs : List Char) : Option Binary64 :=
  let (negative, body) := sign (trim cs)
  let word := (String.ofList body).toLower
  if word == "inf" || word == "infinity" then some (infinite negative)
  else if word == "nan" then some nan
  else
    let (whole, rest) := decimalDigits body
    let (fraction, rest) :=
      match rest with
      | '.' :: rest => decimalDigits rest
      | rest => ([], rest)
    if whole.isEmpty && fraction.isEmpty then none
    else
      (power? rest).map fun p =>
        ofDecimal negative (valueFrom 10 0 (whole ++ fraction)) (p - fraction.length)

/-- A number with the other sign. -/
def negate : Binary64 → Binary64
  | finite s m e => finite (!s) m e
  | infinite s => infinite (!s)
  | nan => nan

/-- The fraction that a finite number is. -/
def fraction? : Binary64 → Option (Int × Nat)
  | finite s m e =>
    let (n, d) := scaleBy m 1 2 e
    some (if s then -(n : Int) else n, d)
  | _ => none

/-- The number nearest to a fraction. -/
def ofIntFraction (n : Int) (d : Nat) : Binary64 := ofFraction (n < 0) n.natAbs d

/-- The sum of two numbers, of which the zeros are without a sign. -/
def add : Binary64 → Binary64 → Binary64
  | nan, _ | _, nan => nan
  | infinite s, infinite t => if s = t then infinite s else nan
  | infinite s, _ | _, infinite s => infinite s
  | x, y =>
    match x.fraction?, y.fraction? with
    | some (m, c), some (n, d) => ofIntFraction (m * d + n * c) (c * d)
    | _, _ => nan

/-- The product of a number and a positive integer. -/
def scale (x : Binary64) (n : Nat) : Binary64 :=
  match x.fraction?, (ofFraction false n 1).fraction? with
  | some (m, c), some (k, d) => ofIntFraction (m * k) (c * d)
  | _, _ => x

end CadenceEntry.Number.Binary64
