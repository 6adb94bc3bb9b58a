/-!
# Binary floating-point numbers

The numbers of the 64-bit binary format, kept as a sign, a mantissa below `2 ^ 53` and a power of
two, so that comparing, truncating and printing them is exact arithmetic. A decimal is read to the
nearest number, a tie to the even mantissa. A number is printed with the fewest digits that are read
back as the same number, and of those with the nearest.
-/

set_option autoImplicit false

namespace CadenceEntry.Number

/-- A number of the 64-bit binary format. A finite one is `mantissa * 2 ^ exponent`, up to sign. -/
inductive Binary64 where
  | finite (negative : Bool) (mantissa : Nat) (exponent : Int)
  | infinite (negative : Bool)
  | nan
  deriving DecidableEq, Repr

namespace Binary64

/-- The least exponent, that of zero and of the numbers next to it. -/
def minExponent : Int := -1074

/-- The greatest exponent of a finite number. -/
def maxExponent : Int := 971

/-- The quotient `n / d`, rounded to the nearest natural number and a tie to the even one. -/
def roundedQuotient (n d : Nat) : Nat :=
  let q := n / d
  let r := n % d
  if 2 * r < d then q
  else if d < 2 * r then q + 1
  else if q % 2 = 0 then q else q + 1

/-- The fraction `n * 2 ^ e / d` as a numerator and a denominator. -/
def scaleBy (n d : Nat) (base : Nat) (e : Int) : Nat × Nat :=
  if 0 ≤ e then (n * base.pow e.toNat, d) else (n, d * base.pow (-e).toNat)

/-- The number nearest to the fraction `n / d`. -/
def ofFraction (negative : Bool) (n d : Nat) : Binary64 :=
  if n = 0 ∨ d = 0 then finite negative 0 minExponent
  else
    let guess : Int := (Nat.log2 n : Int) - Nat.log2 d - 52
    let atLeast (e : Int) : Bool :=
      let (x, y) := scaleBy n d 2 (-e)
      Nat.pow 2 52 * y ≤ x
    let e := max (if atLeast guess then guess else guess - 1) minExponent
    let (x, y) := scaleBy n d 2 (-e)
    let m := roundedQuotient x y
    let (m, e) := if m = Nat.pow 2 53 then (Nat.pow 2 52, e + 1) else (m, e)
    if maxExponent < e then infinite negative else finite negative m e

/-- The number nearest to the decimal `digits * 10 ^ exponent`. -/
def ofDecimal (negative : Bool) (digits : Nat) (exponent : Int) : Binary64 :=
  let magnitude : Int := exponent + (Nat.toDigits 10 digits).length
  if digits = 0 ∨ magnitude < -400 then finite negative 0 minExponent
  else if 400 < magnitude then infinite negative
  else
    let (n, d) := scaleBy digits 1 10 exponent
    ofFraction negative n d

/-- Whether a number is a zero of either sign. -/
def isZero : Binary64 → Bool
  | finite _ m _ => m == 0
  | _ => false

/-- The integer that a number is, if it is one. -/
def toInt? : Binary64 → Option Int
  | finite negative m e =>
    let (x, y) := scaleBy m 1 2 e
    if x % y = 0 then some (if negative then -(x / y : Nat) else (x / y : Nat)) else none
  | _ => none

/-- The integer part of a finite number. -/
def truncate? : Binary64 → Option Int
  | finite negative m e =>
    let (x, y) := scaleBy m 1 2 e
    some (if negative then -(x / y : Nat) else (x / y : Nat))
  | _ => none

/-- Whether two numbers are equal: zeros of both signs are, and nothing equals what is no number. -/
def same : Binary64 → Binary64 → Bool
  | finite s m e, finite s' m' e' =>
    (m == 0 && m' == 0) ||
      (s == s' &&
        let (x, y) := scaleBy m 1 2 e
        let (x', y') := scaleBy m' 1 2 e'
        x * y' == x' * y)
  | infinite s, infinite s' => s == s'
  | _, _ => false

/-- The power of ten of the first digit of `n / d`, for a fraction of at most `10 ^ fuel` and at
least `10 ^ -fuel`. -/
def leadingPower (n d : Nat) : (fuel : Nat) → Int
  | 0 => 0
  | fuel + 1 =>
    if d ≤ n then ((Nat.toDigits 10 (n / d)).length : Int) - 1
    else leadingPower (n * 10) d fuel - 1

/-- The fewest decimal digits between two bounds, as `digits * 10 ^ power`. The bounds are
`(4 * m - below) * 2 ^ e` and `(4 * m + 2) * 2 ^ e` around the value `4 * m * 2 ^ e`; they belong to
the interval if `closed` is true. Each count of digits in `counts` is tried with the two decimals
next to the value. -/
def shortestAmong (m below : Nat) (e : Int) (closed : Bool) : (counts : List Nat) → Nat × Int
  | [] => (0, 0)
  | count :: counts =>
    let (n, d) := scaleBy (4 * m) 1 2 e
    let (low, _) := scaleBy (4 * m - below) 1 2 e
    let (high, _) := scaleBy (4 * m + 2) 1 2 e
    let power := leadingPower n d 400 - count + 1
    let (x, y) := scaleBy n d 10 (-power)
    let floor := x / y
    let inside (q : Nat) : Bool :=
      let (a, b) := scaleBy q 1 10 power
      if closed then low * b ≤ a * d && a * d ≤ high * b else low * b < a * d && a * d < high * b
    match inside floor, inside (floor + 1) with
    | true, false => (floor, power)
    | false, true => (floor + 1, power)
    | true, true => (roundedQuotient x y, power)
    | false, false => shortestAmong m below e closed counts

/-- The fewest decimal digits that are read back as `m * 2 ^ e`, as `digits * 10 ^ power`. -/
def shortest (m : Nat) (e : Int) : Nat × Int :=
  let below := if m = Nat.pow 2 52 ∧ minExponent < e then 1 else 2
  shortestAmong m below (e - 2) (m % 2 == 0) ((List.range 17).map (· + 1))

/-- Digits with a decimal point after the first `point` of them, with zeros where there are none. -/
def positional (ds : List Char) (point : Int) : List Char :=
  if point ≤ 0 then
    '0' :: '.' :: List.replicate (-point).toNat '0' ++ ds
  else
    let whole := ds.take point.toNat
    let fraction := ds.drop point.toNat
    whole ++ List.replicate (point.toNat - whole.length) '0' ++
      '.' :: (if fraction.isEmpty then ['0'] else fraction)

/-- Digits with a decimal point after the first of them, and the power of ten. -/
def scientific (ds : List Char) (power : Int) : List Char :=
  let fraction := ds.drop 1
  let digits := Nat.toDigits 10 power.natAbs
  ds.take 1 ++ (if fraction.isEmpty then [] else '.' :: fraction) ++
    'e' :: (if power < 0 then '-' else '+') ::
      (if digits.length < 2 then '0' :: digits else digits)

/-- A number as text. Numbers from `0.0001` to below ten thousand million million are written with
all their places and at least one after the point, others with a power of ten. -/
def text : Binary64 → String
  | nan => "nan"
  | infinite negative => if negative then "-inf" else "inf"
  | finite negative m e =>
    let body :=
      if m = 0 then ['0', '.', '0']
      else
        let (digits, power) := shortest m e
        let ds := (Nat.toDigits 10 digits).reverse.dropWhile (· == '0') |>.reverse
        let point := power + (Nat.toDigits 10 digits).length
        if -4 < point && point ≤ 16 then positional ds point else scientific ds (point - 1)
    String.ofList (if negative then '-' :: body else body)

end Binary64

end CadenceEntry.Number
