import CadenceEntry.Json.Basic

/-!
# Reading JSON

`read?` takes a whole text as one document. A number with a fraction or an exponent is a
floating-point number, any other an integer. When an object names a member twice, the later value
counts.
-/

set_option autoImplicit false

namespace CadenceEntry.Json

/-- White space between the parts of a document. -/
def isGap (c : Char) : Bool := c == ' ' || c == '\t' || c == '\n' || c == '\r'

/-- A text without the white space it begins with. -/
def skipGap (cs : List Char) : List Char := cs.dropWhile isGap

/-- The value of a hexadecimal digit. -/
def hexValue? (c : Char) : Option Nat :=
  if c.isDigit then some (c.toNat - '0'.toNat)
  else if 'a' ≤ c && c ≤ 'f' then some (c.toNat - 'a'.toNat + 10)
  else if 'A' ≤ c && c ≤ 'F' then some (c.toNat - 'A'.toNat + 10)
  else none

/-- The code unit that four hexadecimal digits are. -/
def unit? (a b c d : Char) : Option Nat := do
  let a ← hexValue? a
  let b ← hexValue? b
  let c ← hexValue? c
  let d ← hexValue? d
  return ((a * 16 + b) * 16 + c) * 16 + d

/-- The character that an escape of one letter stands for. -/
def letterEscape? : Char → Option Char
  | '"' => some '"'
  | '\\' => some '\\'
  | '/' => some '/'
  | 'b' => some '\x08'
  | 'f' => some '\x0c'
  | 'n' => some '\n'
  | 'r' => some '\r'
  | 't' => some '\t'
  | _ => none

/-- Whether a code unit is the first half of a pair. -/
def isHighUnit (n : Nat) : Bool := 0xd800 ≤ n && n ≤ 0xdbff

/-- Whether a code unit is the second half of a pair. -/
def isLowUnit (n : Nat) : Bool := 0xdc00 ≤ n && n ≤ 0xdfff

/-- The characters of a string after its opening quote, and what follows its closing quote. -/
def stringRest? : List Char → Option (List Char × List Char)
  | [] => none
  | '"' :: cs => some ([], cs)
  | '\\' :: 'u' :: a :: b :: c :: d :: cs =>
    match unit? a b c d with
    | none => none
    | some n =>
      if isHighUnit n then
        match cs with
        | '\\' :: 'u' :: a' :: b' :: c' :: d' :: cs' =>
          match unit? a' b' c' d' with
          | none => none
          | some m =>
            if isLowUnit m then
              (stringRest? cs').map fun (s, r) =>
                (Char.ofNat (0x10000 + (n - 0xd800) * 0x400 + (m - 0xdc00)) :: s, r)
            else none
        | _ => none
      else if isLowUnit n then none
      else (stringRest? cs).map fun (s, r) => (Char.ofNat n :: s, r)
  | '\\' :: e :: cs =>
    match letterEscape? e with
    | none => none
    | some c => (stringRest? cs).map fun (s, r) => (c :: s, r)
  | ['\\'] => none
  | c :: cs =>
    if c.toNat < 0x20 then none else (stringRest? cs).map fun (s, r) => (c :: s, r)

/-- A natural number and what follows it. -/
def naturalPrefix? (cs : List Char) : Option (List Char × List Char) :=
  match cs.takeWhile Char.isDigit with
  | [] => none
  | ds => some (ds, cs.dropWhile Char.isDigit)

/-- The value of decimal digits. -/
def digitsValue (ds : List Char) : Nat := ds.foldl (fun n c => n * 10 + (c.toNat - '0'.toNat)) 0

/-- The exponent at the beginning of a text, if there is one, and what follows it. -/
def exponentPrefix? : List Char → Option (Int × List Char)
  | e :: cs =>
    if e == 'e' || e == 'E' then
      match cs with
      | '-' :: cs => (naturalPrefix? cs).map fun (ds, r) => (-(digitsValue ds : Int), r)
      | '+' :: cs => (naturalPrefix? cs).map fun (ds, r) => ((digitsValue ds : Int), r)
      | cs => (naturalPrefix? cs).map fun (ds, r) => ((digitsValue ds : Int), r)
    else none
  | [] => none

/-- A number after its sign, and what follows it. -/
def numberRest? (negative : Bool) (cs : List Char) : Option (Json × List Char) := do
  let (whole, rest) ← naturalPrefix? cs
  if whole.head? = some '0' ∧ 1 < whole.length then none
  else
    let fraction : Option (List Char × List Char) :=
      match rest with
      | '.' :: rest => naturalPrefix? rest
      | _ => none
    let afterFraction := (fraction.map Prod.snd).getD rest
    match fraction, exponentPrefix? afterFraction with
    | none, none =>
      let n : Int := digitsValue whole
      some (int (if negative then -n else n), rest)
    | fraction, exponent =>
      let places := (fraction.map Prod.fst).getD []
      let power := (exponent.map Prod.fst).getD 0
      some (float (.ofDecimal negative (digitsValue (whole ++ places)) (power - places.length)),
        (exponent.map Prod.snd).getD afterFraction)

/-- A number and what follows it. -/
def number? : List Char → Option (Json × List Char)
  | '-' :: cs => numberRest? true cs
  | cs => numberRest? false cs

mutual

/-- A document and what follows it. At most `fuel` documents are opened inside each other or read
one after the other. -/
def value? : (fuel : Nat) → List Char → Option (Json × List Char)
  | 0, _ => none
  | fuel + 1, cs =>
    match skipGap cs with
    | 'n' :: 'u' :: 'l' :: 'l' :: r => some (null, r)
    | 't' :: 'r' :: 'u' :: 'e' :: r => some (bool true, r)
    | 'f' :: 'a' :: 'l' :: 's' :: 'e' :: r => some (bool false, r)
    | '"' :: r => (stringRest? r).map fun (s, r) => (string (String.ofList s), r)
    | '[' :: r =>
      match skipGap r with
      | ']' :: r => some (array [], r)
      | r => (items? fuel r).map fun (vs, r) => (array vs, r)
    | '\x7b' :: r =>
      match skipGap r with
      | '\x7d' :: r => some (object [], r)
      | r => (members? fuel [] r).map fun (ms, r) => (object ms, r)
    | r => number? r

/-- The items of an array through its closing bracket, and what follows it. -/
def items? : (fuel : Nat) → List Char → Option (List Json × List Char)
  | 0, _ => none
  | fuel + 1, cs =>
    match value? fuel cs with
    | none => none
    | some (v, r) =>
      match skipGap r with
      | ',' :: r => (items? fuel r).map fun (vs, r) => (v :: vs, r)
      | ']' :: r => some ([v], r)
      | _ => none

/-- The members of an object through its closing brace after the members `ms`, and what follows
it. -/
def members? : (fuel : Nat) → List (String × Json) → List Char →
    Option (List (String × Json) × List Char)
  | 0, _, _ => none
  | fuel + 1, ms, cs =>
    match skipGap cs with
    | '"' :: r =>
      match stringRest? r with
      | none => none
      | some (n, r) =>
        match skipGap r with
        | ':' :: r =>
          match value? fuel r with
          | none => none
          | some (v, r) =>
            let ms := putMember ms (String.ofList n) v
            match skipGap r with
            | ',' :: r => members? fuel ms r
            | '\x7d' :: r => some (ms, r)
            | _ => none
        | _ => none
    | _ => none

end

/-- The document that a whole text is. -/
def read? (s : String) : Option Json :=
  match value? (2 * s.length + 2) s.toList with
  | some (v, r) => if (skipGap r).isEmpty then some v else none
  | none => none

end CadenceEntry.Json
