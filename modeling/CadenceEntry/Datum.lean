import CadenceEntry.Json.Basic
import CadenceEntry.Number.IntegerText
import CadenceEntry.Text.Quoted

/-!
# Data of unknown shape

A datum is what a data document holds before anybody has checked it: the value of a configuration
option, or a description of a type. A datum counts as true or false, two data may be equal although
they differ in kind (`1`, `1.0` and `true` are), and a datum has a text, which messages show, unless
an integer in it is longer than a decimal text may be.
-/

set_option autoImplicit false

namespace CadenceEntry

open Number (Binary64)

/-- A day of the calendar. -/
structure CalendarDate where
  year : Nat
  month : Nat
  day : Nat
  deriving DecidableEq, Repr

/-- A time of a day, with the minutes it is ahead of universal time if that is known. -/
structure ClockTime where
  hour : Nat
  minute : Nat
  second : Nat
  microsecond : Nat
  zone : Option Int
  deriving DecidableEq, Repr

/-- A value in a data document. -/
inductive Datum where
  | null
  | bool (b : Bool)
  | int (n : Int)
  | float (x : Binary64)
  | text (s : String)
  | bytes (bs : List UInt8)
  | date (d : CalendarDate)
  | time (d : CalendarDate) (t : ClockTime)
  | list (items : List Datum)
  | tuple (items : List Datum)
  | set (items : List Datum)
  | map (entries : List (Datum × Datum))
  /-- A list or a mapping that the datum stands inside of. -/
  | enclosing (isMap : Bool)

namespace Datum

/-- Whether a datum counts as true: nothing, zero and everything empty counts as false. -/
def isTrue : Datum → Bool
  | null => false
  | bool b => b
  | int n => n != 0
  | float x => !x.isZero
  | text s => !s.isEmpty
  | bytes bs => !bs.isEmpty
  | date _ | time _ _ | enclosing _ => true
  | list xs | tuple xs | set xs => !xs.isEmpty
  | map es => !es.isEmpty

/-- The integer that a number is; truth values count as numbers. -/
def toInt? : Datum → Option Int
  | bool b => some (if b then 1 else 0)
  | int n => some n
  | float x => x.toInt?
  | _ => none

/-- Whether two data without parts are equal. Numbers are compared by value, whatever their kind. -/
def sameAtom : Datum → Datum → Bool
  | null, null => true
  | text s, text t => s == t
  | bytes a, bytes b => a == b
  | date a, date b => a == b
  | time a t, time b u => a == b && t == u
  | float x, float y => x.same y
  | a, b =>
    match a.toInt?, b.toInt? with
    | some m, some n => m == n
    | _, _ => false

/-- Whether a datum can be the key of a mapping. -/
def isKey : Datum → Bool
  | list _ | set _ | map _ | enclosing _ => false
  | _ => true

/-- The entries of a mapping after `key` is given the value `v`. An equal key keeps its place and
its spelling. -/
def putEntry (entries : List (Datum × Datum)) (key v : Datum) : List (Datum × Datum) :=
  match entries with
  | [] => [(key, v)]
  | (k, w) :: rest =>
    if k.sameAtom key then (k, v) :: rest else (k, w) :: putEntry rest key v

/-- How a byte is written between the quotes `q`. -/
def quotedByte (q : Char) (b : UInt8) : List Char :=
  let c := Char.ofNat b.toNat
  if b.toNat < 0x7f then Text.quotedChar q c else '\\' :: 'x' :: Text.hexDigits 2 b.toNat

/-- A number with at least `width` digits. -/
def padded (width n : Nat) : String :=
  let ds := toString n
  String.ofList (List.replicate (width - ds.length) '0') ++ ds

/-- An offset from universal time, in hours and minutes. -/
def zoneText (minutes : Int) : String :=
  (if minutes < 0 then "-" else "+") ++ padded 2 (minutes.natAbs / 60) ++ ":" ++
    padded 2 (minutes.natAbs % 60)

/-- An offset from universal time as messages show it. -/
def zoneShown (minutes : Int) : String :=
  let seconds := minutes * 60
  if minutes = 0 then "datetime.timezone.utc"
  else if minutes < 0 then
    "datetime.timezone(datetime.timedelta(days=-1, seconds=" ++ toString (seconds + 86400) ++ "))"
  else "datetime.timezone(datetime.timedelta(seconds=" ++ toString seconds ++ "))"

/-- A day as messages show it. -/
def dateFields (d : CalendarDate) : String :=
  toString d.year ++ ", " ++ toString d.month ++ ", " ++ toString d.day

/-- A time as messages show it: seconds and their fraction only if they are needed. -/
def timeFields (t : ClockTime) : String :=
  toString t.hour ++ ", " ++ toString t.minute ++
    (if t.second = 0 ∧ t.microsecond = 0 then "" else ", " ++ toString t.second) ++
    (if t.microsecond = 0 then "" else ", " ++ toString t.microsecond) ++
    ((t.zone.map fun z => ", tzinfo=" ++ zoneShown z).getD "")

mutual

/-- A datum as messages show it. -/
def shown : Datum → String
  | null => "None"
  | bool b => if b then "True" else "False"
  | int n => toString n
  | float x => x.text
  | text s => Text.quoted s
  | bytes bs =>
    let q := Text.quoteFor (bs.map fun b => Char.ofNat b.toNat)
    String.ofList ('b' :: q :: bs.flatMap (quotedByte q) ++ [q])
  | date d => "datetime.date(" ++ dateFields d ++ ")"
  | time d t => "datetime.datetime(" ++ dateFields d ++ ", " ++ timeFields t ++ ")"
  | list xs => "[" ++ ", ".intercalate (shownAll xs) ++ "]"
  | tuple [x] => "(" ++ x.shown ++ ",)"
  | tuple xs => "(" ++ ", ".intercalate (shownAll xs) ++ ")"
  | set [] => "set()"
  | set xs => "\x7b" ++ ", ".intercalate (shownAll xs) ++ "\x7d"
  | map es => "\x7b" ++ ", ".intercalate (shownEntries es) ++ "\x7d"
  | enclosing isMap => if isMap then "\x7b...\x7d" else "[...]"

/-- The items of a datum as messages show them. -/
def shownAll : List Datum → List String
  | [] => []
  | x :: xs => x.shown :: shownAll xs

/-- The entries of a mapping as messages show them. -/
def shownEntries : List (Datum × Datum) → List String
  | [] => []
  | (k, v) :: es => (k.shown ++ ": " ++ v.shown) :: shownEntries es

end

/-- The text of a datum: texts, days and times as they are, everything else as messages show it. -/
def plain : Datum → String
  | text s => s
  | date d => padded 4 d.year ++ "-" ++ padded 2 d.month ++ "-" ++ padded 2 d.day
  | time d t =>
    padded 4 d.year ++ "-" ++ padded 2 d.month ++ "-" ++ padded 2 d.day ++ " " ++
      padded 2 t.hour ++ ":" ++ padded 2 t.minute ++ ":" ++ padded 2 t.second ++
      (if t.microsecond = 0 then "" else "." ++ padded 6 t.microsecond) ++
      (t.zone.map zoneText).getD ""
  | x => x.shown

mutual

/-- Whether a datum can be written as a text: no integer in it has more digits than a decimal text
may have. -/
def hasText : Datum → Bool
  | int n => Number.hasDecimal n
  | list xs | tuple xs | set xs => haveText xs
  | map es => entriesHaveText es
  | _ => true

/-- Whether data can be written as texts. -/
def haveText : List Datum → Bool
  | [] => true
  | x :: xs => x.hasText && haveText xs

/-- Whether the entries of a mapping can be written as texts. -/
def entriesHaveText : List (Datum × Datum) → Bool
  | [] => true
  | (k, v) :: es => k.hasText && v.hasText && entriesHaveText es

end

mutual

/-- The datum that a JSON document is. -/
def ofJson : Json → Datum
  | .null => null
  | .bool b => bool b
  | .int n => int n
  | .float x => float x
  | .string s => text s
  | .array vs => list (ofJsonItems vs)
  | .object ms => map (ofJsonMembers ms)

/-- The data that the items of an array are. -/
def ofJsonItems : List Json → List Datum
  | [] => []
  | v :: vs => ofJson v :: ofJsonItems vs

/-- The entries that the members of an object are. -/
def ofJsonMembers : List (String × Json) → List (Datum × Datum)
  | [] => []
  | (n, v) :: ms => (text n, ofJson v) :: ofJsonMembers ms

end

end Datum

end CadenceEntry
