import CadenceEntry.Datum
import CadenceEntry.Yaml.Fault

/-!
# Days and times

A day is written as year, month and day, a time of a day after it as hour, minute and second, with a
fraction and the distance to universal time if they are known.
-/

set_option autoImplicit false

namespace CadenceEntry.Yaml

/-- The time of a day as it is written, with the digits of the fraction, and the sign and the
minutes of the distance to universal time. -/
structure TimeFields where
  hour : Nat
  minute : Nat
  second : Nat
  fraction : List Char
  zone : Option (Bool × Nat)

/-- A day, with a time if there is one, as it is written. -/
structure Timestamp where
  year : Nat
  month : Nat
  day : Nat
  time : Option TimeFields

namespace Timestamp

/-- The number that digits are. -/
def number (ds : List Char) : Nat := ds.foldl (fun n d => n * 10 + (d.toNat - '0'.toNat)) 0

/-- The number of at least `least` and at most `most` digits at the beginning of a text, and the
text after it. -/
def digits? (least most : Nat) (cs : List Char) : Option (Nat × List Char) :=
  let ds := (cs.take most).takeWhile Char.isDigit
  if least ≤ ds.length then some (number ds, cs.drop ds.length) else none

/-- The text after a character. -/
def after? (c : Char) : List Char → Option (List Char)
  | d :: cs => if c = d then some cs else none
  | [] => none

/-- Whether a character is a space or a tab. -/
def isGap (c : Char) : Bool := c == ' ' || c == '\t'

/-- The distance to universal time that a text is. -/
def zone? : List Char → Option (Bool × Nat)
  | ['Z'] => some (false, 0)
  | c :: cs =>
    if c = '+' ∨ c = '-' then do
      let (hours, rest) ← digits? 1 2 cs
      if rest.isEmpty then return (c == '-', hours * 60)
      else
        let (minutes, rest) ← digits? 2 2 (← after? ':' rest)
        if rest.isEmpty then return (c == '-', hours * 60 + minutes) else none
    else none
  | [] => none

/-- The time of a day that a text is. -/
def time? (cs : List Char) : Option TimeFields := do
  let (hour, rest) ← digits? 1 2 cs
  let (minute, rest) ← digits? 2 2 (← after? ':' rest)
  let (second, rest) ← digits? 2 2 (← after? ':' rest)
  let (fraction, rest) :=
    match rest with
    | '.' :: rest => (rest.takeWhile Char.isDigit, rest.dropWhile Char.isDigit)
    | rest => ([], rest)
  if rest.isEmpty then return ⟨hour, minute, second, fraction, none⟩
  else return ⟨hour, minute, second, fraction, some (← zone? (rest.dropWhile isGap))⟩

/-- The day and the time that a text is. -/
def ofText? (cs : List Char) : Option Timestamp := do
  let (year, rest) ← digits? 4 4 cs
  let (month, rest) ← digits? 1 2 (← after? '-' rest)
  let (day, rest) ← digits? 1 2 (← after? '-' rest)
  match rest with
  | [] => return ⟨year, month, day, none⟩
  | c :: rest =>
    if c = 'T' ∨ c = 't' then return ⟨year, month, day, some (← time? rest)⟩
    else if isGap c then return ⟨year, month, day, some (← time? (rest.dropWhile isGap))⟩
    else none

/-- Whether a text looks like a day or a time. A day without a time has two digits for the month and
for the day. -/
def isTimestamp (cs : List Char) : Bool :=
  match ofText? cs with
  | none => false
  | some t => t.time.isSome || cs.length == 10

/-- Whether a year has a leap day. -/
def isLeapYear (y : Nat) : Bool := y % 4 == 0 && (y % 100 != 0 || y % 400 == 0)

/-- The number of days in a month. -/
def daysInMonth (y m : Nat) : Nat :=
  if m = 2 then if isLeapYear y then 29 else 28
  else if [4, 6, 9, 11].contains m then 30
  else 31

/-- The day of the calendar, if it exists. -/
def date (t : Timestamp) : Except Fault CalendarDate :=
  if t.year = 0 then .error (.yearOutOfRange t.year)
  else if t.month = 0 ∨ 12 < t.month then .error .monthOutOfRange
  else if t.day = 0 ∨ daysInMonth t.year t.month < t.day then .error .dayOutOfRange
  else .ok ⟨t.year, t.month, t.day⟩

/-- The distance to universal time in minutes, which is less than a day. -/
def zone : Option (Bool × Nat) → Except Fault (Option Int)
  | none => .ok none
  | some (negative, n) =>
    let minutes : Int := if negative then -(n : Int) else n
    if n < 1440 then .ok (some minutes) else .error (.zoneOutOfRange minutes)

/-- The fraction of a second in millionths; further digits are cut off. -/
def microseconds (ds : List Char) : Nat :=
  let ds := ds.take 6
  number (ds ++ List.replicate (6 - ds.length) '0')

/-- The datum of a day or of a time. The distance to universal time is checked first. -/
def datum (t : Timestamp) : Except Fault Datum := do
  match t.time with
  | none => return .date (← t.date)
  | some f =>
    let zone ← zone f.zone
    let date ← t.date
    if 23 < f.hour then .error .hourOutOfRange
    else if 59 < f.minute then .error .minuteOutOfRange
    else if 59 < f.second then .error .secondOutOfRange
    else return .time date ⟨f.hour, f.minute, f.second, microseconds f.fraction, zone⟩

end Timestamp

end CadenceEntry.Yaml
