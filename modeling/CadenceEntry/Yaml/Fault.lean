import CadenceEntry.Text.Quoted

/-!
# Why a text has no YAML value

A text may be no YAML document, or hold something that no value is known for; that is one fault. The
others are scalars that are marked, or look, like a number or a time and are none.
-/

set_option autoImplicit false

namespace CadenceEntry.Yaml

/-- Why a text has no value. -/
inductive Fault where
  | malformed
  /-- An escape names no character. -/
  | noCharacter (code : Nat)
  | noTruthValue
  | noTimestamp
  /-- A number has no digits. -/
  | emptyNumber
  | noInteger (radix : Nat) (text : List Char)
  | integerTooLong (digits : Nat)
  | noFloat (text : List Char)
  | yearOutOfRange (year : Nat)
  | monthOutOfRange
  | dayOutOfRange
  | hourOutOfRange
  | minuteOutOfRange
  | secondOutOfRange
  /-- The minutes that a time is ahead of universal time are a day or more. -/
  | zoneOutOfRange (minutes : Int)
  deriving DecidableEq, Repr

namespace Fault

/-- A span of time in minutes, as messages show it. -/
def durationShown (minutes : Int) : String :=
  let days := minutes.fdiv 1440
  let seconds := minutes.fmod 1440 * 60
  "datetime.timedelta(days=" ++ toString days ++
    (if seconds = 0 then "" else ", seconds=" ++ toString seconds) ++ ")"

/-- The message of a fault, if it has one. -/
def message? : Fault → Option String
  | malformed | noTruthValue | noTimestamp | emptyNumber => none
  | noCharacter n => if n < Nat.pow 2 31 then some "chr() arg not in range(0x110000)" else none
  | noInteger radix cs =>
    some ("invalid literal for int() with base " ++ toString radix ++ ": " ++
      String.ofList ((Text.quoted (String.ofList cs)).toList.take 200))
  | integerTooLong n =>
    some ("Exceeds the limit (4300 digits) for integer string conversion: value has " ++
      toString n ++ " digits; use sys.set_int_max_str_digits() to increase the limit")
  | noFloat cs => some ("could not convert string to float: " ++ Text.quoted (String.ofList cs))
  | yearOutOfRange y => some ("year " ++ toString y ++ " is out of range")
  | monthOutOfRange => some "month must be in 1..12"
  | dayOutOfRange => some "day is out of range for month"
  | hourOutOfRange => some "hour must be in 0..23"
  | minuteOutOfRange => some "minute must be in 0..59"
  | secondOutOfRange => some "second must be in 0..59"
  | zoneOutOfRange m =>
    some ("offset must be a timedelta strictly between -timedelta(hours=24) and " ++
      "timedelta(hours=24), not " ++ durationShown m ++ ".")

/-- The kind of a fault other than that of a text that is no document. -/
def kind : Fault → String
  | noTruthValue => "key"
  | emptyNumber => "index"
  | noTimestamp => "attribute"
  | noCharacter n => if n < Nat.pow 2 31 then "value" else "overflow"
  | _ => "value"

end Fault

end CadenceEntry.Yaml
