import CadenceEntry.Yaml.Timestamp

/-!
# Tags

A tag says of what kind a node is. A plain scalar without a tag gets one from its form: forms of
truth values, integers, floating-point numbers, null, days and times are recognised, and everything
else is a text.
-/

set_option autoImplicit false

namespace CadenceEntry.Yaml

/-- The kind of a node. -/
inductive Tag where
  | null
  | bool
  | int
  | float
  | binary
  | timestamp
  | omap
  | pairs
  | set
  | str
  | seq
  | map
  /-- A key whose value is merged into the mapping. -/
  | merge
  /-- A key whose value stands for the whole mapping. -/
  | value
  /-- A kind that nothing is known about. -/
  | other
  deriving DecidableEq, Repr

namespace Tag

/-- The tags by their names. -/
def names : List (String × Tag) :=
  [("null", null), ("bool", bool), ("int", int), ("float", float), ("binary", binary),
    ("timestamp", timestamp), ("omap", omap), ("pairs", pairs), ("set", set), ("str", str),
    ("seq", seq), ("map", map), ("merge", merge), ("value", value)]

/-- What the URI of a known tag begins with. -/
def uriStart : String := "tag:yaml.org,2002:"

/-- The tag with a URI. -/
def ofUri (uri : String) : Tag :=
  ((names.find? fun e => uriStart ++ e.1 == uri).map Prod.snd).getD other

/-- The words for truth values, in lower case, with their values. -/
def truthWords : List (String × Bool) :=
  [("yes", true), ("no", false), ("true", true), ("false", false), ("on", true), ("off", false)]

/-- A word in lower case, with a capital, and in upper case. -/
def casesOf (word : String) : List String := [word, word.capitalize, word.toUpper]

/-- Whether a text has the form of a truth value. -/
def isBool (cs : List Char) : Bool :=
  (truthWords.flatMap fun e => casesOf e.1).contains (String.ofList cs)

/-- Whether a text has the form of null. -/
def isNull (cs : List Char) : Bool := ("" :: "~" :: casesOf "null").contains (String.ofList cs)

/-- The text after a sign, which need not be there. -/
def unsigned : List Char → List Char
  | '+' :: cs | '-' :: cs => cs
  | cs => cs

/-- Whether a character is a digit or an underscore. -/
def isDigitOrUnderscore (c : Char) : Bool := c.isDigit || c == '_'

/-- Whether a text is a part of a number of base sixty: one digit, or two of which the first is less
than six. -/
def isSexagesimal : List Char → Bool
  | [d] => d.isDigit
  | [c, d] => '0' ≤ c && c ≤ '5' && d.isDigit
  | _ => false

/-- Whether a text begins with a digit, holds nothing but digits and underscores, and ends. -/
def isWhole : List Char → Bool
  | d :: cs => d.isDigit && cs.all isDigitOrUnderscore
  | [] => false

/-- Whether a text has the form of an integer: binary, octal, decimal, hexadecimal, or of base
sixty. -/
def isInt (cs : List Char) : Bool :=
  match unsigned cs with
  | '0' :: 'b' :: ds => !ds.isEmpty && ds.all fun c => c == '0' || c == '1' || c == '_'
  | '0' :: 'x' :: ds => !ds.isEmpty && ds.all fun c => (hexDigit c) || c == '_'
  | ['0'] => true
  | '0' :: ds => ds.all fun c => ('0' ≤ c && c ≤ '7') || c == '_'
  | ds =>
    match ds.splitOn ':' with
    | first :: rest => isWhole first && rest.all isSexagesimal
    | [] => false
where
  /-- Whether a character is a hexadecimal digit. -/
  hexDigit (c : Char) : Bool :=
    c.isDigit || ('a' ≤ c && c ≤ 'f') || ('A' ≤ c && c ≤ 'F')

/-- Whether a text is nothing, or the exponent of a number with its sign. -/
def isExponent : List Char → Bool
  | [] => true
  | e :: sign :: ds =>
    (e == 'e' || e == 'E') && (sign == '+' || sign == '-') && !ds.isEmpty && ds.all Char.isDigit
  | _ => false

/-- Whether a text has the form of a floating-point number. -/
def isFloat (cs : List Char) : Bool :=
  let body := unsigned cs
  let whole := body.takeWhile fun c => c != '.'
  match body.dropWhile fun c => c != '.' with
  | '.' :: rest =>
    let fraction := rest.takeWhile isDigitOrUnderscore
    let exponent := rest.dropWhile isDigitOrUnderscore
    if whole.isEmpty then
      ["inf", "Inf", "INF"].contains (String.ofList rest) ||
        (body == cs &&
          (["nan", "NaN", "NAN"].contains (String.ofList rest) ||
            (isWhole fraction && isExponent exponent)))
    else
      match whole.splitOn ':' with
      | [ds] => isWhole ds && isExponent exponent
      | first :: parts => isWhole first && parts.all isSexagesimal && exponent.isEmpty
      | [] => false
  | _ => false

/-- A text without a line end as its last character. -/
def withoutLineEnd (cs : List Char) : List Char :=
  if cs.getLast? == some '\n' then cs.dropLast else cs

/-- The tag that the form of a scalar gives it. -/
def ofForm (text : String) : Tag :=
  let cs := withoutLineEnd text.toList
  if isBool cs then bool
  else if isFloat cs then float
  else if isInt cs then int
  else if cs == ['<', '<'] then merge
  else if isNull cs && (text.isEmpty || !cs.isEmpty) then null
  else if Timestamp.isTimestamp cs then timestamp
  else if cs == ['='] then value
  else str

end Tag

end CadenceEntry.Yaml
