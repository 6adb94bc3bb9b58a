import CadenceEntry.Datum
import CadenceEntry.Kind.Table
import CadenceEntry.Log
import CadenceEntry.Text.Uppercase

/-!
# Configurations

A configuration decides how a source text is classified and what is reported. It is made from data
of unknown shape; the policy and the level of the log must be known ones, while the two flags count
as true or false whatever they are. A mapping describes a configuration by the options that differ
from the default.
-/

set_option autoImplicit false

namespace CadenceEntry

/-- The options for a source text, with flags of type `φ`. -/
structure Configuration (φ : Type) where
  entryPoints : Policy
  includeProgram : φ
  legacyTypeNames : φ
  logLevel : LogLevel
  deriving DecidableEq

/-- Why data do not give a configuration. -/
inductive OptionError where
  | unknownPolicy (shown : String)
  | unknownLogLevel (shown : String)
  /-- An integer in the value of an option is too long to be written. -/
  | tooLong
  deriving DecidableEq, Repr

/-- The message of an error. -/
def OptionError.message : OptionError → String
  | unknownPolicy s =>
    "entry_points must be one of " ++ ", ".intercalate (Policy.all.map Policy.name) ++ ", got " ++ s
  | unknownLogLevel s => "unknown log_level: " ++ s
  | tooLong =>
    "Exceeds the limit (" ++ toString Number.maxDecimalDigits ++
      " digits) for integer string conversion; use sys.set_int_max_str_digits() to increase " ++
      "the limit"

/-- The policy that a datum names. -/
def Policy.ofDatum : Datum → Except OptionError Policy
  | .text s =>
    match ofName? s with
    | some p => .ok p
    | none => .error (.unknownPolicy (Datum.text s).shown)
  | v => .error (if v.hasText then .unknownPolicy v.shown else .tooLong)

/-- The level that the text of a datum names, in letters of either case. -/
def LogLevel.ofDatum (v : Datum) : Except OptionError LogLevel :=
  if v.hasText then
    let s := Text.toUppercase v.plain
    match ofName? s with
    | some l => .ok l
    | none => .error (.unknownLogLevel (Text.quoted s))
  else .error .tooLong

namespace Configuration

variable {φ ψ : Type}

/-- The configuration that nothing is asked of. -/
def default : Configuration Bool := ⟨.last, true, false, .warning⟩

/-- The configuration with other flags. -/
def map (f : φ → ψ) (c : Configuration φ) : Configuration ψ :=
  ⟨c.entryPoints, f c.includeProgram, f c.legacyTypeNames, c.logLevel⟩

/-- The kind table that a configuration asks for. -/
def kindTable (c : Configuration Bool) : KindTable ScalarKind :=
  if c.legacyTypeNames then KindTable.legacy else KindTable.current

/-- The configuration with some options. The policy is checked before the level. -/
def ofOptions (entryPoints logLevel : Option Datum) (includeProgram legacyTypeNames : φ) :
    Except OptionError (Configuration φ) := do
  let policy ← (entryPoints.map Policy.ofDatum).getD (.ok default.entryPoints)
  let level ← (logLevel.map LogLevel.ofDatum).getD (.ok default.logLevel)
  pure ⟨policy, includeProgram, legacyTypeNames, level⟩

/-- The configuration that a mapping describes, given the value of each of its keys. -/
def ofMapping (value? : String → Option Datum) : Except OptionError (Configuration Bool) :=
  ofOptions (value? "entry_points") (value? "log_level")
    (((value? "include_program").map Datum.isTrue).getD default.includeProgram)
    (((value? "legacy_type_names").map Datum.isTrue).getD default.legacyTypeNames)

/-- The value of a key in a mapping. -/
def valueIn (entries : List (Datum × Datum)) (key : String) : Option Datum :=
  (entries.find? fun e => e.1.sameAtom (.text key)).map Prod.snd

/-- The configuration that a mapping with some entries gives. -/
def ofEntries (entries : List (Datum × Datum)) : Except OptionError (Configuration Bool) :=
  ofMapping (valueIn entries)

/-- The options in which a configuration differs from the default. -/
def toJson (c : Configuration Json) : Json :=
  let flag (name : String) (v : Json) (b : Bool) : List (String × Json) :=
    if (Datum.ofJson v).sameAtom (.bool b) then [] else [(name, v)]
  .object <|
    (if c.entryPoints = default.entryPoints then []
      else [("entry_points", .string c.entryPoints.name)]) ++
    flag "include_program" c.includeProgram default.includeProgram ++
    flag "legacy_type_names" c.legacyTypeNames default.legacyTypeNames ++
    (if c.logLevel = default.logLevel then [] else [("log_level", .string c.logLevel.name)])

/-- The entries of the mapping that a configuration is written as. -/
def entries (c : Configuration Bool) : List (Datum × Datum) :=
  match Datum.ofJson (c.map Json.bool).toJson with
  | .map es => es
  | _ => []

end Configuration

end CadenceEntry
