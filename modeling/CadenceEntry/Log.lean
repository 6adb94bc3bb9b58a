import CadenceEntry.EntryPoint
import CadenceEntry.Kind.Basic
import CadenceEntry.Text.Quoted

/-!
# The log

While a source is worked on, events are reported. An event is of a level and comes from one part of
the program; a log shows the events from some level on, one line each.
-/

set_option autoImplicit false

namespace CadenceEntry

/-- How much an event matters. -/
inductive LogLevel where
  | debug
  | info
  | warning
  | error
  | critical
  deriving DecidableEq, Repr

namespace LogLevel

/-- All levels, the least important first. -/
def all : List LogLevel := [debug, info, warning, error, critical]

/-- The name of a level. -/
def name : LogLevel → String
  | debug => "DEBUG"
  | info => "INFO"
  | warning => "WARNING"
  | error => "ERROR"
  | critical => "CRITICAL"

/-- The rank of a level. -/
def rank : LogLevel → Nat
  | debug => 0
  | info => 1
  | warning => 2
  | error => 3
  | critical => 4

/-- The level with a name. -/
def ofName? (s : String) : Option LogLevel := all.find? fun l => l.name == s

/-- A name belongs to one level only. -/
theorem ofName?_name (l : LogLevel) : ofName? l.name = some l := by cases l <;> rfl

end LogLevel

/-- Something that is worth reporting. -/
inductive Event where
  /-- A source text is no program. -/
  | parseFailed (reason : String)
  /-- A source text is a program. -/
  | parsed (declarations : Nat)
  /-- The last one of several declarations is chosen. -/
  | lastChosen (kind : EntryPointKind) (count : Nat)
  /-- No kind is known for a type. -/
  | unclassified (type : String)
  /-- A program has been classified. -/
  | classified (kind : InteractionKind) (parameters : Nat)
  /-- A program has several entry points. -/
  | classificationFailed (message : String)
  /-- A text is no type. -/
  | typeParseFailed (reason : String)
  /-- The run ends in failure. -/
  | failed (message : String)
  deriving DecidableEq, Repr

namespace Event

/-- The level of an event. -/
def level : Event → LogLevel
  | parseFailed _ | classificationFailed _ | typeParseFailed _ => .info
  | parsed _ | lastChosen _ _ | unclassified _ | classified _ _ => .debug
  | failed _ => .critical

/-- The part of the program that an event comes from. -/
def origin : Event → String
  | parseFailed _ | parsed _ => "cadence_interaction.parsers.cadence"
  | lastChosen _ _ => "cadence_interaction.core.classifier"
  | unclassified _ => "cadence_interaction.core.types"
  | classified _ _ | classificationFailed _ => "cadence_interaction.core.response"
  | typeParseFailed _ | failed _ => "cadence_interaction.cli.commands"

/-- What is said about an event. -/
def message : Event → String
  | parseFailed r => "cadence parse failed: " ++ r
  | parsed n => "parsed " ++ toString n ++ " top-level cadence declarations"
  | lastChosen k n => toString n ++ " " ++ k.plural ++ " declared, using the last one"
  | unclassified t => "no classification for type " ++ Text.quoted t
  | classified k n => "classified as " ++ k.name ++ " with " ++ toString n ++ " parameters"
  | classificationFailed m => "classification failed: " ++ m
  | typeParseFailed r => "type did not parse: " ++ r
  | failed m => m

/-- The line for an event. -/
def line (e : Event) : String := e.level.name ++ " " ++ e.origin ++ ": " ++ e.message ++ "\n"

/-- The text of a log that shows the events from a level on. -/
def log (threshold : LogLevel) (events : List Event) : String :=
  String.join ((events.filter fun e => threshold.rank ≤ e.level.rank).map line)

end Event

end CadenceEntry
