import CadenceEntry.CommandLine.Arguments
import CadenceEntry.Configuration.File
import CadenceEntry.Json.Writer
import CadenceEntry.Response
import CadenceEntry.Source.Input

/-!
# A run of the program

A run is a function of the command line and of what is around the program: the files, the loader for
configuration files, the standard input, and what becomes of the bytes that are written to the
standard output. It ends with an exit status, the bytes on the standard output and the log. The
status is 0 if there is a document on the standard output, also if the document holds an error; it
is 1 if something could not be read or written, and 2 if the command line is wrong. The status is
120 if the standard output still does not take the rest of the document when the program ends.
-/

set_option autoImplicit false

namespace CadenceEntry.CommandLine

/-- What becomes of bytes that are written to the standard output. -/
inductive Delivery where
  /-- All of them arrive. -/
  | complete
  /-- It fails for a reason, and so many of them arrive; `persists` says whether it fails once more
  when the program ends. -/
  | broken (reason : String) (arrived : Nat) (persists : Bool)
  /-- There is no standard output. -/
  | absent
  deriving DecidableEq, Repr

/-- What is around the program. -/
structure Environment where
  /-- The bytes of the file at a path, or why there are none. -/
  file : String → Except FileError (List UInt8)
  /-- The loader for configuration files. -/
  loader : Loader
  /-- The bytes on the standard input, or why they cannot be read. -/
  input : Except String (List UInt8)
  /-- What becomes of bytes that are written to the standard output. -/
  output : List UInt8 → Delivery := fun _ => .complete

/-- How a run ends. -/
structure Outcome where
  status : Nat
  output : List UInt8 := []
  log : String := ""
  deriving DecidableEq, Repr

/-- What ends a run at once, without an outcome. -/
inductive Escape where
  /-- There is no configuration, and no message for that. -/
  | configuration (e : ConfigurationError)
  /-- The answer cannot be written. -/
  | writing (fault : WritingFault)
  /-- There is no standard output. -/
  | noOutput
  deriving DecidableEq, Repr

/-- The bytes of a text. -/
def bytesOf (text : String) : List UInt8 := text.toUTF8.toList

/-- The lines of a document, in the form that is asked for. -/
def Settings.document (s : Settings) (asText : Option String) (asJson : Json) :
    Except WritingFault String :=
  let document :=
    if s.asText then asText.elim (.error .integerTooLong) .ok else asJson.write s.indent
  document.map (· ++ "\n")

/-- The document for a type and what is reported. -/
def classifyType (s : Settings) (c : Configuration Bool) (text : String) :
    Except WritingFault String × List Event :=
  match TypeExpr.parse text with
  | .error e =>
    (s.document (some ("Error: " ++ e.message))
        (.object [("type", .null), ("error", .string e.message)]),
      [.typeParseFailed e.reason])
  | .ok t =>
    let d := Descriptor.ofType c.kindTable t
    (s.document ((d.outline? 0).map ("\n".intercalate ·))
        (.object [("type", (d.map Json.string).toJson), ("error", .string "")]),
      (Descriptor.unclassified c.kindTable t).map .unclassified)

/-- The document for a source text and what is reported. -/
def classifySource (s : Settings) (c : Configuration Bool) (source : String) :
    Except WritingFault String × List Event :=
  let r := Response.ofSource c source
  (s.document r.text? (r.map Json.string).toJson, Event.ofSource c source)

/-- The source text that a command asks for. -/
def sourceText (env : Environment) (path : String) : Except InputError String :=
  if path.isEmpty then Source.ofInput env.input
  else Source.ofFile (Path.normalize path) (env.file (Path.normalize path))

/-- The document that a command asks for and what is reported. -/
def execute (env : Environment) (s : Settings) (c : Configuration Bool) :
    Command → Except InputError (Except WritingFault String × List Event)
  | .classifyType type => .ok (classifyType s c type)
  | .parse path noProgram =>
    let c := if noProgram then { c with includeProgram := false } else c
    (sourceText env path).map (classifySource s c)

/-- The configuration that the settings ask for. -/
def configurationOf (env : Environment) (s : Settings) :
    Except ConfigurationError (Configuration Bool) := do
  let c ←
    if s.config.isEmpty then pure Configuration.default
    else
      let path := Path.normalize s.config
      Configuration.ofFile env.loader path (env.file path)
  return if s.isStrict then { c with entryPoints := .strict } else c

/-- How a run ends that reports some events and then writes a document. -/
def deliver (env : Environment) (threshold : LogLevel) (document : String) (events : List Event) :
    Except Escape Outcome :=
  let bytes := bytesOf document
  match env.output bytes with
  | .complete => .ok { status := 0, output := bytes, log := Event.log threshold events }
  | .broken reason arrived persists =>
    .ok
      { status := if persists then 120 else 1
        output := bytes.take arrived
        log := Event.log threshold (events ++ [.failed ("writing response failed: " ++ reason)]) }
  | .absent => .error .noOutput

/-- How a run ends that shows how the program is used. The text goes to the log if there is no
standard output, and it is not noticed before the program ends if it cannot be written. -/
def help (env : Environment) (text : String) : Outcome :=
  let bytes := bytesOf text
  match env.output bytes with
  | .complete => { status := 0, output := bytes }
  | .broken _ arrived _ => { status := 120, output := bytes.take arrived }
  | .absent => { status := 0, log := text }

/-- How a run ends whose command line asks for something that can be done. -/
def perform (env : Environment) (a : Arguments) : Except Escape Outcome :=
  match configurationOf env a.settings with
  | .error e =>
    match e.message? with
    | none => .error (.configuration e)
    | some message => .ok { status := 1, log := Event.log .warning [.failed message] }
  | .ok c =>
    let threshold := if a.settings.isVerbose then .debug else c.logLevel
    match execute env a.settings c a.command with
    | .error e => .ok { status := 1, log := Event.log threshold [.failed e.message] }
    | .ok (.error fault, _) => .error (.writing fault)
    | .ok (.ok document, events) => deliver env threshold document events

/-- How a run ends. A configuration file that cannot be read, although it is there, or that fails to
be loaded in a way that is not reported, an answer that cannot be written, and a standard output
that is missing end it without an outcome. -/
def run (env : Environment) (words : List String) : Except Escape Outcome :=
  match argumentsOf words with
  | .ok a => perform env a
  | .error (.help usage) => .ok (help env usage.text)
  | .error (.wrong usage fault) =>
    .ok
      { status := 2,
        log := usage.text ++ usage.name ++ ": error: " ++ fault.message ++ "\n" }

/-- The exit status of the program and the bytes on its standard output. A run without an outcome
writes nothing and ends with the status 1. -/
def ending (env : Environment) (words : List String) : Nat × List UInt8 :=
  match run env words with
  | .ok outcome => (outcome.status, outcome.output)
  | .error _ => (1, [])

/-- The files that a run may read. -/
def filesOf (words : List String) : List String :=
  match argumentsOf words with
  | .error _ => []
  | .ok a =>
    let paths :=
      a.settings.config ::
        match a.command with
        | .parse file _ => [file]
        | .classifyType _ => []
    (paths.filter fun p => !p.isEmpty).map Path.normalize

/-- Whether a run may read the standard input. -/
def readsInput (words : List String) : Bool :=
  match argumentsOf words with
  | .ok { command := .parse file _, .. } => file.isEmpty
  | _ => false

end CadenceEntry.CommandLine
