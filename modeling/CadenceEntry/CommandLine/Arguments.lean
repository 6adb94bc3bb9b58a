import CadenceEntry.CommandLine.Usage
import CadenceEntry.Number.IntegerText

/-!
# Arguments

What a command line asks for. The first operand is the command, and all words after it belong to the
command. Words that nothing is made of are collected and refused at the end.
-/

set_option autoImplicit false

namespace CadenceEntry.CommandLine

/-- What the options in front of the command ask for. An empty path is none. -/
structure Settings where
  config : String := ""
  isStrict : Bool := false
  isVerbose : Bool := false
  asText : Bool := false
  indent : Option Int := none
  deriving DecidableEq, Repr

/-- A command with what its own options and operands ask for. -/
inductive Command where
  /-- Classify a program: the one in a file, or, if the path is empty, the one on the standard
  input. -/
  | parse (file : String := "") (noProgram : Bool := false)
  /-- Classify a type. -/
  | classifyType (type : String)
  deriving DecidableEq, Repr

/-- What a command line asks for. -/
structure Arguments where
  settings : Settings := {}
  command : Command := .parse
  deriving DecidableEq, Repr

/-- A fault in the options of what is used. -/
def optionsFor {β : Type} (usage : Usage) (r : Except OptionFault β) : Except Refusal β :=
  r.mapError fun f => .wrong usage (.option f)

/-- What an option in front of the command changes. -/
def Settings.set (s : Settings) : GlobalOption × Option String → Except Refusal Settings
  | (.help, _) => .error (.help .program)
  | (.config, v) => .ok { s with config := v.getD "" }
  | (.strict, _) => .ok { s with isStrict := true }
  | (.verbose, _) => .ok { s with isVerbose := true }
  | (.text, _) => .ok { s with asText := true }
  | (.indent, v) =>
    match Number.ofDecimal (v.getD "").toList with
    | .ok n => .ok { s with indent := some n }
    | .error _ => .error (.wrong .program (.invalidIndent (v.getD "")))

/-- The settings, the words that nothing is made of, and the command with the words after it. -/
def globalWords (s : Settings) (extras : List String) :
    List (Word GlobalOption) →
      Except Refusal (Settings × List String × Option (String × List String))
  | [] => .ok (s, extras, none)
  | .unknown t :: ws => globalWords s (extras ++ [t]) ws
  | .operand t :: ws => .ok (s, extras, some (t, ws.map Word.text))
  | [.separator] => .ok (s, extras ++ ["--"], none)
  | .separator :: ws => .ok (s, extras, some ("--", ws.map Word.text))
  | .option _ c :: ws => do
    let (options, rest, usesNext) ← optionsFor .program (optionsOf globalSpecs c ws)
    let s ← options.foldlM Settings.set s
    if usesNext then
      match ws with
      | _ :: ws => globalWords s extras ws
      | [] => globalWords s extras []
    else globalWords s (extras ++ rest.toList) ws

/-- What the words after a command change in `a`, the words that nothing is made of, and the
operand, if one is wanted. A separator in front of the operand or right after it counts as part of
it. -/
def commandWords {α β : Type} (usage : Usage) (specs : List (OptionSpec α))
    (set : β → α × Option String → Except Refusal β) (a : β) (extras : List String)
    (wantsOperand : Bool) (operand : Option String) :
    List (Word α) → Except Refusal (β × List String × Option String)
  | [] => .ok (a, extras, operand)
  | .unknown t :: ws => commandWords usage specs set a (extras ++ [t]) wantsOperand operand ws
  | .separator :: .operand t :: ws =>
    if wantsOperand then commandWords usage specs set a extras false (some t) ws
    else commandWords usage specs set a (extras ++ ["--", t]) false operand ws
  | .separator :: ws => commandWords usage specs set a (extras ++ ["--"]) wantsOperand operand ws
  | .operand t :: .separator :: ws =>
    if wantsOperand then commandWords usage specs set a extras false (some t) ws
    else commandWords usage specs set a (extras ++ [t, "--"]) false operand ws
  | .operand t :: ws =>
    if wantsOperand then commandWords usage specs set a extras false (some t) ws
    else commandWords usage specs set a (extras ++ [t]) false operand ws
  | .option _ c :: ws => do
    let (options, rest, usesNext) ← optionsFor usage (optionsOf specs c ws)
    let a ← options.foldlM set a
    if usesNext then
      match ws with
      | _ :: ws => commandWords usage specs set a extras wantsOperand operand ws
      | [] => .ok (a, extras, operand)
    else commandWords usage specs set a (extras ++ rest.toList) wantsOperand operand ws

/-- What an option of the command that classifies a program changes: the path of the file, and
whether the program is left out. -/
def setParse (a : String × Bool) : ParseOption × Option String → Except Refusal (String × Bool)
  | (.help, _) => .error (.help (.command .parse))
  | (.file, v) => .ok (v.getD "", a.2)
  | (.noProgram, _) => .ok (a.1, true)

/-- The only option of the command that classifies a type asks for help. -/
def setType (_ : Unit) : TypeOption × Option String → Except Refusal Unit
  | (.help, _) => .error (.help (.command .classifyType))

/-- A command with the words after it, and the words that nothing is made of. -/
def commandOf (name : String) (texts : List String) : Except Refusal (Command × List String) :=
  match commandNames.lookup name with
  | none => .error (.wrong .program (.invalidCommand name))
  | some .parse => do
    let usage : Usage := .command .parse
    let ws ← optionsFor usage (wordsOf parseSpecs texts)
    let ((file, noProgram), extras, _) ←
      commandWords usage parseSpecs setParse ("", false) [] false none ws
    return (.parse file noProgram, extras)
  | some .classifyType => do
    let usage : Usage := .command .classifyType
    let ws ← optionsFor usage (wordsOf typeSpecs texts)
    let (_, extras, type?) ← commandWords usage typeSpecs setType () [] true none ws
    match type? with
    | some type => return (.classifyType type, extras)
    | none => throw (.wrong usage .missingType)

/-- What a command line asks for, or why it cannot be done. Without a command a program is
classified. -/
def argumentsOf (texts : List String) : Except Refusal Arguments := do
  let ws ← optionsFor .program (wordsOf globalSpecs texts)
  let (settings, extras, command?) ← globalWords {} [] ws
  let (command, more) ←
    match command? with
    | none => pure (.parse, [])
    | some (name, texts) => commandOf name texts
  match extras ++ more with
  | [] => return { settings, command }
  | extras => throw (.wrong .program (.unrecognized extras))

end CadenceEntry.CommandLine
