import CadenceEntry.CommandLine.Option
import CadenceEntry.Text.Quoted

/-!
# Usage

What the program can be asked for, and what it says when it is asked for something else: how it is
used and what is wrong. A part of the command line that belongs to a command is explained by the
usage of the command.
-/

set_option autoImplicit false

namespace CadenceEntry.CommandLine

/-- An option in front of the command. -/
inductive GlobalOption where
  | help
  | config
  | strict
  | verbose
  | text
  | indent
  deriving DecidableEq, Repr

/-- An option of the command that classifies a program. -/
inductive ParseOption where
  | help
  | file
  | noProgram
  deriving DecidableEq, Repr

/-- An option of the command that classifies a type. -/
inductive TypeOption where
  | help
  deriving DecidableEq, Repr

/-- The options in front of the command. -/
def globalSpecs : List (OptionSpec GlobalOption) :=
  [⟨.help, ["-h", "--help"], false⟩, ⟨.config, ["--config", "-c"], true⟩,
    ⟨.strict, ["--strict"], false⟩, ⟨.verbose, ["--verbose", "-v"], false⟩,
    ⟨.text, ["--text", "-t"], false⟩, ⟨.indent, ["--indent"], true⟩]

/-- The options of the command that classifies a program. -/
def parseSpecs : List (OptionSpec ParseOption) :=
  [⟨.help, ["-h", "--help"], false⟩, ⟨.file, ["--file", "-f"], true⟩,
    ⟨.noProgram, ["--no-program"], false⟩]

/-- The options of the command that classifies a type. -/
def typeSpecs : List (OptionSpec TypeOption) := [⟨.help, ["-h", "--help"], false⟩]

/-- A command. -/
inductive CommandKind where
  | parse
  | classifyType
  deriving DecidableEq, Repr

/-- The names of the commands. -/
def commandNames : List (String × CommandKind) :=
  [("parse", .parse), ("get-parsed-interaction", .parse), ("classify-type", .classifyType)]

/-- What is used: the whole program, or one command. -/
inductive Usage where
  | program
  | command (kind : CommandKind)
  deriving DecidableEq, Repr

namespace Usage

/-- What is used, by its name. -/
def name : Usage → String
  | program => "cadence-interaction"
  | command .parse => "cadence-interaction parse"
  | command .classifyType => "cadence-interaction classify-type"

/-- How it is used. -/
def text : Usage → String
  | program =>
    "usage: cadence-interaction [-h] [--config CONFIG] [--strict] [--verbose]\n" ++
      "                           [--text] [--indent INDENT]\n" ++
      "                           \x7bparse,get-parsed-interaction,classify-type\x7d ...\n"
  | command .parse => "usage: cadence-interaction parse [-h] [--file FILE] [--no-program]\n"
  | command .classifyType => "usage: cadence-interaction classify-type [-h] type\n"

end Usage

/-- What is wrong with a command line. -/
inductive UsageFault where
  | option (fault : OptionFault)
  | invalidIndent (text : String)
  | invalidCommand (text : String)
  | missingType
  | unrecognized (texts : List String)
  deriving DecidableEq, Repr

/-- What is said about a fault. -/
def OptionFault.message : OptionFault → String
  | ambiguous word names =>
    "ambiguous option: " ++ word ++ " could match " ++ ", ".intercalate names
  | unusedValue label value =>
    "argument " ++ label ++ ": ignored explicit argument " ++ Text.quoted value
  | missingValue label => "argument " ++ label ++ ": expected one argument"

/-- What is said about a fault. -/
def UsageFault.message : UsageFault → String
  | option f => f.message
  | invalidIndent s => "argument --indent: invalid int value: " ++ Text.quoted s
  | invalidCommand s =>
    "argument command: invalid choice: " ++ Text.quoted s ++ " (choose from " ++
      ", ".intercalate (commandNames.map fun c => Text.quoted c.1) ++ ")"
  | missingType => "the following arguments are required: type"
  | unrecognized ss => "unrecognized arguments: " ++ " ".intercalate ss

/-- Why a command line asks for nothing that can be done. -/
inductive Refusal where
  /-- It asks for help. -/
  | help (usage : Usage)
  | wrong (usage : Usage) (fault : UsageFault)
  deriving DecidableEq, Repr

end CadenceEntry.CommandLine
