import CadenceEntry.CommandLine.Run
import CadenceEntry.Proofs.Program.Concatenation
import CadenceEntry.Proofs.Source.LineFeed
import CadenceEntry.Proofs.Source.WholeLine
import CadenceEntry.Yaml.Loader

/-!
# A source line on the standard input and in a file

A program of one line can be given on the standard input, where its line must be complete and more
can come behind it, or in a file, with or without a line feed at the end. The run is the same:
`run_of_line`. The line is read the same from all three but for the line feed, and a line feed at
the end of a text does not change what the text means or why it is refused.
-/

set_option autoImplicit false

namespace CadenceEntry

/-- A line feed at the end does not change a program, nor why a text is none. -/
theorem Program.parse_lineFeed (text : String) : parse (text ++ "\n") = parse text := by
  have htext : (text ++ "\n").toList = text.toList ++ ['\n'] := by simp
  unfold parse
  rw [htext, Source.derive_lineFeed]
  cases hderive : Source.derive .program text.toList with
  | error e => rfl
  | ok d =>
    show d.evaluate (text.toList ++ ['\n']) = d.evaluate text.toList
    unfold Grammar.Derivation.evaluate
    cases d.invalidInteger? with
    | some w => rfl
    | none => exact congrArg Except.ok (value_before hderive ['\n'])

namespace CommandLine

/-- A text with a line feed at the end is classified as the text without it. -/
theorem classifySource_lineFeed (s : Settings) (c : Configuration Bool) (text : String) :
    classifySource s c (text ++ "\n") = classifySource s c text := by
  have hparse := Program.parse_lineFeed text
  unfold classifySource Response.ofSource Event.ofSource
  rw [hparse]

/-- A run with the settings `s` finds the same configuration and the same standard output. -/
structure SameAround (s : Settings) (env env' : Environment) : Prop where
  configuration : configurationOf env' s = configurationOf env s
  output : env'.output = env.output

/-- Only the configuration file matters to the configuration. -/
theorem SameAround.of_file {s : Settings} {env env' : Environment}
    (hfile : s.config = "" ∨
      env'.file (Path.normalize s.config) = env.file (Path.normalize s.config))
    (hloader : env'.loader = env.loader) (houtput : env'.output = env.output) :
    SameAround s env env' := by
  refine ⟨?_, houtput⟩
  unfold configurationOf
  rcases hfile with hconfig | hfile
  · rw [hconfig]
    rfl
  · dsimp only
    rw [hfile, hloader]

/-- Two runs are the same if what they execute is. -/
theorem SameAround.run_eq {s : Settings} {env env' : Environment} (h : SameAround s env env')
    {words words' : List String} {command command' : Command}
    (hwords : argumentsOf words = .ok ⟨s, command⟩)
    (hwords' : argumentsOf words' = .ok ⟨s, command'⟩)
    (hexecute : ∀ c, execute env' s c command' = execute env s c command) :
    run env' words' = run env words := by
  unfold run perform
  rw [hwords, hwords']
  dsimp only
  rw [h.configuration]
  cases configurationOf env s with
  | error e => rfl
  | ok c =>
    dsimp only
    rw [hexecute]
    cases execute env s c command with
    | error e => rfl
    | ok r =>
      obtain ⟨written, events⟩ := r
      cases written with
      | error fault => rfl
      | ok document =>
        dsimp only
        unfold deliver
        rw [h.output]

/-- A line on the standard input is classified as a file that holds the line, and as a file that
holds the line and a line feed, whatever comes behind the line on the standard input. The three runs
have the same status, the same standard output and the same log. -/
theorem run_of_line {s : Settings} {noProgram : Bool} {path line rest : String}
    {words words' : List String} {env env₁ env₂ : Environment}
    (hwords : argumentsOf words = .ok ⟨s, .parse "" noProgram⟩)
    (hwords' : argumentsOf words' = .ok ⟨s, .parse path noProgram⟩) (hpath : path ≠ "")
    (hline : ∀ c ∈ line.toList, Text.StaysInLine c) (hend : line.toList.getLast? ≠ some '\x00')
    (hinput : env.input = .ok (line ++ "\n" ++ rest).toUTF8.toList)
    (h₁ : SameAround s env env₁) (h₂ : SameAround s env env₂)
    (hfile₁ : env₁.file (Path.normalize path) = .ok line.toUTF8.toList)
    (hfile₂ : env₂.file (Path.normalize path) = .ok (line ++ "\n").toUTF8.toList) :
    run env₁ words' = run env words ∧ run env₂ words' = run env words := by
  have hsource : sourceText env "" = .ok line := by
    show Source.ofInput env.input = .ok line
    rw [hinput]
    exact Source.ofInput_of_line hline hend rest
  have hfromFile : ∀ env' : Environment, sourceText env' path =
      Source.ofFile (Path.normalize path) (env'.file (Path.normalize path)) := by
    intro env'
    unfold sourceText
    rw [if_neg]
    rw [String.isEmpty_iff]
    exact hpath
  constructor
  · refine h₁.run_eq hwords hwords' fun c => ?_
    rw [execute, execute, hsource, hfromFile, hfile₁, Source.ofFile_of_line hline]
  · refine h₂.run_eq hwords hwords' fun c => ?_
    rw [execute, execute, hsource, hfromFile, hfile₂, Source.ofFile_of_line_lineFeed hline]
    exact congrArg Except.ok (classifySource_lineFeed s _ line)

/-- A script with an open string on the standard input, with more text behind it, and what a file
holds. -/
def openStringEnvironment (contents : String) : Environment where
  file := fun path =>
    if path = "c.yaml" then .ok "entry_points: strict\n".toUTF8.toList
    else if path = "x.cdc" then .ok contents.toUTF8.toList
    else .error .missing
  loader := Yaml.loader
  input := .ok ("fun main() \x7b \"é" ++ "\n" ++ "\" \x7d\n").toUTF8.toList

/-- The open string ends with its line, in each of the three runs. -/
theorem run_of_line_openString :
    run (openStringEnvironment "fun main() \x7b \"é")
        ["-c", "c.yaml", "-t", "parse", "-f", "x.cdc"] =
        run (openStringEnvironment "") ["-c", "c.yaml", "-t"] ∧
      run (openStringEnvironment "fun main() \x7b \"é\n")
          ["-c", "c.yaml", "-t", "parse", "-f", "x.cdc"] =
        run (openStringEnvironment "") ["-c", "c.yaml", "-t"] := by
  have hwords : argumentsOf ["-c", "c.yaml", "-t"] =
      .ok ⟨{ config := "c.yaml", asText := true }, .parse "" false⟩ := by
    decide +kernel
  have hwords' : argumentsOf ["-c", "c.yaml", "-t", "parse", "-f", "x.cdc"] =
      .ok ⟨{ config := "c.yaml", asText := true }, .parse "x.cdc" false⟩ := by
    decide +kernel
  have hline : ∀ c ∈ "fun main() \x7b \"é".toList, Text.StaysInLine c := by
    have hall : ("fun main() \x7b \"é".toList.all fun c => c != '\n' && c != '\r') = true := by
      decide +kernel
    intro c hc
    simpa [Text.StaysInLine] using List.all_eq_true.1 hall c hc
  have haround : ∀ contents, SameAround { config := "c.yaml", asText := true }
      (openStringEnvironment "") (openStringEnvironment contents) := by
    intro contents
    exact .of_file (.inr rfl) rfl rfl
  exact run_of_line hwords hwords' (by decide) hline (by decide +kernel) rfl (haround _) (haround _)
    rfl rfl

end CommandLine

end CadenceEntry
