import CadenceEntry.CommandLine.Run
import CadenceEntry.Proofs.Json.Documents
import CadenceEntry.Proofs.Json.Written
import CadenceEntry.Proofs.Text.Encoding

/-!
# What a run writes

A run that is not asked for text writes one document and a line feed. The document spells what the
command is answered with, and every reader that follows the grammar of JSON gets the answer back,
whatever the indent is; it is written in ASCII, and on one line if there is no indent. Nothing is
written, and the run has no outcome, if the indent is no number of the machine or if an integer of
the answer is longer than a decimal text may be: `output_of_run`.
-/

set_option autoImplicit false

namespace CadenceEntry.CommandLine

/-- The answer to a type. -/
def typeAnswer (c : Configuration Bool) (text : String) : Json :=
  match TypeExpr.parse text with
  | .error e => .object [("type", .null), ("error", .string e.message)]
  | .ok t => .object
      [("type", ((Descriptor.ofType c.kindTable t).map Json.string).toJson), ("error", .string "")]

/-- The answer to a source text. -/
def sourceAnswer (c : Configuration Bool) (source : String) : Json :=
  ((Response.ofSource c source).map Json.string).toJson

/-- The answer to a command, unless there is no source text. -/
def answer (env : Environment) (c : Configuration Bool) : Command → Except InputError Json
  | .classifyType text => .ok (typeAnswer c text)
  | .parse path noProgram =>
    let c := if noProgram then { c with includeProgram := false } else c
    (sourceText env path).map (sourceAnswer c)

/-- The answer to a type as a text. -/
def typeText (c : Configuration Bool) (text : String) : Option String :=
  match TypeExpr.parse text with
  | .error e => some ("Error: " ++ e.message)
  | .ok t => ((Descriptor.ofType c.kindTable t).outline? 0).map ("\n".intercalate ·)

/-- The answer to a command as a text, unless there is no source text. -/
def textAnswer (env : Environment) (c : Configuration Bool) :
    Command → Except InputError (Option String)
  | .classifyType text => .ok (typeText c text)
  | .parse path noProgram =>
    let c := if noProgram then { c with includeProgram := false } else c
    (sourceText env path).map fun source => (Response.ofSource c source).text?

/-- Where something is made of a value, there is the value. -/
theorem exists_of_map_eq_ok {ε α β : Type} {x : Except ε α} {f : α → β} {b : β}
    (h : x.map f = .ok b) : ∃ a, x = .ok a ∧ f a = b := by
  cases x with
  | error e => cases h
  | ok a =>
    cases h
    exact ⟨a, rfl, rfl⟩

/-- An answer is a plain object. -/
theorem exists_object_of_answer {env : Environment} {c : Configuration Bool} {command : Command}
    {v : Json} (h : answer env c command = .ok v) : ∃ ms, v = .object ms ∧ v.Plain := by
  cases command with
  | classifyType text =>
    cases h
    unfold typeAnswer
    cases TypeExpr.parse text <;> exact ⟨_, rfl, by simp⟩
  | parse path noProgram =>
    obtain ⟨source, -, rfl⟩ := exists_of_map_eq_ok h
    exact ⟨_, rfl, Response.plain_toJson _⟩

/-- The document for a type shows the answer. -/
theorem classifyType_document (s : Settings) (c : Configuration Bool) (text : String) :
    (classifyType s c text).1 = s.document (typeText c text) (typeAnswer c text) := by
  unfold classifyType typeText typeAnswer
  cases TypeExpr.parse text <;> rfl

/-- A command that is answered writes its answer in the form that is asked for. -/
theorem execute_eq_document {env : Environment} {c : Configuration Bool} {command : Command}
    {v : Json} (h : answer env c command = .ok v) (s : Settings) :
    ∃ asText events, textAnswer env c command = .ok asText ∧
      execute env s c command = .ok (s.document asText v, events) := by
  cases command with
  | classifyType text =>
    obtain rfl := Except.ok.inj h
    refine ⟨_, (classifyType s c text).2, rfl, ?_⟩
    rw [← classifyType_document]
    rfl
  | parse path noProgram =>
    obtain ⟨source, hsource, rfl⟩ := exists_of_map_eq_ok h
    rw [textAnswer, execute, hsource]
    exact ⟨_, _, rfl, rfl⟩

/-- A run writes its answer in the form that is asked for. -/
theorem run_of_answer {env : Environment} {words : List String} {a : Arguments}
    {c : Configuration Bool} {v : Json} (harguments : argumentsOf words = .ok a)
    (hconfiguration : configurationOf env a.settings = .ok c)
    (hanswer : answer env c a.command = .ok v) :
    ∃ asText threshold events, textAnswer env c a.command = .ok asText ∧
      run env words = match a.settings.document asText v with
        | .error fault => .error (.writing fault)
        | .ok document => deliver env threshold document events := by
  obtain ⟨asText, events, htext, hexecute⟩ := execute_eq_document hanswer a.settings
  refine ⟨asText, if a.settings.isVerbose then .debug else c.logLevel, events, htext, ?_⟩
  unfold run perform
  simp only [harguments, hconfiguration, hexecute]
  cases a.settings.document asText v <;> rfl

/-- A document that arrives is on the standard output. -/
theorem deliver_of_complete {env : Environment} {document : String}
    (h : env.output (bytesOf document) = .complete) (threshold : LogLevel) (events : List Event) :
    deliver env threshold document events =
      .ok { status := 0, output := bytesOf document, log := Event.log threshold events } := by
  unfold deliver
  dsimp only
  rw [h]

/-- The bytes of a text tell the text. -/
theorem bytesOf_inj {s t : String} (h : bytesOf s = bytesOf t) : s = t := by
  unfold bytesOf at h
  rw [Text.Utf8.toList_toUTF8, Text.Utf8.toList_toUTF8] at h
  have hdecode := congrArg Text.Utf8.decode h
  rw [Text.Utf8.decode_encode, Text.Utf8.decode_encode] at hdecode
  exact String.toList_inj.1 (Except.ok.inj hdecode)

/-- How a run ends whose answer is wanted as a document in JSON. -/
inductive Writes (indent : Option Int) (v : Json) : Except Escape Outcome → Prop
  | document {document log : String} (hindent : Json.IndentInRange indent)
      (hintegers : v.IntegersFit) (h : Json.Faithful indent v document) :
      Writes indent v (.ok { status := 0, output := bytesOf (document ++ "\n"), log := log })
  | indentOutOfRange (h : ¬ Json.IndentInRange indent) :
      Writes indent v (.error (.writing .indentOutOfRange))
  | integerTooLong (hindent : Json.IndentInRange indent) (h : ¬ v.IntegersFit) :
      Writes indent v (.error (.writing .integerTooLong))

/-- A run with a standard output writes the answer and a line feed, if the answer can be written. -/
theorem writes_of_answer {env : Environment} {words : List String} {a : Arguments}
    {c : Configuration Bool} {v : Json} (harguments : argumentsOf words = .ok a)
    (hconfiguration : configurationOf env a.settings = .ok c)
    (hanswer : answer env c a.command = .ok v) (htext : a.settings.asText = false)
    (houtput : ∀ bytes, env.output bytes = .complete) :
    Writes a.settings.indent v (run env words) := by
  obtain ⟨asText, threshold, events, -, hrun⟩ :=
    run_of_answer harguments hconfiguration hanswer
  obtain ⟨ms, rfl, hplain⟩ := exists_object_of_answer hanswer
  have hdocument : a.settings.document asText (.object ms) =
      (Json.write a.settings.indent (.object ms)).map (· ++ "\n") := by
    unfold Settings.document
    rw [htext]
    rfl
  have hwritten := hplain.written_write a.settings.indent
  rw [hrun, hdocument]
  cases hwrite : Json.write a.settings.indent (.object ms) with
  | error fault =>
    rw [hwrite] at hwritten
    cases hwritten with
    | indentOutOfRange h => exact .indentOutOfRange h
    | integerTooLong hindent h => exact .integerTooLong hindent h
  | ok document =>
    rw [hwrite] at hwritten
    cases hwritten with
    | document hindent hintegers h =>
      dsimp only [Except.map]
      rw [deliver_of_complete (houtput _)]
      exact .document hindent hintegers h

/-- A run with an outcome has written a document. -/
theorem Writes.exists_document {indent : Option Int} {v : Json} {outcome : Outcome}
    (h : Writes indent v (.ok outcome)) :
    ∃ document log, outcome = { status := 0, output := bytesOf (document ++ "\n"), log := log } ∧
      Json.IndentInRange indent ∧ Json.Faithful indent v document := by
  cases h with
  | document hindent hintegers h => exact ⟨_, _, rfl, hindent, h⟩

/-- The text that a run has written is a document. -/
theorem Writes.faithful {indent : Option Int} {v : Json} {document log : String}
    (h : Writes indent v (.ok { status := 0, output := bytesOf (document ++ "\n"), log := log })) :
    Json.Faithful indent v document := by
  obtain ⟨document', log', houtcome, -, hfaithful⟩ := h.exists_document
  have hbytes := bytesOf_inj (congrArg Outcome.output houtcome)
  rwa [(String.append_left_inj _).1 hbytes]

/-- A run writes a document if the indent and the integers are as they should be. -/
theorem Writes.exists_ok {indent : Option Int} {v : Json} {r : Except Escape Outcome}
    (h : Writes indent v r) (hindent : Json.IndentInRange indent) (hintegers : v.IntegersFit) :
    ∃ document log, r = .ok { status := 0, output := bytesOf (document ++ "\n"), log := log } ∧
      Json.Faithful indent v document := by
  cases h with
  | document _ _ h => exact ⟨_, _, rfl, h⟩
  | indentOutOfRange h => exact absurd hindent h
  | integerTooLong _ h => exact absurd hintegers h

/-- A run writes one document for its answer, and a line feed, exactly if the indent is a number of
the machine and the integers of the answer fit into decimal texts; else it ends without an outcome.
So does a run whose command line differs only in the indent, and the documents of two such runs are
read alike. -/
theorem output_of_run {env : Environment} {words : List String} {a : Arguments}
    {c : Configuration Bool} {v : Json} (harguments : argumentsOf words = .ok a)
    (hconfiguration : configurationOf env a.settings = .ok c)
    (hanswer : answer env c a.command = .ok v) (htext : a.settings.asText = false)
    (houtput : ∀ bytes, env.output bytes = .complete) :
    Writes a.settings.indent v (run env words) ∧
      ∀ words' indent,
        argumentsOf words' = .ok { a with settings := { a.settings with indent := indent } } →
        Writes indent v (run env words') ∧
          ∀ document log document' log',
            run env words =
              .ok { status := 0, output := bytesOf (document ++ "\n"), log := log } →
            run env words' =
              .ok { status := 0, output := bytesOf (document' ++ "\n"), log := log' } →
            ∀ read, Json.Reads read → read document' = read document := by
  have hwrites := writes_of_answer harguments hconfiguration hanswer htext houtput
  refine ⟨hwrites, ?_⟩
  intro words' indent harguments'
  have hwrites' : Writes indent v (run env words') :=
    writes_of_answer harguments' hconfiguration hanswer htext houtput
  refine ⟨hwrites', ?_⟩
  intro document log document' log' hrun hrun' read hread
  rw [hrun] at hwrites
  rw [hrun'] at hwrites'
  rw [hwrites'.faithful.read_eq read hread, hwrites.faithful.read_eq read hread]

/-- A loader for files that hold nothing. -/
def emptyLoader : Loader where
  more _ := 8191
  early? _ := none
  final _ := .ok (.other false)

/-- The line on the standard input is a script with a string in its body. -/
def scriptEnvironment : Environment where
  file := fun _ => .error .missing
  loader := emptyLoader
  input := .ok "fun main() \x7b \"é\" \x7d\n".toUTF8.toList

/-- The output for a script, with lines that are indented by two and on one line. -/
theorem output_of_run_script :
    ∃ document log document' log',
      run scriptEnvironment ["--indent", "2"] =
        .ok { status := 0, output := bytesOf (document ++ "\n"), log := log } ∧
      Json.Faithful (some 2) (sourceAnswer Configuration.default "fun main() \x7b \"é\" \x7d")
        document ∧
      run scriptEnvironment [] =
        .ok { status := 0, output := bytesOf (document' ++ "\n"), log := log' } ∧
      Json.read? document' = Json.read? document := by
  have harguments : argumentsOf ["--indent", "2"] =
      .ok { settings := { indent := some 2 }, command := .parse } := by
    decide +kernel
  have harguments' : argumentsOf [] = .ok { settings := {}, command := .parse } := by
    decide +kernel
  have hsource : sourceText scriptEnvironment "" = .ok "fun main() \x7b \"é\" \x7d" := by
    decide +kernel
  have hintegers : (sourceAnswer Configuration.default
      "fun main() \x7b \"é\" \x7d").IntegersFit := by
    rw [← Json.all_hasDecimal_iff]
    decide +kernel
  obtain ⟨hwrites, halike⟩ :=
    output_of_run harguments rfl
      (congrArg (Except.map (sourceAnswer Configuration.default)) hsource) rfl fun _ => rfl
  obtain ⟨hwrites', hread⟩ := halike [] none harguments'
  obtain ⟨document, log, hrun, hfaithful⟩ :=
    hwrites.exists_ok (by simp [Json.IndentInRange]) hintegers
  obtain ⟨document', log', hrun', -⟩ := hwrites'.exists_ok (by simp [Json.IndentInRange]) hintegers
  exact ⟨document, log, document', log', hrun, hfaithful, hrun',
    hread _ _ _ _ hrun hrun' _ Json.reads_read?⟩

/-- Not every answer is written: a negative indent that is no number of the machine, which gives
lines without spaces like any other, is refused. -/
theorem not_written_of_hugeIndent :
    ¬ ∀ (env : Environment) (words : List String) (a : Arguments) (c : Configuration Bool)
      (v : Json), argumentsOf words = .ok a → configurationOf env a.settings = .ok c →
      answer env c a.command = .ok v → a.settings.asText = false →
      (∀ bytes, env.output bytes = .complete) →
      ∃ document log,
        run env words = .ok { status := 0, output := bytesOf (document ++ "\n"), log := log } := by
  intro h
  have harguments : argumentsOf ["--indent", "-100000000000000000000", "classify-type", "Int"] =
      .ok { settings := { indent := some (-100000000000000000000) },
            command := .classifyType "Int" } := by
    decide +kernel
  have hrange : ¬ Json.IndentInRange (some (-100000000000000000000)) := by
    simp [Json.IndentInRange]
  obtain ⟨document, log, hrun⟩ :=
    h scriptEnvironment _ _ Configuration.default _ harguments rfl rfl rfl fun _ => rfl
  have hconfiguration : configurationOf scriptEnvironment
      { indent := some (-100000000000000000000) } = .ok Configuration.default := rfl
  have hwrites := writes_of_answer harguments hconfiguration rfl rfl fun _ => rfl
  rw [hrun] at hwrites
  obtain ⟨-, -, -, hindent, -⟩ := hwrites.exists_document
  exact hrange hindent

end CadenceEntry.CommandLine
