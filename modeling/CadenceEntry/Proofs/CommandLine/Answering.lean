import CadenceEntry.Proofs.CommandLine.Output
import CadenceEntry.Proofs.Response.OneResponse
import CadenceEntry.Proofs.Source.FirstLine

/-!
# Runs that answer and runs that fail

A run ends with the status 0 and one document and a line feed on the standard output, with the
status 1 or 2 and nothing there, or, if the standard output fails on the way, with the status 1 or
120 and as much of the document there as has arrived: `ends_ending`. An error in what is classified
is no failure, its message is in the document (`ending_of_reports`); a source text that cannot be
read, a document that cannot be written and a configuration that cannot be used are failures.
-/

set_option autoImplicit false

namespace CadenceEntry.CommandLine

/-- What writing an answer comes to: its text form if it has one, or a document in JSON. -/
def Settings.Writes (s : Settings) (asText : Option String) (v : Json)
    (r : Except WritingFault String) : Prop :=
  if s.asText then r = asText.elim (.error .integerTooLong) .ok else Json.Written s.indent v r

/-- How a run ends, by what the command line asks for and by what is around the program. -/
inductive Ends (env : Environment) (words : List String) : Nat → List UInt8 → Prop
  | refused {usage : Usage} {fault : UsageFault}
      (harguments : argumentsOf words = .error (.wrong usage fault)) : Ends env words 2 []
  | misconfigured {a : Arguments} {e : ConfigurationError} (harguments : argumentsOf words = .ok a)
      (hconfiguration : configurationOf env a.settings = .error e) : Ends env words 1 []
  | unread {a : Arguments} {c : Configuration Bool} {e : InputError}
      (harguments : argumentsOf words = .ok a)
      (hconfiguration : configurationOf env a.settings = .ok c)
      (hanswer : answer env c a.command = .error e) : Ends env words 1 []
  | unwritable {a : Arguments} {c : Configuration Bool} {v : Json} {asText : Option String}
      {fault : WritingFault} (harguments : argumentsOf words = .ok a)
      (hconfiguration : configurationOf env a.settings = .ok c)
      (hanswer : answer env c a.command = .ok v) (htext : textAnswer env c a.command = .ok asText)
      (hfault : a.settings.Writes asText v (.error fault)) : Ends env words 1 []
  | undelivered {a : Arguments} {c : Configuration Bool} {v : Json} {asText : Option String}
      {document : String} (harguments : argumentsOf words = .ok a)
      (hconfiguration : configurationOf env a.settings = .ok c)
      (hanswer : answer env c a.command = .ok v) (htext : textAnswer env c a.command = .ok asText)
      (hdocument : a.settings.Writes asText v (.ok document))
      (houtput : env.output (bytesOf (document ++ "\n")) = .absent) : Ends env words 1 []
  | cut {a : Arguments} {c : Configuration Bool} {v : Json} {asText : Option String}
      {document reason : String} {arrived : Nat} {persists : Bool}
      (harguments : argumentsOf words = .ok a)
      (hconfiguration : configurationOf env a.settings = .ok c)
      (hanswer : answer env c a.command = .ok v) (htext : textAnswer env c a.command = .ok asText)
      (hdocument : a.settings.Writes asText v (.ok document))
      (houtput : env.output (bytesOf (document ++ "\n")) = .broken reason arrived persists) :
      Ends env words (if persists then 120 else 1) ((bytesOf (document ++ "\n")).take arrived)
  | answered {a : Arguments} {c : Configuration Bool} {v : Json} {asText : Option String}
      {document : String} (harguments : argumentsOf words = .ok a)
      (hconfiguration : configurationOf env a.settings = .ok c)
      (hanswer : answer env c a.command = .ok v) (htext : textAnswer env c a.command = .ok asText)
      (hdocument : a.settings.Writes asText v (.ok document))
      (houtput : env.output (bytesOf (document ++ "\n")) = .complete) :
      Ends env words 0 (bytesOf (document ++ "\n"))

/-- The message that a command is answered with because there is nothing to classify: the text is
refused, an integer literal in it has no value, or there are several entry points. -/
inductive Reports (env : Environment) (c : Configuration Bool) : Command → String → Prop
  | type {text : String} {e : SyntaxError} (h : TypeExpr.parse text = .error e) :
      Reports env c (.classifyType text) e.message
  | source {path source : String} {noProgram : Bool} {e : SyntaxError}
      (hsource : sourceText env path = .ok source) (h : Program.parse source = .error e) :
      Reports env c (.parse path noProgram) e.message
  | entryPoint {path source : String} {noProgram : Bool} {p : Program} {e : DuplicateEntryPoint}
      (hsource : sourceText env path = .ok source) (hprogram : Program.parse source = .ok p)
      (h : p.entryPoint c.entryPoints = .error e) : Reports env c (.parse path noProgram) e.message

/-- A document shows an error with a message. -/
def Settings.ShowsError (s : Settings) (m document : String) : Prop :=
  if s.asText then document = "Error: " ++ m
  else ∃ fields, Json.Faithful s.indent (.object fields) document ∧
    fields.lookup "error" = some (.string m)

/-- The source text of a command cannot be read: the standard input fails or ends within its first
line, or the file cannot be read or decoded. -/
inductive Unread (env : Environment) : Command → Prop
  | input {noProgram : Bool} {reason : String} (h : env.input = .error reason) :
      Unread env (.parse "" noProgram)
  | incomplete {noProgram : Bool} {bytes : List UInt8} (h : env.input = .ok bytes)
      (hbytes : ∀ b ∈ bytes, Text.IsWithinLine b) : Unread env (.parse "" noProgram)
  | file {path : String} {noProgram : Bool} {e : FileError} (hpath : path ≠ "")
      (h : env.file (Path.normalize path) = .error e) : Unread env (.parse path noProgram)
  | undecodable {path : String} {noProgram : Bool} {bytes : List UInt8} {e : Text.Utf8.DecodeError}
      (hpath : path ≠ "") (h : env.file (Path.normalize path) = .ok bytes)
      (hbytes : Text.Utf8.decode bytes = .error e) : Unread env (.parse path noProgram)

/-- A document is written with a line feed behind it. -/
theorem Settings.exists_writes (s : Settings) (asText : Option String)
    {ms : List (String × Json)} (hv : Json.Plain (.object ms)) :
    ∃ r, s.document asText (.object ms) = r.map (· ++ "\n") ∧ s.Writes asText (.object ms) r := by
  refine ⟨_, rfl, ?_⟩
  unfold Writes
  split
  · rfl
  · exact hv.written_write s.indent

/-- A command without a source text writes nothing. -/
theorem execute_eq_error {env : Environment} {c : Configuration Bool} {command : Command}
    {e : InputError} (h : answer env c command = .error e) (s : Settings) :
    execute env s c command = .error e := by
  cases command with
  | classifyType text => cases h
  | parse path noProgram =>
    rw [answer] at h
    rw [execute]
    cases hsource : sourceText env path with
    | error e' =>
      rw [hsource] at h
      obtain rfl := Except.error.inj h
      rfl
    | ok source =>
      rw [hsource] at h
      cases h

/-- The exit status and the standard output of a run that writes a document. -/
def delivered (env : Environment) (document : String) : Nat × List UInt8 :=
  match env.output (bytesOf document) with
  | .complete => (0, bytesOf document)
  | .broken _ arrived persists => (if persists then 120 else 1, (bytesOf document).take arrived)
  | .absent => (1, [])

/-- How a run ends whose command line asks for something that can be done. -/
theorem ending_of_arguments (env : Environment) {words : List String} {a : Arguments}
    (h : argumentsOf words = .ok a) :
    ending env words =
      match configurationOf env a.settings with
      | .error _ => (1, [])
      | .ok c =>
        match execute env a.settings c a.command with
        | .error _ => (1, [])
        | .ok (.error _, _) => (1, [])
        | .ok (.ok document, _) => delivered env document := by
  unfold ending run
  rw [h]
  dsimp only
  unfold perform
  cases configurationOf env a.settings with
  | error e =>
    dsimp only
    cases e.message? <;> rfl
  | ok c =>
    dsimp only
    cases execute env a.settings c a.command with
    | error e => rfl
    | ok r =>
      obtain ⟨written, events⟩ := r
      cases written with
      | error fault => rfl
      | ok document =>
        dsimp only
        unfold deliver delivered
        dsimp only
        cases env.output (bytesOf document) <;> rfl

/-- How a run ends that answers a command. -/
theorem exists_ending_of_answer {env : Environment} {words : List String} {a : Arguments}
    {c : Configuration Bool} {v : Json} (harguments : argumentsOf words = .ok a)
    (hconfiguration : configurationOf env a.settings = .ok c)
    (hanswer : answer env c a.command = .ok v) :
    ∃ asText r, textAnswer env c a.command = .ok asText ∧ a.settings.Writes asText v r ∧
      ending env words = match r with
        | .error _ => (1, [])
        | .ok document => delivered env (document ++ "\n") := by
  obtain ⟨asText, events, htext, hexecute⟩ := execute_eq_document hanswer a.settings
  obtain ⟨ms, rfl, hplain⟩ := exists_object_of_answer hanswer
  obtain ⟨r, hdocument, hwrites⟩ := a.settings.exists_writes asText hplain
  refine ⟨asText, r, htext, hwrites, ?_⟩
  rw [ending_of_arguments env harguments, hconfiguration]
  dsimp only
  rw [hexecute, hdocument]
  cases r <;> rfl

/-- Every run without a call for help ends as it should. -/
theorem ends_ending (env : Environment) {words : List String}
    (hhelp : ∀ usage, argumentsOf words ≠ .error (.help usage)) :
    Ends env words (ending env words).1 (ending env words).2 := by
  cases harguments : argumentsOf words with
  | error refusal =>
    cases refusal with
    | help usage => exact absurd harguments (hhelp usage)
    | wrong usage fault =>
      have hending : ending env words = (2, []) := by
        unfold ending run
        rw [harguments]
      rw [hending]
      exact .refused harguments
  | ok a =>
    cases hconfiguration : configurationOf env a.settings with
    | error e =>
      rw [ending_of_arguments env harguments, hconfiguration]
      exact .misconfigured harguments hconfiguration
    | ok c =>
      cases hanswer : answer env c a.command with
      | error e =>
        rw [ending_of_arguments env harguments, hconfiguration]
        dsimp only
        rw [execute_eq_error hanswer]
        exact .unread harguments hconfiguration hanswer
      | ok v =>
        obtain ⟨asText, r, htext, hwrites, hending⟩ :=
          exists_ending_of_answer harguments hconfiguration hanswer
        rw [hending]
        cases r with
        | error fault => exact .unwritable harguments hconfiguration hanswer htext hwrites
        | ok document =>
          dsimp only
          unfold delivered
          cases houtput : env.output (bytesOf (document ++ "\n")) with
          | complete => exact .answered harguments hconfiguration hanswer htext hwrites houtput
          | broken reason arrived persists =>
            exact .cut harguments hconfiguration hanswer htext hwrites houtput
          | absent => exact .undelivered harguments hconfiguration hanswer htext hwrites houtput

/-- The status 2 is left to command lines that are wrong. -/
theorem ending_eq_two_iff (env : Environment) {words : List String}
    (hhelp : ∀ usage, argumentsOf words ≠ .error (.help usage)) :
    (ending env words).1 = 2 ↔ ∃ usage fault, argumentsOf words = .error (.wrong usage fault) := by
  constructor
  · intro htwo
    rcases hending : ending env words with ⟨status, output⟩
    have hends := ends_ending env hhelp
    rw [hending] at hends htwo
    cases hends with
    | refused harguments => exact ⟨_, _, harguments⟩
    | misconfigured | unread | unwritable | undelivered | answered => cases htwo
    | @cut _ _ _ _ _ _ _ persists => cases persists <;> cases htwo
  · rintro ⟨usage, fault, harguments⟩
    unfold ending run
    rw [harguments]

/-- A response with an error shows it. -/
theorem sourceAnswer_of_error {c : Configuration Bool} {source m : String}
    (h : (Response.ofSource c source).error = m) (hm : m ≠ "") :
    (Response.ofSource c source).text? = some ("Error: " ++ m) ∧
      ∃ fields, sourceAnswer c source = .object fields ∧
        fields.lookup "error" = some (.string m) := by
  subst h
  constructor
  · unfold Response.text?
    rw [if_neg]
    rw [String.isEmpty_iff]
    exact hm
  · exact ⟨_, rfl, rfl⟩

/-- The message that is reported is the error of the response. -/
theorem error_ofSource_of_entryPoint {c : Configuration Bool} {source : String} {p : Program}
    {e : DuplicateEntryPoint} (hprogram : Program.parse source = .ok p)
    (h : p.entryPoint c.entryPoints = .error e) :
    (Response.ofSource c source).error = e.message := by
  unfold Response.ofSource
  rw [hprogram]
  dsimp only
  unfold Response.ofProgram Interaction.ofProgram
  rw [h]
  rfl

/-- A command that something is reported for is answered with the message. -/
theorem answer_of_reports {env : Environment} {c : Configuration Bool} {command : Command}
    {m : String} (h : Reports env c command m) :
    textAnswer env c command = .ok (some ("Error: " ++ m)) ∧
      ∃ fields, answer env c command = .ok (.object fields) ∧
        fields.lookup "error" = some (.string m) := by
  have hresponse : ∀ {path source : String} {noProgram : Bool} {c' : Configuration Bool},
      c' = (if noProgram then { c with includeProgram := false } else c) →
      sourceText env path = .ok source → (Response.ofSource c' source).error = m → m ≠ "" →
      textAnswer env c (.parse path noProgram) = .ok (some ("Error: " ++ m)) ∧
        ∃ fields, answer env c (.parse path noProgram) = .ok (.object fields) ∧
          fields.lookup "error" = some (.string m) := by
    intro path source noProgram c' hc hsource herror hm
    subst hc
    obtain ⟨htext, fields, hfields, hlookup⟩ := sourceAnswer_of_error herror hm
    rw [textAnswer, answer, hsource]
    exact ⟨congrArg Except.ok htext, fields, congrArg Except.ok hfields, hlookup⟩
  cases h with
  | type h =>
    rw [textAnswer, answer, typeText, typeAnswer, h]
    exact ⟨rfl, _, rfl, rfl⟩
  | source hsource h =>
    refine hresponse rfl hsource ?_ (SyntaxError.message_ne_empty _)
    unfold Response.ofSource
    rw [h]
  | entryPoint hsource hprogram h =>
    refine hresponse rfl hsource ?_ (DuplicateEntryPoint.message_ne_empty _)
    apply error_ofSource_of_entryPoint hprogram
    split <;> exact h

/-- The text form of an answer can be written, or the answer in JSON can. -/
def Settings.CanWrite (s : Settings) (v : Json) : Prop :=
  s.asText = true ∨ Json.IndentInRange s.indent ∧ v.IntegersFit

/-- A run that something is reported in ends well, with the message in the document, unless the
answer cannot be written; then nothing is. -/
theorem ending_of_reports {env : Environment} {words : List String} {a : Arguments}
    {c : Configuration Bool} {m : String} (harguments : argumentsOf words = .ok a)
    (hconfiguration : configurationOf env a.settings = .ok c) (h : Reports env c a.command m) :
    ∃ v, answer env c a.command = .ok v ∧
      (a.settings.CanWrite v → ∃ document, a.settings.ShowsError m document ∧
        ending env words = delivered env (document ++ "\n")) ∧
      (¬ a.settings.CanWrite v → ending env words = (1, [])) := by
  obtain ⟨htext, fields, hanswer, hlookup⟩ := answer_of_reports h
  obtain ⟨asText, r, htext', hwrites, hending⟩ :=
    exists_ending_of_answer harguments hconfiguration hanswer
  obtain rfl : asText = some ("Error: " ++ m) := Except.ok.inj (htext'.symm.trans htext)
  refine ⟨_, hanswer, ?_⟩
  unfold Settings.Writes at hwrites
  unfold Settings.CanWrite Settings.ShowsError
  cases hasText : a.settings.asText with
  | true =>
    rw [if_pos hasText] at hwrites
    subst hwrites
    exact ⟨fun _ => ⟨_, rfl, hending⟩, fun h => absurd (.inl rfl) h⟩
  | false =>
    rw [if_neg (by simp [hasText])] at hwrites
    cases hwrites with
    | document hindent hintegers hfaithful =>
      exact ⟨fun _ => ⟨_, ⟨fields, hfaithful, hlookup⟩, hending⟩,
        fun h => absurd (.inr ⟨hindent, hintegers⟩) h⟩
    | indentOutOfRange hindent =>
      refine ⟨fun h => ?_, fun _ => hending⟩
      obtain h | ⟨h, -⟩ := h
      · cases h
      · exact absurd h hindent
    | integerTooLong _ hintegers =>
      refine ⟨fun h => ?_, fun _ => hending⟩
      obtain h | ⟨-, h⟩ := h
      · cases h
      · exact absurd h hintegers

/-- Without a source text there is no answer. -/
theorem answer_of_unread {env : Environment} {command : Command} (h : Unread env command)
    (c : Configuration Bool) : ∃ e, answer env c command = .error e := by
  have hsource : ∀ {path : String} {noProgram : Bool}, (∃ e, sourceText env path = .error e) →
      ∃ e, answer env c (.parse path noProgram) = .error e := by
    rintro path noProgram ⟨e, he⟩
    refine ⟨e, ?_⟩
    rw [answer, he]
    rfl
  have hfile : ∀ {path : String}, path ≠ "" →
      sourceText env path =
        Source.ofFile (Path.normalize path) (env.file (Path.normalize path)) := by
    intro path hpath
    unfold sourceText
    rw [if_neg]
    rw [String.isEmpty_iff]
    exact hpath
  cases h with
  | input h =>
    apply hsource
    show ∃ e, Source.ofInput env.input = .error e
    rw [h]
    exact ⟨_, rfl⟩
  | incomplete h hbytes =>
    apply hsource
    show ∃ e, Source.ofInput env.input = .error e
    rw [h]
    exact Source.ofInput_of_noLineEnd hbytes
  | file hpath h =>
    apply hsource
    rw [hfile hpath, h]
    exact ⟨_, rfl⟩
  | undecodable hpath h hbytes =>
    apply hsource
    rw [hfile hpath, h, Source.ofFile, hbytes]
    exact ⟨_, rfl⟩

/-- A run without a source text fails. -/
theorem ending_of_unread {env : Environment} {words : List String} {a : Arguments}
    (harguments : argumentsOf words = .ok a) (h : Unread env a.command) :
    ending env words = (1, []) := by
  rw [ending_of_arguments env harguments]
  cases configurationOf env a.settings with
  | error e => rfl
  | ok c =>
    obtain ⟨e, he⟩ := answer_of_unread h c
    dsimp only
    rw [execute_eq_error he]

/-- A run whose standard output takes no document does not end well. -/
theorem ending_of_incomplete {env : Environment} {words : List String} {a : Arguments}
    (harguments : argumentsOf words = .ok a) (h : ∀ bytes, env.output bytes ≠ .complete) :
    (ending env words).1 = 1 ∨ (ending env words).1 = 120 := by
  have hdelivered : ∀ document, (delivered env document).1 = 1 ∨
      (delivered env document).1 = 120 := by
    intro document
    unfold delivered
    cases houtput : env.output (bytesOf document) with
    | complete => exact absurd houtput (h _)
    | broken reason arrived persists => cases persists <;> simp
    | absent => exact .inl rfl
  rw [ending_of_arguments env harguments]
  cases configurationOf env a.settings with
  | error e => exact .inl rfl
  | ok c =>
    dsimp only
    cases execute env a.settings c a.command with
    | error e => exact .inl rfl
    | ok r =>
      obtain ⟨written, events⟩ := r
      cases written with
      | error fault => exact .inl rfl
      | ok document => exact hdelivered document

/-- A run without a configuration fails. -/
theorem ending_of_configurationError {env : Environment} {words : List String} {a : Arguments}
    {e : ConfigurationError} (harguments : argumentsOf words = .ok a)
    (h : configurationOf env a.settings = .error e) : ending env words = (1, []) := by
  rw [ending_of_arguments env harguments, h]

end CadenceEntry.CommandLine
