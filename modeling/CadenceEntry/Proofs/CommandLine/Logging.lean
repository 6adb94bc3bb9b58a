import CadenceEntry.Proofs.CommandLine.Answering

/-!
# The log makes no difference to a run

How much is reported does not show on the standard output or in the exit status, whether it is asked
for on the command line (`ending_verbose`) or in the configuration file (`ending_of_relogged`).
-/

set_option autoImplicit false

namespace CadenceEntry

namespace Configuration

/-- A loader finds a mapping in a file that gives the options these values. -/
def Holds (l : Loader) (file : Except FileError (List UInt8)) (value? : String → Option Datum) :
    Prop :=
  ∃ bytes, file = .ok bytes ∧ l.load bytes = .ok (.ok (.mapping value?))

/-- The options that decide how a source text is classified. -/
def classifying : List String := ["entry_points", "include_program", "legacy_type_names"]

/-- Two files hold the same options but for the level of the log, which is valid in both. -/
inductive Relogged (l : Loader) (file file' : Except FileError (List UInt8)) : Prop
  | intro {value? value?' : String → Option Datum} (h : Holds l file value?)
      (h' : Holds l file' value?') (hsame : ∀ key ∈ classifying, value?' key = value? key)
      (hlevel : ∀ v ∈ value? "log_level", ∃ l, LogLevel.ofDatum v = .ok l)
      (hlevel' : ∀ v ∈ value?' "log_level", ∃ l, LogLevel.ofDatum v = .ok l) :
      Relogged l file file'

/-- A file with a mapping is read as the mapping says. -/
theorem Holds.ofFile_eq {l : Loader} {file : Except FileError (List UInt8)}
    {value? : String → Option Datum} (h : Holds l file value?) (path : String) :
    ofFile l path file = (ofMapping value?).mapError .badOption := by
  obtain ⟨bytes, rfl, hload⟩ := h
  rw [ofFile, hload]
  rfl

/-- A configuration without its level of the log. -/
def unlogged (c : Configuration Bool) : Configuration Bool := { c with logLevel := .warning }

/-- Another level of the log makes no other difference to a configuration. -/
theorem Relogged.ofFile_eq {l : Loader} {file file' : Except FileError (List UInt8)}
    (h : Relogged l file file') (path : String) :
    (ofFile l path file').map unlogged = (ofFile l path file).map unlogged := by
  obtain ⟨hfile, hfile', hsame, hlevel, hlevel'⟩ := h
  have hvalid : ∀ v? : Option Datum, (∀ v ∈ v?, ∃ l, LogLevel.ofDatum v = .ok l) →
      ∃ l, (v?.map LogLevel.ofDatum).getD (.ok default.logLevel) = .ok l := by
    intro v? hv
    cases v? with
    | none => exact ⟨_, rfl⟩
    | some v => exact hv v rfl
  obtain ⟨l, hl⟩ := hvalid _ hlevel
  obtain ⟨l', hl'⟩ := hvalid _ hlevel'
  rw [hfile.ofFile_eq, hfile'.ofFile_eq, ofMapping, ofMapping,
    hsame "entry_points" (by decide), hsame "include_program" (by decide),
    hsame "legacy_type_names" (by decide), ofOptions, ofOptions, hl, hl']
  cases (Option.map Policy.ofDatum _).getD (.ok default.entryPoints) <;> rfl

end Configuration

namespace CommandLine

/-- Settings that ask for a log of everything. -/
def Settings.verbosely (s : Settings) : Settings := { s with isVerbose := true }

/-- An option changes the same when a log of everything is asked for. -/
theorem Settings.set_verbosely (s : Settings) (o : GlobalOption × Option String) :
    s.verbosely.set o = (s.set o).map Settings.verbosely := by
  obtain ⟨o, v⟩ := o
  cases o with
  | indent =>
    unfold Settings.set
    dsimp only
    cases Number.ofDecimal (v.getD "").toList <;> rfl
  | help | config | strict | verbose | text => rfl

/-- Options change the same when a log of everything is asked for. -/
theorem Settings.foldlM_set_verbosely (s : Settings) (os : List (GlobalOption × Option String)) :
    os.foldlM Settings.set s.verbosely = (os.foldlM Settings.set s).map Settings.verbosely := by
  induction os generalizing s with
  | nil => rfl
  | cons o os ih =>
    rw [List.foldlM_cons, List.foldlM_cons, s.set_verbosely]
    cases s.set o with
    | error e => rfl
    | ok s' => exact ih s'

/-- A log of everything that is asked for first stays asked for. -/
theorem globalWords_verbosely (s : Settings) (extras : List String)
    (ws : List (Word GlobalOption)) :
    globalWords s.verbosely extras ws =
      (globalWords s extras ws).map fun r => (r.1.verbosely, r.2) := by
  fun_induction globalWords s extras ws
  case case1 | case3 | case4 => rfl
  case case2 s extras t ws ih =>
    rw [globalWords]
    exact ih
  case case5 s extras ws hne =>
    cases ws with
    | nil => exact absurd rfl hne
    | cons w ws => rfl
  case case6 s extras text c ws ihNext ih =>
    rw [globalWords]
    cases optionsFor .program (optionsOf globalSpecs c ws) with
    | error e => rfl
    | ok r =>
      obtain ⟨options, rest, usesNext⟩ := r
      dsimp only [bind, Except.bind]
      rw [s.foldlM_set_verbosely]
      cases options.foldlM Settings.set s with
      | error e => rfl
      | ok s' =>
        cases usesNext with
        | false => exact ih rest s'
        | true => cases ws <;> exact ihNext s'

/-- The option for a log of everything in front of a command line asks for nothing else. -/
theorem argumentsOf_verbose (words : List String) :
    argumentsOf ("-v" :: words) =
      (argumentsOf words).map fun a => { a with settings := a.settings.verbosely } := by
  have hword : wordOf globalSpecs "-v" =
      .ok (.option "-v" ⟨⟨.verbose, ["--verbose", "-v"], false⟩, "-v", none⟩) := by
    rfl
  have hglobal : ∀ ws : List (Word GlobalOption),
      globalWords {} [] (.option "-v" ⟨⟨.verbose, ["--verbose", "-v"], false⟩, "-v", none⟩ :: ws) =
        (globalWords {} [] ws).map fun r => (r.1.verbosely, r.2) := by
    intro ws
    rw [globalWords, ← globalWords_verbosely]
    rfl
  unfold argumentsOf
  rw [wordsOf, if_neg (by decide), hword]
  cases wordsOf globalSpecs words with
  | error e => rfl
  | ok ws =>
    dsimp only [bind, Except.bind, optionsFor, Except.mapError, pure, Except.pure]
    rw [hglobal]
    cases globalWords {} [] ws with
    | error e => rfl
    | ok r =>
      obtain ⟨settings, extras, command?⟩ := r
      dsimp only [Except.map]
      cases command? with
      | none =>
        dsimp only
        cases extras ++ [] <;> rfl
      | some command =>
        obtain ⟨name, texts⟩ := command
        dsimp only
        cases commandOf name texts with
        | error e => rfl
        | ok r =>
          dsimp only
          cases extras ++ r.2 <;> rfl

/-- A log of everything changes nothing but the log. -/
theorem ending_verbose (env : Environment) (words : List String) :
    ending env ("-v" :: words) = ending env words := by
  cases harguments : argumentsOf words with
  | error refusal =>
    have hverbose : argumentsOf ("-v" :: words) = .error refusal := by
      rw [argumentsOf_verbose, harguments]
      rfl
    unfold ending run
    rw [harguments, hverbose]
  | ok a =>
    have hverbose : argumentsOf ("-v" :: words) =
        .ok { a with settings := a.settings.verbosely } := by
      rw [argumentsOf_verbose, harguments]
      rfl
    have hexecute : ∀ c, execute env a.settings.verbosely c a.command =
        execute env a.settings c a.command := by
      intro c
      cases a.command <;> rfl
    rw [ending_of_arguments env harguments, ending_of_arguments env hverbose]
    have hconfiguration :
        configurationOf env a.settings.verbosely = configurationOf env a.settings :=
      rfl
    dsimp only
    rw [hconfiguration]
    cases configurationOf env a.settings with
    | error e => rfl
    | ok c =>
      dsimp only
      rw [hexecute]

/-- What is around two runs is the same but for the level of the log in the configuration file,
which is not the file that is classified. -/
structure Relogged (env env' : Environment) (a : Arguments) : Prop where
  configuration : Configuration.Relogged env.loader
    (env.file (Path.normalize a.settings.config)) (env'.file (Path.normalize a.settings.config))
  loader : env'.loader = env.loader
  file : ∀ path, path ≠ Path.normalize a.settings.config → env'.file path = env.file path
  source : ∀ path noProgram, a.command = .parse path noProgram → path ≠ "" →
    Path.normalize path ≠ Path.normalize a.settings.config
  input : env'.input = env.input
  output : env'.output = env.output

/-- The configurations of the two runs are the same but for the level of the log. -/
theorem Relogged.configurationOf_eq {env env' : Environment} {a : Arguments}
    (h : Relogged env env' a) : (configurationOf env' a.settings).map Configuration.unlogged =
      (configurationOf env a.settings).map Configuration.unlogged := by
  have hstrict : ∀ x : Except ConfigurationError (Configuration Bool),
      (x.bind fun c =>
          .ok (if a.settings.isStrict then { c with entryPoints := .strict } else c)).map
          Configuration.unlogged =
        (x.map Configuration.unlogged).map fun c =>
          if a.settings.isStrict then { c with entryPoints := .strict } else c := by
    intro x
    cases x with
    | error e => rfl
    | ok c => cases a.settings.isStrict <;> rfl
  unfold configurationOf
  by_cases hconfig : a.settings.config.isEmpty = true
  · rw [if_pos hconfig, if_pos hconfig]
  · rw [if_neg hconfig, if_neg hconfig]
    refine (hstrict _).trans (Eq.trans ?_ (hstrict _).symm)
    rw [h.loader, h.configuration.ofFile_eq]

/-- A command is answered alike, whatever the level of the log is. -/
theorem execute_unlogged (env : Environment) (s : Settings) (c : Configuration Bool)
    (command : Command) : execute env s c.unlogged command = execute env s c command := by
  cases command with
  | classifyType text => rfl
  | parse path noProgram => cases noProgram <;> rfl

/-- The two runs execute the same with the same configuration. -/
theorem Relogged.execute_eq {env env' : Environment} {a : Arguments} (h : Relogged env env' a)
    (c : Configuration Bool) :
    execute env' a.settings c a.command = execute env a.settings c a.command := by
  cases hcommand : a.command with
  | classifyType text => rfl
  | parse path noProgram =>
    have hsource : sourceText env' path = sourceText env path := by
      unfold sourceText
      by_cases hpath : path.isEmpty = true
      · rw [if_pos hpath, if_pos hpath, h.input]
      · have hne : path ≠ "" := fun hnil => hpath (by rw [hnil]; rfl)
        rw [if_neg hpath, if_neg hpath, h.file _ (h.source path noProgram hcommand hne)]
    rw [execute, execute, hsource]

/-- Another level of the log changes nothing but the log. -/
theorem ending_of_relogged {env env' : Environment} {words : List String} {a : Arguments}
    (harguments : argumentsOf words = .ok a) (h : Relogged env env' a) :
    ending env' words = ending env words := by
  have hconfiguration := h.configurationOf_eq
  have hdelivered : delivered env' = delivered env := by
    funext document
    unfold delivered
    rw [h.output]
  rw [ending_of_arguments env harguments, ending_of_arguments env' harguments, hdelivered]
  cases hc : configurationOf env a.settings with
  | error e =>
    cases hc' : configurationOf env' a.settings with
    | error e' => rfl
    | ok c' =>
      rw [hc, hc'] at hconfiguration
      cases hconfiguration
  | ok c =>
    cases hc' : configurationOf env' a.settings with
    | error e' =>
      rw [hc, hc'] at hconfiguration
      cases hconfiguration
    | ok c' =>
      rw [hc, hc'] at hconfiguration
      have hunlogged : c'.unlogged = c.unlogged := Except.ok.inj hconfiguration
      dsimp only
      rw [h.execute_eq, ← execute_unlogged, hunlogged, execute_unlogged]

end CommandLine

end CadenceEntry
