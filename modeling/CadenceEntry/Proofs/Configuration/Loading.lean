import CadenceEntry.Proofs.CommandLine.Logging
import CadenceEntry.Proofs.Configuration.Decoding
import CadenceEntry.Proofs.Configuration.Options

/-!
# Loading a configuration

A configuration file gives a configuration, or an error with a message that the run logs before it
ends with the status 1. There is no message for a file that is there and cannot be read, for bytes
that are no text, for a loader that fails on a document, and for an option whose value is too long
to be written: `Escapes`. A run with such a file has no outcome: `run_of_file`.
-/

set_option autoImplicit false

namespace CadenceEntry

open Text.Utf8 (decode)

namespace Configuration

/-- The value of an option that is not taken is too long to be reported. The level is not looked at
if there is no such policy. -/
inductive TooLong (value? : String → Option Datum) : Prop
  | entryPoints {v : Datum} (h : value? "entry_points" = some v) (hlong : v.hasText = false) :
      TooLong value?
  | logLevel {v : Datum} (hpolicy : ∀ w ∈ value? "entry_points", ∃ p : Policy, w = .text p.name)
      (h : value? "log_level" = some v) (hlong : v.hasText = false) : TooLong value?

/-- What is wrong with a file gives an error without a message. -/
inductive Escapes (l : Loader) : Except FileError (List UInt8) → ConfigurationError → Prop
  | unreadable {e : FileError} (h : e.isAbsence = false) : Escapes l (.error e) (.unreadable e)
  | undecodable {bytes : List UInt8} {e : Text.Utf8.DecodeError} (h : l.load bytes = .error e) :
      Escapes l (.ok bytes) (.undecodable e)
  | unloadable {bytes : List UInt8} {kind : String} {message : Option String}
      (h : l.load bytes = .ok (.error (.other kind message))) :
      Escapes l (.ok bytes) (.unloadable kind message)
  | tooLong {file : Except FileError (List UInt8)} {value? : String → Option Datum}
      (hfile : Holds l file value?) (h : TooLong value?) : Escapes l file (.badOption .tooLong)

/-- What a file may give. -/
inductive Loads (l : Loader) (file : Except FileError (List UInt8)) :
    Except ConfigurationError (Configuration Bool) → Prop
  | loaded {c : Configuration Bool} (hpolicy : c.entryPoints.name ∈ ["last", "strict"])
      (hlevel : c.logLevel.name ∈ ["DEBUG", "INFO", "WARNING", "ERROR", "CRITICAL"]) :
      Loads l file (.ok c)
  | refused {e : ConfigurationError} {message : String} (h : e.message? = some message) :
      Loads l file (.error e)
  | escaped {e : ConfigurationError} (h : Escapes l file e) : Loads l file (.error e)

/-- There are no policies and no levels but the known ones. -/
theorem loads_ok (l : Loader) (file : Except FileError (List UInt8)) (c : Configuration Bool) :
    Loads l file (.ok c) := by
  have hpolicy : ∀ p : Policy, p.name ∈ ["last", "strict"] := by
    intro p
    cases p <;> decide
  have hlevel : ∀ l : LogLevel, l.name ∈ ["DEBUG", "INFO", "WARNING", "ERROR", "CRITICAL"] := by
    intro l
    cases l <;> decide
  exact .loaded (hpolicy _) (hlevel _)

/-- The policy comes first: the level can only be too long if the policy is taken. -/
theorem ofOptions_eq_tooLong_iff {φ : Type} {entryPoints logLevel : Option Datum}
    {includeProgram legacyTypeNames : φ} :
    ofOptions entryPoints logLevel includeProgram legacyTypeNames = .error .tooLong ↔
      (∃ v, entryPoints = some v ∧ v.hasText = false) ∨
      (∀ w ∈ entryPoints, ∃ p : Policy, w = .text p.name) ∧
        ∃ v, logLevel = some v ∧ v.hasText = false := by
  have hlevel : ∀ f : LogLevel → Configuration φ,
      ((logLevel.map LogLevel.ofDatum).getD (.ok default.logLevel)).map f = .error .tooLong ↔
        ∃ v, logLevel = some v ∧ v.hasText = false := by
    intro f
    cases logLevel with
    | none => simp [Except.map]
    | some v =>
      simp only [Option.map_some, Option.getD_some, Option.some.injEq, exists_eq_left',
        ← LogLevel.ofDatum_eq_tooLong_iff]
      cases LogLevel.ofDatum v <;> simp [Except.map]
  cases entryPoints with
  | none =>
    rw [← hlevel fun l => ⟨default.entryPoints, includeProgram, legacyTypeNames, l⟩]
    simp
    rfl
  | some w =>
    cases hw : Policy.ofDatum w with
    | ok p =>
      have hpolicy := Policy.ofDatum_eq_ok_iff.1 hw
      have heq : ofOptions (some w) logLevel includeProgram legacyTypeNames =
          ((logLevel.map LogLevel.ofDatum).getD (.ok default.logLevel)).map
            fun l => ⟨p, includeProgram, legacyTypeNames, l⟩ := by
        rw [ofOptions, Option.map_some, Option.getD_some, hw]
        rfl
      rw [heq, hlevel]
      simp [hpolicy, Datum.hasText]
    | error e =>
      have hpolicy : ∀ p : Policy, w ≠ .text p.name := by
        intro p hp
        rw [← Policy.ofDatum_eq_ok_iff, hw] at hp
        cases hp
      have heq : ofOptions (some w) logLevel includeProgram legacyTypeNames = .error e := by
        rw [ofOptions, Option.map_some, Option.getD_some, hw]
        rfl
      rw [heq]
      simp [hpolicy, ← Policy.ofDatum_eq_tooLong_iff, hw]

/-- What makes an option too long to be reported. -/
theorem ofMapping_eq_tooLong_iff {value? : String → Option Datum} :
    ofMapping value? = .error .tooLong ↔ TooLong value? := by
  rw [ofMapping, ofOptions_eq_tooLong_iff]
  constructor
  · rintro (⟨v, h, hlong⟩ | ⟨hpolicy, v, h, hlong⟩)
    · exact .entryPoints h hlong
    · exact .logLevel hpolicy h hlong
  · rintro (⟨h, hlong⟩ | ⟨hpolicy, h, hlong⟩)
    · exact .inl ⟨_, h, hlong⟩
    · exact .inr ⟨hpolicy, _, h, hlong⟩

/-- A mapping that is refused without a message has an option that is too long to be reported. -/
theorem eq_tooLong_of_message? {value? : String → Option Datum} {e : ConfigurationError}
    (h : (ofMapping value?).mapError .badOption = .error e) (hmessage : e.message? = none) :
    e = .badOption .tooLong ∧ TooLong value? := by
  cases hoptions : ofMapping value? with
  | ok c =>
    rw [hoptions] at h
    cases h
  | error oe =>
    rw [hoptions] at h
    obtain rfl := Except.error.inj h
    cases oe with
    | unknownPolicy shown | unknownLogLevel shown => cases hmessage
    | tooLong => exact ⟨rfl, ofMapping_eq_tooLong_iff.1 hoptions⟩

/-- A file that is loaded and refused without a message has an option that is too long, or the
loader fails on its document. -/
theorem escapes_of_ofLoaded {l : Loader} {path : String} {bytes : List UInt8}
    {result : Except LoadFault Content} {e : ConfigurationError} (hload : l.load bytes = .ok result)
    (h : ofLoaded path result = .error e) (hmessage : e.message? = none) :
    Escapes l (.ok bytes) e := by
  cases result with
  | error fault =>
    cases fault with
    | malformed problem =>
      obtain rfl := Except.error.inj h
      cases hmessage
    | other kind message =>
      obtain rfl := Except.error.inj h
      exact .unloadable hload
  | ok content =>
    cases content with
    | mapping value? =>
      obtain ⟨rfl, htooLong⟩ := eq_tooLong_of_message? h hmessage
      exact .tooLong ⟨bytes, rfl, hload⟩ htooLong
    | other counts =>
      cases counts with
      | false => cases h
      | true =>
        obtain rfl := Except.error.inj h
        cases hmessage

/-- An error has no message exactly if something escapes. -/
theorem escapes_iff {l : Loader} {path : String} {file : Except FileError (List UInt8)}
    {e : ConfigurationError} :
    Escapes l file e ↔ ofFile l path file = .error e ∧ e.message? = none := by
  constructor
  · intro h
    cases h with
    | unreadable h => simp [ofFile, h, ConfigurationError.message?]
    | undecodable h => simp [ofFile, h, ConfigurationError.message?]
    | unloadable h => simp [ofFile, h, ofLoaded, ConfigurationError.message?]
    | tooLong hfile h =>
      rw [hfile.ofFile_eq, ofMapping_eq_tooLong_iff.2 h]
      exact ⟨rfl, rfl⟩
  · rintro ⟨h, hmessage⟩
    cases file with
    | error fe =>
      obtain rfl := Except.error.inj h
      cases habsence : fe.isAbsence with
      | false =>
        rw [if_neg (by simp)]
        exact .unreadable habsence
      | true =>
        rw [habsence] at hmessage
        cases hmessage
    | ok bytes =>
      rw [ofFile] at h
      cases hload : l.load bytes with
      | error de =>
        rw [hload] at h
        obtain rfl := Except.error.inj h
        exact .undecodable hload
      | ok result =>
        rw [hload] at h
        exact escapes_of_ofLoaded hload h hmessage

/-- A file gives a known configuration, an error with a message, or something escapes. -/
theorem loads_ofFile (l : Loader) (path : String) (file : Except FileError (List UInt8)) :
    Loads l file (ofFile l path file) := by
  cases h : ofFile l path file with
  | ok c => exact loads_ok l file c
  | error e =>
    cases hmessage : e.message? with
    | some message => exact .refused hmessage
    | none => exact .escaped (escapes_iff.2 ⟨h, hmessage⟩)

end Configuration

namespace CommandLine

open CadenceEntry.Configuration

/-- How a run ends that has a configuration: with a document, with the status 1 or 120 and a
message, which the log shows last, or at once because the answer cannot be written or there is no
standard output. -/
inductive Concludes (env : Environment) (a : Arguments) (c : Configuration Bool) :
    Except Escape Outcome → Prop
  | document {text log : String} (houtput : env.output (bytesOf (text ++ "\n")) = .complete) :
      Concludes env a c (.ok { status := 0, output := bytesOf (text ++ "\n"), log := log })
  | failure {status : Nat} {output : List UInt8} {message log : String}
      (hstatus : status = 1 ∨ status = 120) : Concludes env a c
        (.ok { status := status, output := output, log := log ++ (Event.failed message).line })
  | unwritable {v : Json} {asText : Option String} {fault : WritingFault}
      (hanswer : answer env c a.command = .ok v) (htext : textAnswer env c a.command = .ok asText)
      (h : a.settings.Writes asText v (.error fault)) : Concludes env a c (.error (.writing fault))
  | noOutput {text : String} (h : env.output (bytesOf (text ++ "\n")) = .absent) :
      Concludes env a c (.error .noOutput)

/-- A failure shows in the log from every level on. -/
theorem log_failed (threshold : LogLevel) (events : List Event) (message : String) :
    Event.log threshold (events ++ [.failed message]) =
      Event.log threshold events ++ (Event.failed message).line := by
  have hshown : threshold.rank ≤ (Event.failed message).level.rank := by
    cases threshold <;> simp [LogLevel.rank, Event.level]
  simp [Event.log, List.filter_append, hshown, String.join]

/-- A run that writes a document concludes as the standard output has it. -/
theorem concludes_deliver (env : Environment) (a : Arguments) (c : Configuration Bool)
    (threshold : LogLevel) (text : String) (events : List Event) :
    Concludes env a c (deliver env threshold (text ++ "\n") events) := by
  unfold deliver
  dsimp only
  cases houtput : env.output (bytesOf (text ++ "\n")) with
  | complete => exact .document houtput
  | broken reason arrived persists =>
    dsimp only
    rw [log_failed]
    exact .failure (by cases persists <;> simp)
  | absent => exact .noOutput houtput

/-- A run whose configuration is loaded concludes. -/
theorem concludes_of_configurationOf {env : Environment} {words : List String} {a : Arguments}
    {c : Configuration Bool} (harguments : argumentsOf words = .ok a)
    (hconfiguration : configurationOf env a.settings = .ok c) :
    Concludes env a c (run env words) := by
  cases hanswer : answer env c a.command with
  | error e =>
    have hexecute := execute_eq_error hanswer a.settings
    rw [run, harguments]
    dsimp only
    rw [perform, hconfiguration]
    dsimp only
    rw [hexecute]
    dsimp only
    rw [← List.nil_append [Event.failed e.message], log_failed]
    exact .failure (.inl rfl)
  | ok v =>
    obtain ⟨asText, threshold, events, htext, hrun⟩ :=
      run_of_answer harguments hconfiguration hanswer
    obtain ⟨ms, rfl, hplain⟩ := exists_object_of_answer hanswer
    obtain ⟨r, hdocument, hwrites⟩ := a.settings.exists_writes asText hplain
    rw [hrun, hdocument]
    cases r with
    | error fault => exact .unwritable hanswer htext hwrites
    | ok document => exact concludes_deliver env a c threshold document events

/-- A configuration that is not loaded ends the run: with its message, or without an outcome. -/
theorem run_of_configurationError {env : Environment} {words : List String} {a : Arguments}
    {e : ConfigurationError} (harguments : argumentsOf words = .ok a)
    (hconfiguration : configurationOf env a.settings = .error e) :
    run env words = match e.message? with
      | none => .error (.configuration e)
      | some message => .ok { status := 1, log := (Event.failed message).line } := by
  rw [run, harguments]
  dsimp only
  rw [perform, hconfiguration]
  dsimp only
  cases e.message? with
  | none => rfl
  | some message =>
    dsimp only
    rw [← List.nil_append [Event.failed message], log_failed]
    simp [Event.log, String.join]

/-- The configuration of a run with a file: what the file gives, with another policy perhaps. -/
def withPolicy (s : Settings) (c : Configuration Bool) : Configuration Bool :=
  if s.isStrict then { c with entryPoints := .strict } else c

/-- The configuration of a run is what its file gives, with another policy perhaps. -/
theorem configurationOf_eq_map (env : Environment) {s : Settings} (hconfig : s.config ≠ "") :
    configurationOf env s =
      (ofFile env.loader (Path.normalize s.config) (env.file (Path.normalize s.config))).map
        (withPolicy s) := by
  have hempty : s.config.isEmpty = false := by simpa using hconfig
  rw [configurationOf, hempty]
  cases h : ofFile env.loader (Path.normalize s.config) (env.file (Path.normalize s.config)) with
  | error e =>
    simp [h]
    rfl
  | ok c =>
    simp [h]
    rfl

/-- Loading a configuration gives one with a known policy and a known level, or an error with a
message, unless the file is there and something in it escapes, which is so exactly if the error has
no message. Bytes of which the loader sees a part that is no text are such a file; they are no text
as a whole, and a loader that asks for all of a file escapes from every file that is no text. What
escapes ends a run without an outcome. Every other run with a configuration file ends with the
status 1 and the message of the error in its log, or concludes like a run with the configuration
that is loaded. -/
theorem run_of_file (l : Loader) (path : String) (file : Except FileError (List UInt8)) :
    Loads l file (ofFile l path file) ∧
      (∀ e, Escapes l file e ↔ ofFile l path file = .error e ∧ e.message? = none) ∧
      (∀ bytes e, file = .ok bytes → Escapes l file (.undecodable e) →
        ∃ e', decode bytes = .error e') ∧
      ((∀ parts, l.early? parts = none) → ∀ bytes e', file = .ok bytes → decode bytes = .error e' →
        ∃ e, Escapes l file (.undecodable e)) ∧
      ∀ env words a, argumentsOf words = .ok a → a.settings.config ≠ "" →
        Path.normalize a.settings.config = path → env.file path = file → env.loader = l →
          (∀ e, Escapes l file e ↔ run env words = .error (.configuration e)) ∧
          (∀ e message, ofFile l path file = .error e → e.message? = some message →
            run env words = .ok { status := 1, log := (Event.failed message).line }) ∧
          ∀ c, ofFile l path file = .ok c →
            Concludes env a (withPolicy a.settings c) (run env words) := by
  refine ⟨loads_ofFile l path file, fun e => escapes_iff, ?_, ?_, ?_⟩
  · rintro bytes e rfl hescapes
    cases hescapes with
    | undecodable h => exact Loader.not_text_of_load h
  · rintro hpatient bytes e' rfl hdecode
    obtain ⟨e, hload⟩ := Loader.load_of_not_text hpatient hdecode
    exact ⟨e, .undecodable hload⟩
  rintro env words a harguments hconfig rfl rfl rfl
  have hconfiguration := configurationOf_eq_map env hconfig
  cases hfile : ofFile env.loader (Path.normalize a.settings.config)
      (env.file (Path.normalize a.settings.config)) with
  | ok c =>
    rw [hfile] at hconfiguration
    have hconcludes := concludes_of_configurationOf harguments hconfiguration
    refine ⟨fun e => ?_, fun e message h => ?_, ?_⟩
    · rw [escapes_iff, hfile]
      refine ⟨fun h => ?_, fun h => ?_⟩
      · cases h.1
      · rw [h] at hconcludes
        cases hconcludes
    · cases h
    · intro c' h
      obtain rfl := Except.ok.inj h
      exact hconcludes
  | error e =>
    rw [hfile] at hconfiguration
    have hrun := run_of_configurationError harguments hconfiguration
    refine ⟨fun e' => ?_, fun e' message h hmessage => ?_, fun c h => ?_⟩
    · rw [escapes_iff, hfile, hrun]
      cases hmessage : e.message? with
      | none =>
        simp only [Except.error.injEq, Escape.configuration.injEq, and_iff_left_iff_imp]
        rintro rfl
        exact hmessage
      | some message =>
        simp only [Except.error.injEq, reduceCtorEq, iff_false]
        rintro ⟨rfl, hnone⟩
        rw [hmessage] at hnone
        cases hnone
    · cases h
      rw [hrun, hmessage]
    · cases h

/-- A directory in the place of the file ends the run without an outcome. -/
theorem run_of_file_directory :
    run { file := fun _ => .error .directory, loader := emptyLoader, input := .ok [] }
        ["--config", "c.yaml"] = .error (.configuration (.unreadable .directory)) := by
  have h := (run_of_file emptyLoader "c.yaml" (.error .directory)).2.2.2.2
    { file := fun _ => .error .directory, loader := emptyLoader, input := .ok [] }
    ["--config", "c.yaml"] ⟨{ config := "c.yaml" }, .parse "" false⟩ (by rfl) (by decide)
    (by decide) rfl rfl
  exact (h.1 _).1 (.unreadable (by decide))

/-- Bytes that are no text give no configuration and no message, even if the loader fails only on
what is no document. -/
theorem not_reported_of_undecodable :
    ¬ ∀ (l : Loader) (path : String) (file : Except FileError (List UInt8)),
      (∀ bytes fault, l.load bytes = .ok (.error fault) → ∃ problem, fault = .malformed problem) →
      (∃ c, ofFile l path file = .ok c) ∨
        ∃ e message, ofFile l path file = .error e ∧ e.message? = some message := by
  intro h
  have hpatient : ∀ parts, emptyLoader.early? parts = none := fun _ => rfl
  -- the loader gives a result for every text, so it only fails on bytes that are none
  have hmalformed : ∀ bytes fault, emptyLoader.load bytes = .ok (.error fault) →
      ∃ problem, fault = .malformed problem := by
    intro bytes fault hload
    have hloaded := Loader.loadFrom_of_patient hpatient [] [] bytes
    split at hloaded
    · obtain ⟨e, he⟩ := hloaded
      cases hload.symm.trans he
    · obtain ⟨parts, -, hparts⟩ := hloaded
      cases hload.symm.trans hparts
  have hdecode : ∃ e, decode [0xff] = .error e := ⟨_, rfl⟩
  obtain ⟨e', hdecode⟩ := hdecode
  obtain ⟨e, hload⟩ := Loader.load_of_not_text hpatient hdecode
  have hfile : ofFile emptyLoader "config.yaml" (.ok [0xff]) = .error (.undecodable e) ∧
      (ConfigurationError.undecodable e).message? = none :=
    escapes_iff.1 (Escapes.undecodable hload)
  rcases h emptyLoader "config.yaml" (.ok [0xff]) hmalformed with ⟨c, hc⟩ | ⟨e'', message, he, hm⟩
  · rw [hfile.1] at hc
    cases hc
  · rw [hfile.1] at he
    obtain rfl := Except.error.inj he
    rw [hfile.2] at hm
    cases hm

end CommandLine

end CadenceEntry
