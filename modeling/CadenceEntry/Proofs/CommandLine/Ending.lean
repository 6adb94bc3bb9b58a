import CadenceEntry.Proofs.CommandLine.Logging
import CadenceEntry.Yaml.Loader

/-!
# How a run ends

The exit status of a run and what is on its standard output always fit together, and neither depends
on how much is reported: `ends_of_run`.
-/

set_option autoImplicit false

namespace CadenceEntry.CommandLine

/-- A run that is not asked for help ends with the status 0 and one document and a line feed; with
the status 1 or 2 and nothing on the standard output; or, exactly if the standard output fails while
the document is written, with the status 1 or 120 and what has arrived of it. The status is 2
exactly if the command line is wrong. An error in what is classified is in the document of a run
that ends well, if the answer can be written; where the source text cannot be read, the answer not
be written or the configuration not be used, the status is 1 and nothing is written. Neither asking
for a log of everything nor another level of the log makes a difference. -/
theorem ends_of_run (env : Environment) {words : List String}
    (hhelp : ∀ usage, argumentsOf words ≠ .error (.help usage)) :
    Ends env words (ending env words).1 (ending env words).2 ∧
      ((ending env words).1 = 2 ↔
        ∃ usage fault, argumentsOf words = .error (.wrong usage fault)) ∧
      (∀ a, argumentsOf words = .ok a →
        (∀ c m, configurationOf env a.settings = .ok c → Reports env c a.command m →
          ∃ v, answer env c a.command = .ok v ∧
            (a.settings.CanWrite v → (∀ bytes, env.output bytes = .complete) →
              ∃ document, ending env words = (0, bytesOf (document ++ "\n")) ∧
                a.settings.ShowsError m document) ∧
            (¬ a.settings.CanWrite v → ending env words = (1, []))) ∧
        (Unread env a.command ∨ (∃ e, configurationOf env a.settings = .error e) →
          ending env words = (1, [])) ∧
        ((∀ bytes, env.output bytes ≠ .complete) →
          (ending env words).1 = 1 ∨ (ending env words).1 = 120) ∧
        ∀ env', Relogged env env' a → ending env' words = ending env words) ∧
      ending env ("-v" :: words) = ending env words := by
  refine ⟨ends_ending env hhelp, ending_eq_two_iff env hhelp, ?_, ending_verbose env words⟩
  intro a harguments
  refine ⟨?_, ?_, ending_of_incomplete harguments,
    fun env' henv => ending_of_relogged harguments henv⟩
  · intro c m hconfiguration hreports
    obtain ⟨v, hanswer, hwrite, hnot⟩ := ending_of_reports harguments hconfiguration hreports
    refine ⟨v, hanswer, fun hcan houtput => ?_, hnot⟩
    obtain ⟨document, hshows, hending⟩ := hwrite hcan
    refine ⟨document, ?_, hshows⟩
    rw [hending]
    unfold delivered
    rw [houtput]
  · rintro (hunread | ⟨e, he⟩)
    · exact ending_of_unread harguments hunread
    · exact ending_of_configurationError harguments he

/-- A configuration file with a level of the log, and a source file with two transactions. -/
def leveledEnvironment (level : String) : Environment where
  file := fun path =>
    if path = "c.yaml" then .ok ("log_level: " ++ level ++ "\n").toUTF8.toList
    else if path = "x.cdc" then .ok "transaction \x7b\x7d transaction \x7b\x7d".toUTF8.toList
    else .error .missing
  loader := Yaml.loader
  input := .error "closed"

/-- Whether the text of a configuration file is read, says nothing about classifying and gives no
level of the log that there is not. -/
def setsLevelOnly (text : String) : Bool :=
  match Yaml.loader.load text.toUTF8.toList with
  | .ok (.ok (.mapping value?)) =>
    Configuration.classifying.all (fun key => (value? key).isNone) &&
      (value? "log_level").all fun v => (LogLevel.ofDatum v).toOption.isSome
  | _ => false

/-- Such a file holds a mapping that says as much. -/
theorem exists_holds_of_setsLevelOnly (text : String) (h : setsLevelOnly text = true) :
    ∃ value?, Configuration.Holds Yaml.loader (.ok text.toUTF8.toList) value? ∧
      (∀ key ∈ Configuration.classifying, value? key = none) ∧
      ∀ v ∈ value? "log_level", ∃ l, LogLevel.ofDatum v = .ok l := by
  unfold setsLevelOnly at h
  split at h
  · next value? hload =>
    rw [Bool.and_eq_true] at h
    obtain ⟨hkeys, hlevel⟩ := h
    refine ⟨value?, ⟨_, rfl, hload⟩, ?_, ?_⟩
    · intro key hkey
      exact Option.isNone_iff_eq_none.1 (List.all_eq_true.1 hkeys key hkey)
    · intro v hv
      rw [hv] at hlevel
      cases hl : LogLevel.ofDatum v with
      | ok l => exact ⟨l, rfl⟩
      | error e =>
        rw [Option.all_some, hl] at hlevel
        cases hlevel
  · cases h

/-- The configuration files that differ in the level of the log. -/
theorem relogged_leveledEnvironment {a : Arguments} (hconfig : a.settings.config = "c.yaml")
    (hcommand : a.command = .parse "x.cdc" false) :
    Relogged (leveledEnvironment "info") (leveledEnvironment "DEBUG") a := by
  obtain ⟨value?, hholds₁, hkeys, hlevel⟩ :=
    exists_holds_of_setsLevelOnly "log_level: info\n" (by decide +kernel)
  obtain ⟨value?', hholds₂, hkeys', hlevel'⟩ :=
    exists_holds_of_setsLevelOnly "log_level: DEBUG\n" (by decide +kernel)
  have hpath : Path.normalize "c.yaml" = "c.yaml" := by decide
  constructor
  · rw [hconfig, hpath]
    refine .intro hholds₁ hholds₂ (fun key hkey => ?_) hlevel hlevel'
    rw [hkeys key hkey, hkeys' key hkey]
  · rfl
  · intro path hne
    rw [hconfig, hpath] at hne
    unfold leveledEnvironment
    dsimp only
    rw [if_neg hne, if_neg hne]
  · intro path noProgram hparse _
    rw [hcommand] at hparse
    cases hparse
    rw [hconfig]
    decide
  · rfl
  · rfl

/-- The message about the entry points of a source text, if that is a program and they are wrong. -/
def refusal? (policy : Policy) (source : String) : Option String :=
  match Program.parse source with
  | .ok p =>
    match p.entryPoint policy with
    | .error e => some e.message
    | .ok _ => none
  | .error _ => none

/-- Such a message is reported. -/
theorem reports_of_refusal? {env : Environment} {c : Configuration Bool} {path source m : String}
    {noProgram : Bool} (hsource : sourceText env path = .ok source)
    (h : refusal? c.entryPoints source = some m) : Reports env c (.parse path noProgram) m := by
  unfold refusal? at h
  split at h
  · next p hp =>
    split at h
    · next e he =>
      obtain rfl := Option.some.inj h
      exact .entryPoint hsource hp he
    · cases h
  · cases h

/-- A program with two transactions, where at most one is wanted, with logs of several levels. -/
theorem ends_of_run_duplicate :
    ∃ document,
      ending (leveledEnvironment "info") ["-c", "c.yaml", "--strict", "parse", "-f", "x.cdc"] =
        (0, bytesOf (document ++ "\n")) ∧
      (∃ fields, Json.Faithful none (.object fields) document ∧ fields.lookup "error" =
        some (.string "program declares 2 transaction declarations, expected at most one")) ∧
      ending (leveledEnvironment "info")
          ["-v", "-c", "c.yaml", "--strict", "parse", "-f", "x.cdc"] =
        (0, bytesOf (document ++ "\n")) ∧
      ending (leveledEnvironment "DEBUG") ["-c", "c.yaml", "--strict", "parse", "-f", "x.cdc"] =
        (0, bytesOf (document ++ "\n")) := by
  have harguments : argumentsOf ["-c", "c.yaml", "--strict", "parse", "-f", "x.cdc"] =
      .ok { settings := { config := "c.yaml", isStrict := true }, command := .parse "x.cdc" } := by
    decide
  have hconfiguration : configurationOf (leveledEnvironment "info")
      { config := "c.yaml", isStrict := true } = .ok ⟨.strict, true, false, .info⟩ := by
    decide +kernel
  have hsource : sourceText (leveledEnvironment "info") "x.cdc" =
      .ok "transaction \x7b\x7d transaction \x7b\x7d" := by
    decide +kernel
  have hrefusal : refusal? .strict "transaction \x7b\x7d transaction \x7b\x7d" =
      some "program declares 2 transaction declarations, expected at most one" := by
    decide +kernel
  have hintegers : (sourceAnswer ⟨.strict, true, false, .info⟩
      "transaction \x7b\x7d transaction \x7b\x7d").IntegersFit := by
    rw [← Json.all_hasDecimal_iff]
    decide +kernel
  have hreports : Reports (leveledEnvironment "info") ⟨.strict, true, false, .info⟩
      (.parse "x.cdc") "program declares 2 transaction declarations, expected at most one" :=
    reports_of_refusal? hsource hrefusal
  have hhelp : ∀ usage, argumentsOf ["-c", "c.yaml", "--strict", "parse", "-f", "x.cdc"] ≠
      .error (.help usage) := by
    intro usage h
    rw [harguments] at h
    cases h
  obtain ⟨-, -, hall, hverbose⟩ := ends_of_run (leveledEnvironment "info") hhelp
  obtain ⟨hreported, -, -, hrelogged⟩ := hall _ harguments
  obtain ⟨v, hanswer, hwrite, -⟩ := hreported _ _ hconfiguration hreports
  obtain rfl : sourceAnswer _ "transaction \x7b\x7d transaction \x7b\x7d" = v := by
    have hsourceAnswer := congrArg (Except.map (sourceAnswer ⟨.strict, true, false, .info⟩)) hsource
    exact Except.ok.inj (hsourceAnswer.symm.trans hanswer)
  obtain ⟨document, hending, hshows⟩ :=
    hwrite (.inr ⟨by simp [Json.IndentInRange], hintegers⟩) fun _ => rfl
  refine ⟨document, hending, hshows, ?_, ?_⟩
  · exact hverbose.trans hending
  · exact (hrelogged _ (relogged_leveledEnvironment rfl rfl)).trans hending

/-- An error in what is classified is not always in a document: the answer to a type that is none is
not written with a negative indent that is no number of the machine. -/
theorem not_reported_of_hugeIndent :
    ¬ ∀ (env : Environment) (words : List String) (a : Arguments) (c : Configuration Bool)
      (m : String), argumentsOf words = .ok a → configurationOf env a.settings = .ok c →
      Reports env c a.command m → (∀ bytes, env.output bytes = .complete) →
      ∃ document, ending env words = (0, bytesOf (document ++ "\n")) := by
  intro h
  have harguments : argumentsOf ["--indent", "-100000000000000000000", "classify-type", "["] =
      .ok { settings := { indent := some (-100000000000000000000) },
            command := .classifyType "[" } := by
    decide +kernel
  have hparse : ∃ e, TypeExpr.parse "[" = .error e := by
    have hrefused : (TypeExpr.parse "[").toOption.isNone = true := by decide +kernel
    cases hparse : TypeExpr.parse "[" with
    | error e => exact ⟨e, rfl⟩
    | ok t =>
      rw [hparse] at hrefused
      cases hrefused
  obtain ⟨e, he⟩ := hparse
  have hreports : Reports scriptEnvironment Configuration.default (.classifyType "[") e.message :=
    .type he
  obtain ⟨document, hending⟩ :=
    h scriptEnvironment _ _ Configuration.default _ harguments rfl hreports fun _ => rfl
  obtain ⟨v, -, -, hnot⟩ := ending_of_reports harguments rfl hreports
  have hcannot : ¬ Settings.CanWrite { indent := some (-100000000000000000000) } v := by
    simp [Settings.CanWrite, Json.IndentInRange]
  rw [hnot hcannot] at hending
  cases hending

end CadenceEntry.CommandLine
