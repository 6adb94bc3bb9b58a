import CadenceEntry.Proofs.Configuration.Options
import Mathlib.Data.List.Perm.Subperm
import Mathlib.Tactic.MkIffOfInductiveProp

/-!
# The normal form of a configuration

A mapping gives a configuration by four of its entries, and an entry with a value that stands for
the default might as well be missing: `ofEntries_eq_ok_iff`. What a configuration is written as has
the entries that it cannot do without, so it is the smallest mapping that gives the configuration.
-/

set_option autoImplicit false

namespace CadenceEntry

/-- A key is found by the text that it is. -/
theorem Datum.sameAtom_text_iff {k : Datum} {key : String} :
    k.sameAtom (.text key) = true ↔ k = .text key := by
  cases k <;> simp [sameAtom, toInt?]

/-- A truth value counts as itself. -/
@[simp] theorem Datum.isTrue_bool (b : Bool) : (bool b).isTrue = b := rfl

namespace Configuration

/-- All options of a configuration, spelled out. -/
def values (c : Configuration Bool) : List (String × Datum) :=
  [("entry_points", .text c.entryPoints.name), ("include_program", .bool c.includeProgram),
    ("legacy_type_names", .bool c.legacyTypeNames), ("log_level", .text c.logLevel.name)]

/-- A value of an option stands for what a configuration has: the name of the policy, whatever
counts as the truth value, and whatever is the name of the level in upper case. -/
@[mk_iff] inductive Gives (c : Configuration Bool) : String → Datum → Prop
  | entryPoints : Gives c "entry_points" (.text c.entryPoints.name)
  | includeProgram {v : Datum} (h : v.isTrue = c.includeProgram) : Gives c "include_program" v
  | legacyTypeNames {v : Datum} (h : v.isTrue = c.legacyTypeNames) : Gives c "legacy_type_names" v
  | logLevel {v : Datum} (h : Text.toUppercase v.plain = c.logLevel.name) : Gives c "log_level" v

section

variable {c : Configuration Bool} {d d' : List (Datum × Datum)} {key : String} {v w : Datum}

/-- A value of the first option stands for the policy that it names. -/
@[simp] theorem gives_entryPoints_iff :
    c.Gives "entry_points" v ↔ Policy.ofDatum v = .ok c.entryPoints := by
  simp [gives_iff, Policy.ofDatum_eq_ok_iff]

/-- A value of the second option stands for what it counts as. -/
@[simp] theorem gives_includeProgram_iff :
    c.Gives "include_program" v ↔ v.isTrue = c.includeProgram := by
  simp [gives_iff]

/-- A value of the third option stands for what it counts as. -/
@[simp] theorem gives_legacyTypeNames_iff :
    c.Gives "legacy_type_names" v ↔ v.isTrue = c.legacyTypeNames := by
  simp [gives_iff]

/-- A value of the last option stands for the level that it names. -/
@[simp] theorem gives_logLevel_iff :
    c.Gives "log_level" v ↔ LogLevel.ofDatum v = .ok c.logLevel := by
  simp [gives_iff, LogLevel.ofDatum_eq_ok_iff]

/-- The options of a configuration, one by one. -/
theorem mem_values_iff :
    (key, v) ∈ c.values ↔ key = "entry_points" ∧ v = .text c.entryPoints.name ∨
      key = "include_program" ∧ v = .bool c.includeProgram ∨
      key = "legacy_type_names" ∧ v = .bool c.legacyTypeNames ∨
      key = "log_level" ∧ v = .text c.logLevel.name := by
  simp [values]

/-- Every configuration has every option. -/
theorem exists_mem_values (h : (key, v) ∈ c.values) (c' : Configuration Bool) :
    ∃ w, (key, w) ∈ c'.values := by
  have hkey : key ∈ c'.values.map Prod.fst := List.mem_map_of_mem (f := Prod.fst) h
  simpa using hkey

/-- What a configuration has, spelled out, stands for it. -/
theorem gives_of_mem_values (h : (key, v) ∈ c.values) : c.Gives key v := by
  rcases mem_values_iff.1 h with ⟨rfl, rfl⟩ | ⟨rfl, rfl⟩ | ⟨rfl, rfl⟩ | ⟨rfl, rfl⟩
  · exact .entryPoints
  · exact .includeProgram rfl
  · exact .legacyTypeNames rfl
  · exact .logLevel (LogLevel.toUppercase_name _)

/-- Some options give a configuration if they give each part of it. -/
theorem ofOptions_eq_ok_iff {φ : Type} {entryPoints logLevel : Option Datum}
    {includeProgram legacyTypeNames : φ} {c : Configuration φ} :
    ofOptions entryPoints logLevel includeProgram legacyTypeNames = .ok c ↔
      (entryPoints.map Policy.ofDatum).getD (.ok default.entryPoints) = .ok c.entryPoints ∧
      includeProgram = c.includeProgram ∧ legacyTypeNames = c.legacyTypeNames ∧
      (logLevel.map LogLevel.ofDatum).getD (.ok default.logLevel) = .ok c.logLevel := by
  obtain ⟨policy, isIncluded, isLegacy, level⟩ := c
  rw [ofOptions]
  cases (entryPoints.map Policy.ofDatum).getD (.ok default.entryPoints) with
  | error e => simp [bind, Except.bind]
  | ok p =>
    cases (logLevel.map LogLevel.ofDatum).getD (.ok default.logLevel) with
    | error e => simp [bind, Except.bind]
    | ok l => simp [bind, Except.bind, pure, Except.pure]

/-- A mapping gives a configuration if its entries do, where those that are missing have the default
value. -/
theorem ofEntries_eq_ok_iff :
    ofEntries d = .ok c ↔ ∀ e ∈ default.values, c.Gives e.1 ((valueIn d e.1).getD e.2) := by
  have hpolicy : Policy.ofDatum (.text default.entryPoints.name) = .ok default.entryPoints :=
    Policy.ofDatum_eq_ok_iff.2 rfl
  have hlevel : LogLevel.ofDatum (.text default.logLevel.name) = .ok default.logLevel :=
    LogLevel.ofDatum_eq_ok_iff.2 (LogLevel.toUppercase_name _)
  simp only [values, List.forall_mem_cons, List.not_mem_nil, false_implies, implies_true, and_true,
    gives_entryPoints_iff, gives_includeProgram_iff, gives_legacyTypeNames_iff, gives_logLevel_iff]
  rw [ofEntries, ofMapping, ofOptions_eq_ok_iff, ← hpolicy, ← hlevel, Option.getD_map,
    Option.getD_map, ← Datum.isTrue_bool default.includeProgram,
    ← Datum.isTrue_bool default.legacyTypeNames, Option.getD_map, Option.getD_map]
  exact Iff.rfl

/-- An option that may be missing can be used if it is missing or has a value that can be used. -/
theorem exists_getD_map_eq_ok_iff {β : Type} {f : Datum → Except OptionError β} {b : β}
    {v? : Option Datum} :
    (∃ x, (v?.map f).getD (.ok b) = .ok x) ↔ ∀ v ∈ v?, ∃ x, f v = .ok x := by
  cases v? <;> simp

/-- A mapping gives some configuration exactly if the policy and the level, where it has them, are
known ones. -/
theorem exists_ofEntries_eq_ok_iff :
    (∃ c, ofEntries d = .ok c) ↔
      (∀ v ∈ valueIn d "entry_points", ∃ p : Policy, v = .text p.name) ∧
        ∀ v ∈ valueIn d "log_level", ∃ l : LogLevel, Text.toUppercase v.plain = l.name := by
  have hchecks : (∃ c, ofEntries d = .ok c) ↔
      (∃ p, ((valueIn d "entry_points").map Policy.ofDatum).getD (.ok default.entryPoints) =
        .ok p) ∧
      ∃ l, ((valueIn d "log_level").map LogLevel.ofDatum).getD (.ok default.logLevel) =
        .ok l := by
    constructor
    · rintro ⟨c, hc⟩
      have hoptions := ofOptions_eq_ok_iff.1 hc
      exact ⟨⟨_, hoptions.1⟩, ⟨_, hoptions.2.2.2⟩⟩
    · rintro ⟨⟨p, hp⟩, l, hl⟩
      exact ⟨⟨p, _, _, l⟩, ofOptions_eq_ok_iff.2 ⟨hp, rfl, rfl, hl⟩⟩
  rw [hchecks, exists_getD_map_eq_ok_iff, exists_getD_map_eq_ok_iff]
  simp only [Policy.ofDatum_eq_ok_iff, LogLevel.ofDatum_eq_ok_iff]

/-- An option has the same value in two mappings, or in each of them it is missing or stands for the
default. -/
def Agree (key : String) (v? v?' : Option Datum) : Prop :=
  v?' = v? ∨ (∀ v ∈ v?, default.Gives key v) ∧ ∀ v ∈ v?', default.Gives key v

/-- What is read off an option that may be missing only depends on what it stands for. -/
theorem Agree.getD_map_eq {β : Type} {v? v?' : Option Datum} {f : Datum → β} {b : β}
    (h : Agree key v? v?') (hf : ∀ v, default.Gives key v → f v = b) :
    (v?'.map f).getD b = (v?.map f).getD b := by
  have hdefault : ∀ u? : Option Datum, (∀ v ∈ u?, default.Gives key v) → (u?.map f).getD b = b := by
    intro u? hu
    cases u? with
    | none => rfl
    | some v => exact hf v (hu v rfl)
  rcases h with rfl | ⟨hv, hv'⟩
  · rfl
  · rw [hdefault v? hv, hdefault v?' hv']

/-- Only the options matter, and only by what they stand for. -/
theorem ofEntries_congr
    (h : ∀ e ∈ default.values, Agree e.1 (valueIn d e.1) (valueIn d' e.1)) :
    ofEntries d' = ofEntries d := by
  simp only [values, List.forall_mem_cons, List.not_mem_nil, false_implies, implies_true,
    and_true] at h
  obtain ⟨hpolicy, hprogram, hlegacy, hlevel⟩ := h
  rw [ofEntries, ofEntries, ofMapping, ofMapping, ofOptions, ofOptions,
    hpolicy.getD_map_eq fun v => gives_entryPoints_iff.1,
    hprogram.getD_map_eq fun v => gives_includeProgram_iff.1,
    hlegacy.getD_map_eq fun v => gives_legacyTypeNames_iff.1,
    hlevel.getD_map_eq fun v => gives_logLevel_iff.1]

/-! ## What a configuration is written as -/

/-- The entry of an option, if it is written. -/
def entryIf (isWritten : Bool) (key : String) (v : Datum) : List (Datum × Datum) :=
  if isWritten then [(.text key, v)] else []

/-- A configuration is written as the mapping with its entries. -/
theorem ofJson_toJson (c : Configuration Bool) :
    Datum.ofJson (c.map Json.bool).toJson = .map c.entries := by
  rfl

/-- The entries of an object that is put together from two parts. -/
theorem ofJsonMembers_append (ms ms' : List (String × Json)) :
    Datum.ofJsonMembers (ms ++ ms') = Datum.ofJsonMembers ms ++ Datum.ofJsonMembers ms' := by
  induction ms with
  | nil => rfl
  | cons m ms ih => simp [Datum.ofJsonMembers, ih]

/-- An entry that is written only if it is needed. -/
theorem ofJsonMembers_ite {P : Prop} [Decidable P] {isWritten : Bool} {key : String} {v : Json}
    (h : P ↔ isWritten = false) :
    Datum.ofJsonMembers (if P then [] else [(key, v)]) =
      entryIf isWritten key (Datum.ofJson v) := by
  unfold entryIf
  by_cases hP : P
  · rw [if_pos hP, h.1 hP]
    rfl
  · rw [if_neg hP, if_pos (by simpa [h] using hP)]
    rfl

/-- An option is written if it differs from the default. -/
theorem entries_eq (c : Configuration Bool) :
    c.entries = entryIf (c.entryPoints != default.entryPoints) "entry_points"
        (.text c.entryPoints.name) ++
      entryIf (c.includeProgram != default.includeProgram) "include_program"
        (.bool c.includeProgram) ++
      entryIf (c.legacyTypeNames != default.legacyTypeNames) "legacy_type_names"
        (.bool c.legacyTypeNames) ++
      entryIf (c.logLevel != default.logLevel) "log_level" (.text c.logLevel.name) := by
  have hflag : ∀ a b : Bool, (Datum.ofJson (.bool a)).sameAtom (.bool b) ↔ (a != b) = false := by
    decide
  show Datum.ofJsonMembers (_ ++ _ ++ _ ++ _) = _
  rw [ofJsonMembers_append, ofJsonMembers_append, ofJsonMembers_append]
  refine congrArg₂ (· ++ ·) (congrArg₂ (· ++ ·) (congrArg₂ (· ++ ·) ?_ ?_) ?_) ?_
  · exact ofJsonMembers_ite bne_eq_false_iff_eq.symm
  · exact ofJsonMembers_ite (hflag _ _)
  · exact ofJsonMembers_ite (hflag _ _)
  · exact ofJsonMembers_ite bne_eq_false_iff_eq.symm

/-- An entry is there if it is written. -/
@[simp] theorem mem_entryIf_iff {e : Datum × Datum} {isWritten : Bool} :
    e ∈ entryIf isWritten key v ↔ isWritten = true ∧ e = (.text key, v) := by
  unfold entryIf
  split <;> simp [*]

/-- An option is in the mapping exactly if it differs from the default. -/
theorem mem_entries_iff {k : Datum} :
    (k, v) ∈ c.entries ↔
      ∃ key, k = .text key ∧ (key, v) ∈ c.values ∧ (key, v) ∉ default.values := by
  rw [entries_eq]
  constructor
  · intro h
    simp only [List.mem_append, mem_entryIf_iff, bne_iff_ne, Prod.mk.injEq] at h
    rcases h with ((⟨h, rfl, rfl⟩ | ⟨h, rfl, rfl⟩) | ⟨h, rfl, rfl⟩) | ⟨h, rfl, rfl⟩
    all_goals
      refine ⟨_, rfl, by simp [values], ?_⟩
      simpa [values, Policy.name_inj, LogLevel.name_inj] using h
  · rintro ⟨key, rfl, hv, hne⟩
    rcases mem_values_iff.1 hv with ⟨rfl, rfl⟩ | ⟨rfl, rfl⟩ | ⟨rfl, rfl⟩ | ⟨rfl, rfl⟩
    all_goals simpa [values, Policy.name_inj, LogLevel.name_inj] using hne

/-- The options that are written come in a fixed order. -/
theorem keys_entries_sublist (c : Configuration Bool) :
    (c.entries.map Prod.fst).Sublist (default.values.map fun e => .text e.1) := by
  have hpart : ∀ (isWritten : Bool) (key : String) (v : Datum),
      ((entryIf isWritten key v).map Prod.fst).Sublist [.text key] := by
    intro isWritten key v
    cases isWritten <;> simp [entryIf]
  rw [entries_eq, List.map_append, List.map_append, List.map_append]
  exact (((hpart _ _ _).append (hpart _ _ _)).append (hpart _ _ _)).append (hpart _ _ _)

/-- No key is written twice. -/
theorem nodup_keys_entries (c : Configuration Bool) : (c.entries.map Prod.fst).Nodup :=
  (keys_entries_sublist c).nodup (by simp [values])

/-- An option has one value. -/
theorem eq_of_mem_values (hv : (key, v) ∈ c.values) (hw : (key, w) ∈ c.values) : v = w := by
  rcases mem_values_iff.1 hv with ⟨rfl, rfl⟩ | ⟨rfl, rfl⟩ | ⟨rfl, rfl⟩ | ⟨rfl, rfl⟩
  all_goals
    rw [mem_values_iff] at hw
    simpa [eq_comm] using hw

/-- What is spelled out of one configuration stands for another one that has the same. -/
theorem mem_values_of_gives {c' : Configuration Bool} (hv : (key, v) ∈ c'.values)
    (h : c.Gives key v) : (key, v) ∈ c.values := by
  rcases mem_values_iff.1 hv with ⟨rfl, rfl⟩ | ⟨rfl, rfl⟩ | ⟨rfl, rfl⟩ | ⟨rfl, rfl⟩
  · rw [gives_entryPoints_iff, Policy.ofDatum_eq_ok_iff] at h
    simpa [values] using h
  · simpa [values] using gives_includeProgram_iff.1 h
  · simpa [values] using gives_legacyTypeNames_iff.1 h
  · rw [gives_logLevel_iff, LogLevel.ofDatum_eq_ok_iff] at h
    have hname := (LogLevel.toUppercase_name c'.logLevel).symm.trans h
    simpa [values] using hname

/-- The value that is found for a key stands in an entry with this key. -/
theorem mem_of_valueIn_eq_some (h : valueIn d key = some v) : (.text key, v) ∈ d := by
  rw [valueIn, Option.map_eq_some_iff] at h
  obtain ⟨⟨k, u⟩, hfind, rfl⟩ := h
  have hsame : k.sameAtom (.text key) = true :=
    List.find?_some (p := fun e : Datum × Datum => e.1.sameAtom (.text key)) hfind
  obtain rfl := Datum.sameAtom_text_iff.1 hsame
  exact List.mem_of_find?_eq_some hfind

/-- Where no value is found for a key, no entry has this key. -/
theorem notMem_of_valueIn_eq_none (h : valueIn d key = none) (v : Datum) : (.text key, v) ∉ d := by
  rw [valueIn, Option.map_eq_none_iff, List.find?_eq_none] at h
  intro hmem
  exact h _ hmem (Datum.sameAtom_text_iff.2 rfl)

/-- What is written of a configuration, with the default in the place of what is missing, is all of
it. -/
theorem getD_valueIn_entries (hv : (key, v) ∈ c.values) (hw : (key, w) ∈ default.values) :
    (valueIn c.entries key).getD w = v := by
  cases hvalue : valueIn c.entries key with
  | some u =>
    obtain ⟨key', hkey, hu, -⟩ := mem_entries_iff.1 (mem_of_valueIn_eq_some hvalue)
    cases hkey
    exact eq_of_mem_values hu hv
  | none =>
    have hnot := notMem_of_valueIn_eq_none hvalue v
    rw [mem_entries_iff] at hnot
    have hdefault : (key, v) ∈ default.values := by
      by_contra hne
      exact hnot ⟨key, rfl, hv, hne⟩
    exact eq_of_mem_values hw hdefault

/-- A configuration is given by the mapping that it is written as. -/
theorem ofEntries_entries (c : Configuration Bool) : ofEntries c.entries = .ok c := by
  rw [ofEntries_eq_ok_iff]
  rintro ⟨key, w⟩ hw
  obtain ⟨v, hv⟩ := exists_mem_values hw c
  rw [getD_valueIn_entries hv hw]
  exact gives_of_mem_values hv

/-- Every mapping that gives a configuration has the keys that it is written with. -/
theorem exists_mem_of_mem_entries {k : Datum} (h : ofEntries d = .ok c) (he : (k, v) ∈ c.entries) :
    ∃ u, (k, u) ∈ d := by
  obtain ⟨key, rfl, hv, hne⟩ := mem_entries_iff.1 he
  cases hvalue : valueIn d key with
  | some u => exact ⟨u, mem_of_valueIn_eq_some hvalue⟩
  | none =>
    -- the default would stand for what `c` has, so it would not be written
    exfalso
    obtain ⟨w, hw⟩ := exists_mem_values hv default
    have hgives := ofEntries_eq_ok_iff.1 h (key, w) hw
    rw [hvalue] at hgives
    have hw' := mem_values_of_gives hw hgives
    rw [eq_of_mem_values hv hw'] at hne
    exact hne hw

end

/-- A mapping gives the configuration that its options stand for, where one that is missing has the
default value. It gives one exactly if the policy, where there is one, is the name of a policy, and
the text of the level, where there is one, is the name of a level in upper case. Other keys do not
matter, and neither does an option whose value stands for the default. What a configuration is
written as gives it again, has exactly the options that differ from the default, and is the smallest
mapping that gives it. -/
theorem ofEntries_normalForm (d : List (Datum × Datum)) :
    (∀ c, ofEntries d = .ok c ↔
      ∀ e ∈ default.values, c.Gives e.1 ((valueIn d e.1).getD e.2)) ∧
    ((∃ c, ofEntries d = .ok c) ↔
      (∀ v ∈ valueIn d "entry_points", ∃ p : Policy, v = .text p.name) ∧
        ∀ v ∈ valueIn d "log_level", ∃ l : LogLevel, Text.toUppercase v.plain = l.name) ∧
    (∀ d', (∀ e ∈ default.values, Agree e.1 (valueIn d e.1) (valueIn d' e.1)) →
      ofEntries d' = ofEntries d) ∧
    ∀ c, ofEntries d = .ok c →
      Datum.ofJson (c.map Json.bool).toJson = .map c.entries ∧
      ofEntries c.entries = .ok c ∧
      (c.entries.map Prod.fst).Nodup ∧
      (∀ k v, (k, v) ∈ c.entries ↔
        ∃ key, k = .text key ∧ (key, v) ∈ c.values ∧ (key, v) ∉ default.values) ∧
      ∀ d', ofEntries d' = .ok c →
        (∀ e ∈ c.entries, ∃ v, (e.1, v) ∈ d') ∧ c.entries.length ≤ d'.length := by
  refine ⟨fun c => ofEntries_eq_ok_iff, exists_ofEntries_eq_ok_iff, fun d' h => ofEntries_congr h,
    fun c _ => ?_⟩
  refine ⟨ofJson_toJson c, ofEntries_entries c, nodup_keys_entries c, fun k v => mem_entries_iff,
    fun d' h => ?_⟩
  have hkeys : ∀ e ∈ c.entries, ∃ v, (e.1, v) ∈ d' := by
    rintro ⟨k, v⟩ he
    exact exists_mem_of_mem_entries h he
  refine ⟨hkeys, ?_⟩
  have hsubset : c.entries.map Prod.fst ⊆ d'.map Prod.fst := by
    intro k hk
    obtain ⟨e, he, rfl⟩ := List.mem_map.1 hk
    obtain ⟨v, hv⟩ := hkeys e he
    exact List.mem_map.2 ⟨(e.1, v), hv, rfl⟩
  simpa using ((nodup_keys_entries c).subperm hsubset).length_le

/-- A mapping that spells one option otherwise, another one out, and has a key of its own. -/
def spelledOut : List (Datum × Datum) :=
  [(.int 3, .null), (.text "log_level", .text "debug"), (.text "include_program", .float .nan)]

/-- The one entry that matters is enough, and there must be one. -/
theorem ofEntries_normalForm_spelledOut :
    ofEntries [(.text "log_level", .text "debug")] = ofEntries spelledOut ∧
      ∀ d, ofEntries d = .ok { default with logLevel := .debug } → 1 ≤ d.length := by
  have h := ofEntries_normalForm spelledOut
  have hspelledOut : ofEntries spelledOut = .ok { default with logLevel := .debug } := by
    rfl
  constructor
  · apply h.2.2.1
    simp [values, Agree, valueIn, spelledOut, Datum.sameAtom, Datum.toInt?, Datum.isTrue]
    rfl
  · intro d hd
    exact ((h.2.2.2 _ hspelledOut).2.2.2.2 d hd).2

end Configuration

end CadenceEntry
