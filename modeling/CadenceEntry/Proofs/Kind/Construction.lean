import CadenceEntry.Kind.Table
import Mathlib.Data.List.Induction
import Mathlib.Data.List.Lattice
import Mathlib.Data.List.Nodup
import Mathlib.Data.List.Pairwise

/-!
# What a kind table is built from

The groups are gone through name by name, and a table is what has been added so far. Names that are
all new are added in their order (`addAll_append`), and the first one that is not new ends the run
(`addAll_of_repeats`). So a table comes of groups that list every name once, and only for such
groups it is asked which names are missing.
-/

set_option autoImplicit false

namespace CadenceEntry.KindTable

variable {κ : Type}

section Lookup

variable {t : KindTable κ} {name : String} {k : κ}

/-- A name has no kind exactly if the table does not list it. -/
theorem kind?_eq_none_iff : t.kind? name = none ↔ name ∉ t.entries.map Prod.fst := by
  rw [kind?, List.lookup_eq_none_iff, List.mem_map]
  constructor
  · rintro h ⟨e, he, rfl⟩
    exact bne_iff_ne.1 (h e he) rfl
  · intro h e he
    rw [bne_iff_ne]
    rintro rfl
    exact h ⟨e, he, rfl⟩

/-- A kind that is found for a name is listed with it. -/
theorem mem_of_kind?_eq_some (h : t.kind? name = some k) : (name, k) ∈ t.entries := by
  obtain ⟨before, after, heq, -⟩ := List.lookup_eq_some_iff.1 h
  rw [heq]
  exact List.mem_append_right _ List.mem_cons_self

/-- A table without repeated names gives each the kind that it is listed with. -/
theorem kind?_eq_some_iff (hnodup : (t.entries.map Prod.fst).Nodup) :
    t.kind? name = some k ↔ (name, k) ∈ t.entries := by
  refine ⟨mem_of_kind?_eq_some, fun hmem => ?_⟩
  obtain ⟨before, after, heq⟩ := List.append_of_mem hmem
  refine List.lookup_eq_some_iff.2 ⟨before, after, heq, fun x hx => ?_⟩
  rw [heq, List.map_append, List.nodup_append] at hnodup
  rw [bne_iff_ne]
  intro hname
  exact hnodup.2.2 x.1 (List.mem_map_of_mem hx) name (List.mem_map_of_mem List.mem_cons_self)
    hname.symm

end Lookup

/-- The first entry whose name has occurred before is that of `name` with the kind `again`, and
before that the name has occurred with the kind `first`. -/
def Repeats (entries : List (String × κ)) (name : String) (first again : κ) : Prop :=
  ∃ seen rest, entries = seen ++ (name, again) :: rest ∧
    (seen.map Prod.fst).Nodup ∧ (name, first) ∈ seen

section Run

variable {entries : List (String × κ)} {name : String} {first again : κ}

/-- If some name occurs twice, there is a first one that has occurred before. -/
theorem exists_repeats (h : ¬ (entries.map Prod.fst).Nodup) :
    ∃ name first again, Repeats entries name first again := by
  -- the last entry is the first to repeat a name only if no entry before it does
  induction entries using List.reverseRecOn with
  | nil => exact absurd List.nodup_nil h
  | append_singleton entries e ih =>
    obtain ⟨name, again⟩ := e
    by_cases hnodup : (entries.map Prod.fst).Nodup
    · have hmem : name ∈ entries.map Prod.fst := by
        by_contra hnew
        apply h
        rw [List.map_append, List.map_singleton, ← List.concat_eq_append]
        exact hnodup.concat hnew
      obtain ⟨⟨name, first⟩, hfirst, rfl⟩ := List.mem_map.1 hmem
      exact ⟨name, first, again, entries, [], rfl, hnodup, hfirst⟩
    · obtain ⟨name', first, again', seen, rest, rfl, hseen, hfirst⟩ := ih hnodup
      refine ⟨name', first, again', seen, rest ++ [(name, again)], ?_, hseen, hfirst⟩
      rw [List.append_assoc, List.cons_append]

/-- Entries whose names are all new are added in their order. -/
theorem addAll_append {seen new : List (String × κ)} (h : ((seen ++ new).map Prod.fst).Nodup)
    (rest : List (String × κ)) : addAll ⟨seen⟩ (new ++ rest) = addAll ⟨seen ++ new⟩ rest := by
  induction new generalizing seen with
  | nil => rw [List.nil_append, List.append_nil]
  | cons e new ih =>
    obtain ⟨name, k⟩ := e
    have hnew : kind? ⟨seen⟩ name = none := by
      rw [kind?_eq_none_iff]
      intro hmem
      rw [List.map_append, List.nodup_append] at h
      exact h.2.2 name hmem name List.mem_cons_self rfl
    rw [List.append_cons] at h ⊢
    rw [List.cons_append, addAll, hnew]
    dsimp only
    exact ih h

/-- Names that differ are added one after the other. -/
theorem addAll_of_nodup (h : (entries.map Prod.fst).Nodup) :
    addAll ⟨[]⟩ entries = .ok ⟨entries⟩ := by
  have hrun : addAll ⟨[]⟩ (entries ++ []) = addAll ⟨entries⟩ [] := addAll_append h []
  rw [List.append_nil] at hrun
  exact hrun

/-- The first name that has occurred before ends the run. -/
theorem addAll_of_repeats (h : Repeats entries name first again) :
    addAll ⟨[]⟩ entries = .error (.repeated name first again) := by
  obtain ⟨seen, rest, rfl, hseen, hfirst⟩ := h
  have hrun : addAll ⟨[]⟩ (seen ++ (name, again) :: rest) =
      addAll ⟨seen⟩ ((name, again) :: rest) := addAll_append hseen _
  have hkind : kind? ⟨seen⟩ name = some first := (kind?_eq_some_iff hseen).2 hfirst
  rw [hrun, addAll, hkind]

end Run

/-- No name is listed twice, by one of the groups or by two of them. -/
structure ListedOnce (groups : List (κ × List String)) : Prop where
  within : ∀ g ∈ groups, g.2.Nodup
  between : groups.Pairwise fun g g' => g.2.Disjoint g'.2

/-- The required names that no group lists. -/
def missingNames (groups : List (κ × List String)) (required : List String) : List String :=
  required.filter fun name => ∀ g ∈ groups, name ∉ g.2

section Groups

variable {groups : List (κ × List String)} {required : List String} {name : String}
  {first again : κ}

/-- The names that are listed are the names of the groups. -/
theorem map_fst_listed (groups : List (κ × List String)) :
    (listed groups).map Prod.fst = groups.flatMap Prod.snd := by
  unfold listed
  rw [List.map_flatMap]
  simp [Function.comp_def]

/-- A name is listed with the kind of a group that has it. -/
theorem mem_listed_iff {k : κ} :
    (name, k) ∈ listed groups ↔ ∃ g ∈ groups, name ∈ g.2 ∧ g.1 = k := by
  simp [listed]

/-- Every name is listed once if the names in their order are all different. -/
theorem nodup_map_fst_listed_iff : ((listed groups).map Prod.fst).Nodup ↔ ListedOnce groups := by
  rw [map_fst_listed, List.nodup_flatMap]
  exact ⟨fun h => ⟨h.1, h.2⟩, fun h => ⟨h.within, h.between⟩⟩

/-- A name that is listed once belongs to one group. -/
theorem ListedOnce.eq_of_mem (h : ListedOnce groups) {g g' : κ × List String} (hg : g ∈ groups)
    (hg' : g' ∈ groups) (hname : name ∈ g.2) (hname' : name ∈ g'.2) : g' = g := by
  by_contra hne
  have hsymm : Std.Symm fun g g' : κ × List String => g.2.Disjoint g'.2 :=
    ⟨fun _ _ hdisjoint => hdisjoint.symm⟩
  exact h.between.forall hg hg' (Ne.symm hne) hname hname'

/-- No kind is found for a name that no group has. -/
theorem kind?_listed_eq_none_iff :
    kind? ⟨listed groups⟩ name = none ↔ ∀ g ∈ groups, name ∉ g.2 := by
  rw [kind?_eq_none_iff, map_fst_listed, List.mem_flatMap]
  simp only [not_exists, not_and]

/-- A table of groups that list every name once gives each the kind of its group. -/
theorem ListedOnce.kind?_listed (h : ListedOnce groups) {g : κ × List String} (hg : g ∈ groups)
    (hname : name ∈ g.2) : kind? ⟨listed groups⟩ name = some g.1 :=
  (kind?_eq_some_iff (nodup_map_fst_listed_iff.2 h)).2 (mem_listed_iff.2 ⟨g, hg, hname, rfl⟩)

/-- No name is missing if every required name is in a group. -/
theorem missingNames_eq_nil_iff :
    missingNames groups required = [] ↔ ∀ name ∈ required, ∃ g ∈ groups, name ∈ g.2 := by
  simp [missingNames]

/-- The names that are not found in the table are the ones that no group lists. -/
theorem filter_isNone_kind?_listed (groups : List (κ × List String)) (required : List String) :
    (required.filter fun name => (kind? ⟨listed groups⟩ name).isNone) =
      missingNames groups required := by
  apply List.filter_congr
  intro name _
  rw [Bool.eq_iff_iff, Option.isNone_iff_eq_none, kind?_listed_eq_none_iff, decide_eq_true_iff]

/-- A repeated name is reported whatever is missing. -/
theorem build_of_repeats (h : Repeats (listed groups) name first again) (required : List String) :
    build groups required = .error (.repeated name first again) := by
  rw [build, addAll_of_repeats h]

/-- Groups without a repeated name give their table, if no required name is missing. -/
theorem ListedOnce.build_eq (h : ListedOnce groups) (required : List String) :
    build groups required =
      if missingNames groups required = [] then .ok ⟨listed groups⟩
      else .error (.missing (missingNames groups required)) := by
  rw [build, addAll_of_nodup (nodup_map_fst_listed_iff.2 h)]
  dsimp only
  rw [filter_isNone_kind?_listed]
  cases missingNames groups required with
  | nil => rfl
  | cons name names => rfl

/-- A name is repeated, or names are missing, or there is a table. -/
theorem build_cases (groups : List (κ × List String)) (required : List String) :
    (¬ ListedOnce groups ∧ ∃ name first again, Repeats (listed groups) name first again ∧
      build groups required = .error (.repeated name first again)) ∨
    (ListedOnce groups ∧ missingNames groups required ≠ [] ∧
      build groups required = .error (.missing (missingNames groups required))) ∨
    (ListedOnce groups ∧ missingNames groups required = [] ∧
      build groups required = .ok ⟨listed groups⟩) := by
  by_cases honce : ListedOnce groups
  · have hbuild := honce.build_eq required
    by_cases hmissing : missingNames groups required = []
    · rw [if_pos hmissing] at hbuild
      exact .inr (.inr ⟨honce, hmissing, hbuild⟩)
    · rw [if_neg hmissing] at hbuild
      exact .inr (.inl ⟨honce, hmissing, hbuild⟩)
  · obtain ⟨name, first, again, hrepeats⟩ := exists_repeats (mt nodup_map_fst_listed_iff.1 honce)
    exact .inl ⟨honce, name, first, again, hrepeats, build_of_repeats hrepeats required⟩

/-- A table that is built lists the names of its groups, each once. -/
theorem eq_listed_of_build_eq_ok {t : KindTable κ} (h : build groups required = .ok t) :
    ListedOnce groups ∧ missingNames groups required = [] ∧ t = ⟨listed groups⟩ := by
  rcases build_cases groups required with ⟨-, _, _, _, -, hbuild⟩ | ⟨-, -, hbuild⟩ |
    ⟨honce, hmissing, hbuild⟩
  · rw [hbuild] at h
    cases h
  · rw [hbuild] at h
    cases h
  · rw [hbuild] at h
    cases h
    exact ⟨honce, hmissing, rfl⟩

end Groups

/-- The result that follows from some groups and from the names that they must list. The kinds of
the groups need not be different. -/
structure FollowsGroups (groups : List (TypeKind × List String)) (required : List String)
    (result : Except (KindTableError TypeKind) (KindTable TypeKind)) : Prop where
  exists_ok_iff : (∃ t, result = .ok t) ↔
    ListedOnce groups ∧ ∀ name ∈ required, ∃ g ∈ groups, name ∈ g.2
  entries_eq : ∀ t, result = .ok t → t.entries = groups.flatMap fun g => g.2.map (·, g.1)
  kind_of_mem : ∀ t, result = .ok t → ∀ g ∈ groups, ∀ name ∈ g.2,
    t.kind name = g.1 ∧ ∀ g' ∈ groups, name ∈ g'.2 → g' = g
  kind_of_notMem : ∀ t, result = .ok t → ∀ name, (∀ g ∈ groups, name ∉ g.2) →
    t.kind name = .unknown
  exists_repeated_iff : (∃ name first again, result = .error (.repeated name first again)) ↔
    ¬ ListedOnce groups
  repeated_iff : ∀ name first again, result = .error (.repeated name first again) ↔
    Repeats (groups.flatMap fun g => g.2.map (·, g.1)) name first again
  missing_iff : ∀ names, result = .error (.missing names) ↔
    ListedOnce groups ∧ names ≠ [] ∧ names = missingNames groups required
  repeated_message : ∀ name first again,
    Repeats (groups.flatMap fun g => g.2.map (·, g.1)) name first again →
      ∃ e, result = .error e ∧ e.message TypeKind.name = "type name " ++ Text.quoted name ++
        " listed under both " ++ first.name ++ " and " ++ again.name
  missing_message : ListedOnce groups → missingNames groups required ≠ [] →
    ∃ e, result = .error e ∧ e.message TypeKind.name =
      "type table is missing " ++ ", ".intercalate (missingNames groups required)

/-- A table is built exactly if every name is listed once and every required name is listed. It has
the names in the order of the groups and gives each the kind of its group, and every other name is
unknown. Otherwise the first name that has occurred before is reported with the kinds of both
occurrences, and only without such a name all that are missing, as they are required. -/
theorem build_followsGroups (groups : List (TypeKind × List String)) (required : List String) :
    FollowsGroups groups required (build groups required) where
  exists_ok_iff := by
    rw [← missingNames_eq_nil_iff]
    constructor
    · rintro ⟨t, ht⟩
      obtain ⟨honce, hmissing, -⟩ := eq_listed_of_build_eq_ok ht
      exact ⟨honce, hmissing⟩
    · rintro ⟨honce, hmissing⟩
      exact ⟨_, (honce.build_eq required).trans (if_pos hmissing)⟩
  entries_eq t ht := by
    obtain ⟨-, -, rfl⟩ := eq_listed_of_build_eq_ok ht
    rfl
  kind_of_mem t ht g hg name hname := by
    obtain ⟨honce, -, rfl⟩ := eq_listed_of_build_eq_ok ht
    refine ⟨?_, fun g' hg' hname' => honce.eq_of_mem hg hg' hname hname'⟩
    rw [kind, honce.kind?_listed hg hname, Option.getD_some]
  kind_of_notMem t ht name hname := by
    obtain ⟨-, -, rfl⟩ := eq_listed_of_build_eq_ok ht
    rw [kind, kind?_listed_eq_none_iff.2 hname, Option.getD_none]
  exists_repeated_iff := by
    rcases build_cases groups required with ⟨hnot, name, first, again, -, hbuild⟩ |
      ⟨honce, -, hbuild⟩ | ⟨honce, -, hbuild⟩
    · exact ⟨fun _ => hnot, fun _ => ⟨name, first, again, hbuild⟩⟩
    all_goals
      rw [hbuild]
      simp [honce]
  repeated_iff name first again := by
    refine ⟨fun h => ?_, fun h => build_of_repeats h required⟩
    rcases build_cases groups required with ⟨-, _, _, _, hrepeats, hbuild⟩ | ⟨-, -, hbuild⟩ |
      ⟨-, -, hbuild⟩
    all_goals
      rw [hbuild] at h
      cases h
    exact hrepeats
  missing_iff names := by
    rcases build_cases groups required with ⟨hnot, _, _, _, -, hbuild⟩ |
      ⟨honce, hmissing, hbuild⟩ | ⟨-, hmissing, hbuild⟩
    all_goals rw [hbuild]
    · simp [hnot]
    · constructor
      · intro h
        cases h
        exact ⟨honce, hmissing, rfl⟩
      · rintro ⟨-, -, rfl⟩
        rfl
    · simp [hmissing]
  repeated_message name first again h := ⟨_, build_of_repeats h required, rfl⟩
  missing_message honce hmissing :=
    ⟨_, (honce.build_eq required).trans (if_neg hmissing), rfl⟩

example : build [(TypeKind.array, ["A"]), (.dictionary, ["B", "B"]), (.unknown, ["A"])] ["C"] =
    .error (.repeated "B" .dictionary .dictionary) := by
  rfl

end CadenceEntry.KindTable
