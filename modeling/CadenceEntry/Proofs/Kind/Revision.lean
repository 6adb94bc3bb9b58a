import CadenceEntry.Proofs.Descriptor.Kinds

/-!
# What distinguishes the table of old from the current one

Both tables are built from the same groups but for the numeric names. The `Word` types are missing
among the numeric names of old, and `UFix64` is spelled in another way there. So a name has
different kinds only if it is one of these: then one table lists it as numeric and the other one
does not know it (`revises_kind?`).
-/

set_option autoImplicit false

namespace CadenceEntry.KindTable

/-- The names of the current table that begin with `Word`. -/
def IsWordName (name : String) : Prop :=
  "Word".toList <+: name.toList ∧ (current.kind? name).isSome

/-- The names that are listed in one of the two tables only. -/
def IsRevised (name : String) : Prop := name = "UFix64" ∨ name = "UFIx64" ∨ IsWordName name

/-- The kinds of a name in the current table and in the table of old. -/
inductive Revises (name : String) : Option ScalarKind → Option ScalarKind → Prop
  | kept (k? : Option ScalarKind) (h : ¬ IsRevised name) : Revises name k? k?
  | dropped (h : IsRevised name) : Revises name (some .numeric) none
  | added (h : IsRevised name) : Revises name none (some .numeric)

/-- Names that are all of one kind. -/
theorem lookup_map_pair {κ : Type} (names : List String) (k : κ) (name : String) :
    (names.map (·, k)).lookup name = if name ∈ names then some k else none := by
  induction names with
  | nil => rfl
  | cons n names ih =>
    rw [List.map_cons, List.lookup_cons, ih]
    by_cases hname : name = n
    · simp [hname]
    · simp [hname, beq_false_of_ne hname]

/-- The kind of a name in a table with the numeric names `names`: what the other groups say, and if
they do not list it, numeric if it is one of `names`. -/
theorem kind?_groupsWith (names : List String) (name : String) :
    kind? ⟨listed (groupsWith names)⟩ name =
      (kind? ⟨listed (groupsWith [])⟩ name).or
        (if name ∈ names then some ScalarKind.numeric else none) := by
  have hlisted : listed (groupsWith names) =
      listed (groupsWith []) ++ names.map (·, ScalarKind.numeric) := by
    simp [listed, groupsWith]
  unfold kind?
  rw [hlisted, List.lookup_append, lookup_map_pair]

/-- The `Word` names of the current table are the ones with the sizes of the integer types. -/
theorem isWordName_iff {name : String} :
    IsWordName name ↔ name ∈ integerSizes.map ("Word" ++ ·) := by
  have hall : ∀ x ∈ current.entries, "Word".toList <+: x.1.toList →
      x.1 ∈ integerSizes.map ("Word" ++ ·) := by
    decide
  have hwords : ∀ n ∈ integerSizes.map ("Word" ++ ·),
      "Word".toList <+: n.toList ∧ (current.kind? n).isSome := by
    decide
  refine ⟨fun ⟨hstart, hlisted⟩ => ?_, hwords name⟩
  obtain ⟨k, hk⟩ := Option.isSome_iff_exists.1 hlisted
  exact hall _ (mem_of_kind?_eq_some hk) hstart

/-- The numeric names of old are the current ones without those that are revised, and the other
spelling of `UFix64`. -/
theorem mem_legacyNumericNames_iff {name : String} :
    name ∈ legacyNumericNames ↔
      name = "UFIx64" ∨ name ∈ numericNames ∧ name ≠ "UFix64" ∧ ¬ IsWordName name := by
  have hfixed : "UFix64" ∈ numericNames ∧ ¬ IsWordName "UFix64" := by
    rw [isWordName_iff]
    decide
  have hlisted : ∀ n ∈ numericNames, (current.kind? n).isSome := by decide
  have hkept : ∀ n, n ∈ numericNames.filter (fun n => !"Word".toList.isPrefixOf n.toList) ↔
      n ∈ numericNames ∧ ¬ IsWordName n := by
    intro n
    rw [List.mem_filter, Bool.not_eq_true', Bool.eq_false_iff, ne_eq, List.isPrefixOf_iff_prefix]
    refine and_congr_right fun hn => not_congr ⟨fun hstart => ⟨hstart, hlisted n hn⟩, And.left⟩
  unfold legacyNumericNames
  rw [List.mem_map]
  constructor
  · rintro ⟨n, hn, rfl⟩
    obtain ⟨hname, hword⟩ := (hkept n).1 hn
    split
    · exact .inl rfl
    · next hne => exact .inr ⟨hname, hne, hword⟩
  · rintro (rfl | ⟨hname, hne, hword⟩)
    · exact ⟨"UFix64", (hkept _).2 hfixed, if_pos rfl⟩
    · exact ⟨name, (hkept _).2 ⟨hname, hword⟩, if_neg hne⟩

/-- A revised name is listed as numeric or not at all. -/
theorem IsRevised.kind?_groupsWith {name : String} (h : IsRevised name) (names : List String) :
    kind? ⟨listed (groupsWith names)⟩ name =
      if name ∈ names then some ScalarKind.numeric else none := by
  have hother : kind? ⟨listed (groupsWith [])⟩ name = none := by
    rcases h with rfl | rfl | hword
    · decide
    · decide
    · have hwords : ∀ n ∈ integerSizes.map ("Word" ++ ·),
          kind? ⟨listed (groupsWith [])⟩ n = none := by
        decide
      exact hwords name (isWordName_iff.1 hword)
  rw [KindTable.kind?_groupsWith, hother, Option.none_or]

/-- The table of old changes the kinds of the revised names only, and these to and from numeric. -/
theorem revises_kind? (name : String) :
    Revises name (current.kind? name) (legacy.kind? name) := by
  change Revises name (kind? ⟨listed (groupsWith numericNames)⟩ name)
    (kind? ⟨listed (groupsWith legacyNumericNames)⟩ name)
  have hadded : "UFIx64" ∉ numericNames := by decide
  have hdropped : ∀ n ∈ "UFix64" :: integerSizes.map ("Word" ++ ·), n ∈ numericNames := by decide
  by_cases hspelling : name = "UFIx64"
  · have hrevised : IsRevised name := .inr (.inl hspelling)
    rw [hrevised.kind?_groupsWith, hrevised.kind?_groupsWith,
      if_neg (by rw [hspelling]; exact hadded),
      if_pos (mem_legacyNumericNames_iff.2 (.inl hspelling))]
    exact .added hrevised
  by_cases hgone : name = "UFix64" ∨ IsWordName name
  · have hrevised : IsRevised name := hgone.imp_right .inr
    have hmem : name ∈ numericNames := by
      apply hdropped
      rw [List.mem_cons, ← isWordName_iff]
      exact hgone
    have hnot : name ∉ legacyNumericNames := by
      rw [mem_legacyNumericNames_iff]
      rintro (hname | ⟨-, hfixed, hword⟩)
      · exact hspelling hname
      · exact hgone.elim hfixed hword
    rw [hrevised.kind?_groupsWith, hrevised.kind?_groupsWith, if_pos hmem, if_neg hnot]
    exact .dropped hrevised
  · have hkept : ¬ IsRevised name := by
      rintro (hfixed | hname | hword)
      · exact hgone (.inl hfixed)
      · exact hspelling hname
      · exact hgone (.inr hword)
    rw [not_or] at hgone
    have hsame : name ∈ legacyNumericNames ↔ name ∈ numericNames := by
      rw [mem_legacyNumericNames_iff]
      exact ⟨fun h => (h.resolve_left hspelling).1, fun h => .inr ⟨h, hgone⟩⟩
    rw [kind?_groupsWith numericNames, kind?_groupsWith legacyNumericNames]
    simp only [hsame]
    exact .kept _ hkept

/-- A revised name is a name and nothing else. -/
theorem IsRevised.continuesName {name : String} (h : IsRevised name) {c : Char}
    (hc : c ∈ name.toList) : WordClass.continuesName c = true := by
  rcases h with rfl | rfl | ⟨-, hlisted⟩
  · have hall : "UFix64".toList.all WordClass.continuesName = true := by decide
    exact List.all_eq_true.1 hall c hc
  · have hall : "UFIx64".toList.all WordClass.continuesName = true := by decide
    exact List.all_eq_true.1 hall c hc
  · obtain ⟨k, hk⟩ := Option.isSome_iff_exists.1 hlisted
    exact listsNames_current.continuesName _ (mem_of_kind?_eq_some hk) c hc

end CadenceEntry.KindTable
