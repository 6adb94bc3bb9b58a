import CadenceEntry.Proofs.Source.Shifting
import CadenceEntry.Proofs.TypeText.Parentheses

/-!
# Types are read off their own text

The text of a type is read as the same type, but for places, exactly if the type is plain. For a
plain type there is a derivation without parentheses that means it, and this is what the text
shows. For any other type every derivation has a pair of parentheses that the text of the type does
not have.
-/

set_option autoImplicit false

namespace CadenceEntry

open Grammar

/-- Where a type begins, its keywords are reserved. -/
theorem Grammar.Goal.reserves_typeText : Goal.typeText.start.Reserves Terminal.typeWords := by
  have hall : (Terminal.all.all fun k => !WordClass.name.covers k ||
      Goal.typeText.start.admits (.word k) == Terminal.typeWords.contains k) = true := by
    decide
  intro k hk
  have hadmits := List.all_eq_true.1 hall k k.mem_all
  rw [hk, Bool.not_true, Bool.false_or, beq_iff_eq] at hadmits
  rw [hadmits, List.contains_iff_mem]

/-- A derivation of a whole type is proper if its words are well-formed and it is legible, and the
other way around. -/
theorem Grammar.Derivation.proper_typeText_iff (d : Derivation (.phrase .typeText)) :
    d.Proper Terminal.typeWords ↔ (∀ x ∈ d.words, x.1.Matches x.2.text) ∧
      d.invalidInteger? = none ∧ d.Legible Goal.typeText.start Goal.typeText.start :=
  d.proper_iff rfl (fun _ hp => Goal.typeText.awaits (Symbol.phrase.inj hp).symm)
    fun _ => Goal.reserves_typeText

/-- The type, with its resource marker, that a derivation of a whole type means. -/
def Grammar.Derivation.annotation (d : Derivation (.phrase .typeText)) (source : List Char) :
    AnnotatedType :=
  d.value source

namespace Grammar

/-- A whole type is a type with or without a resource marker. -/
theorem Derivation.exists_annotatedType (d : Derivation (.phrase .typeText)) :
    ∃ d₁ : Derivation (.phrase .annotatedType), d = .node .typeText (.cons d₁ .nil) := by
  obtain ⟨p, hp, ds, rfl⟩ := d.exists_node
  cases p
  case typeText =>
    obtain ⟨d₁, rfl⟩ := ds.exists_singleton
    exact ⟨d₁, rfl⟩
  all_goals exact absurd hp (by decide)

/-- A type comes behind a resource marker or alone. -/
theorem Derivation.annotatedType_cases (d : Derivation (.phrase .annotatedType)) :
    (∃ (w : Lexeme) (d₁ : Derivation (.phrase .type)),
      d = .node .annotationResource (.cons (.leaf .atSign w) (.cons d₁ .nil))) ∨
      ∃ d₁ : Derivation (.phrase .type), d = .node .annotationPlain (.cons d₁ .nil) := by
  obtain ⟨p, hp, ds, rfl⟩ := d.exists_node
  cases p
  case annotationResource =>
    cases ds with
    | cons d ds =>
      cases d with
      | leaf t w =>
        obtain ⟨d₁, rfl⟩ := ds.exists_singleton
        exact .inl ⟨w, d₁, rfl⟩
  case annotationPlain =>
    obtain ⟨d₁, rfl⟩ := ds.exists_singleton
    exact .inr ⟨d₁, rfl⟩
  all_goals exact absurd hp (by decide)

end Grammar

namespace Source

/-- The words of a text that is derived are words of their terminals. -/
theorem matches_of_derive {g : Goal} {cs : List Char} {d : Derivation (.phrase g.phrase)}
    (h : derive g cs = .ok d) : ∀ x ∈ d.words, x.1.Matches x.2.text := by
  obtain ⟨ss, -, hvalid, hwords⟩ := exists_segments_of_derive h
  intro x hx
  rw [← hwords] at hx
  exact Segment.matches_of_mem_words hvalid hx

/-- The opening parentheses of the words of a text are among those of the text. -/
theorem count_words_le_of_derive {g : Goal} {cs : List Char} {d : Derivation (.phrase g.phrase)}
    (h : derive g cs = .ok d) : (wordChars d.words).count '(' ≤ cs.count '(' := by
  obtain ⟨ss, rfl, -, hwords⟩ := exists_segments_of_derive h
  rw [← hwords]
  exact Segment.count_words_le ss .origin

/-- A derivation of a type that is read off a text is proper. -/
theorem proper_of_derive {cs : List Char} {d : Derivation (.phrase .typeText)}
    (h : derive .typeText cs = .ok d) (hvalid : d.invalidInteger? = none) :
    d.Proper Terminal.typeWords := by
  obtain ⟨h', hreads, -⟩ := derive_eq_ok_iff.1 h
  exact d.proper_typeText_iff.2
    ⟨matches_of_derive (g := .typeText) h, hvalid, (d.legible_of_reads hreads).1⟩

end Source

namespace AnnotatedType

/-- A type is plain if it is so with its resource marker. -/
theorem plain_type {a : AnnotatedType} : a.type.Plain ↔ a.Plain := by
  cases a
  rw [AnnotatedType.Plain, type]

/-- The type under a resource marker, without its places. -/
theorem type_unplaced (a : AnnotatedType) : a.unplaced.type = a.type.unplaced := by
  cases a
  rw [unplaced, type, type]

/-- The resource marker is no parenthesis. -/
theorem count_chars (a : AnnotatedType) : a.chars.count '(' = a.type.chars.count '(' := by
  cases a with
  | mk r t s => cases r <;> simp [chars, type]

end AnnotatedType

namespace TypeExpr

/-- A text is a type if it has a derivation whose integer literals have values. -/
theorem parse_eq_ok_iff {text : String} {t : TypeExpr} :
    TypeExpr.parse text = .ok t ↔ ∃ d : Derivation (.phrase .typeText),
      Source.derive .typeText text.toList = .ok d ∧ d.invalidInteger? = none ∧
        (d.annotation text.toList).type = t := by
  have hparse : ∀ d : Derivation (.phrase .typeText),
      Source.derive .typeText text.toList = .ok d →
        TypeExpr.parse text = (d.evaluate text.toList).map AnnotatedType.type := by
    intro d hderive
    rw [TypeExpr.parse, AnnotatedType.parse, hderive]
    rfl
  constructor
  · intro h
    cases hderive : Source.derive .typeText text.toList with
    | error e =>
      rw [TypeExpr.parse, AnnotatedType.parse, hderive] at h
      cases h
    | ok d =>
      rw [hparse d hderive] at h
      unfold Derivation.evaluate at h
      refine ⟨d, rfl, ?_⟩
      split at h
      · cases h
      · next hvalid => exact ⟨hvalid, Except.ok.inj h⟩
  · rintro ⟨d, hderive, hvalid, rfl⟩
    rw [hparse d hderive]
    unfold Derivation.evaluate
    rw [hvalid]
    rfl

/-- The text of a plain type that has been read is read as this type. -/
theorem exists_parse_of_plain {d : Derivation (.phrase .typeText)} {source : List Char}
    {t : TypeExpr} (hd : d.Proper Terminal.typeWords) (ht : (d.annotation source).type = t)
    (hplain : t.Plain) : ∃ t', TypeExpr.parse t.text = .ok t' ∧ t'.unplaced = t.unplaced := by
  have hvalue : d.plainValue = (d.annotation source).unplaced := (d.unplaced_value source).symm
  have hplain' : (Symbol.phrase .typeText).Plain d.plainValue := by
    rw [hvalue]
    refine AnnotatedType.plain_type.1 ?_
    rw [AnnotatedType.type_unplaced, ht, t.plain_unplaced]
    exact hplain
  have hwritable : t.unplaced.Writable Terminal.typeWords := by
    have hrewritten := d.rewritten (List.Subset.refl _) rfl hd hplain'
    rw [hvalue] at hrewritten
    rw [← ht, ← AnnotatedType.type_unplaced]
    exact hrewritten
  -- The derivation that the text of the type shows.
  obtain ⟨d₁, hd₁⟩ := hwritable.asType
  obtain ⟨d₂, hproper, hungrouped, hvalue₂⟩ : ∃ d₂ : Derivation (.phrase .typeText),
      d₂.Writes Terminal.typeWords (AnnotatedType.mk false t.unplaced {}) :=
    ⟨.node .typeText (.cons (.node .annotationPlain (.cons d₁ .nil)) .nil),
      ⟨⟨hd₁.proper, trivial⟩, trivial⟩, ⟨rfl, ⟨rfl, hd₁.ungrouped, trivial⟩, trivial⟩,
      congrArg (fun t => AnnotatedType.mk false t {}) hd₁.plainValue_eq⟩
  obtain ⟨hmatches, hvalid, hlegible⟩ := d₂.proper_typeText_iff.1 hproper
  have hannotation : (d₂.annotation []).unplaced = .mk false t.unplaced {} :=
    (d₂.unplaced_value []).trans hvalue₂
  have hchars : (d₂.annotation []).chars = t.text.toList := by
    rw [← AnnotatedType.chars_unplaced, hannotation, t.toList_text, ← t.chars_unplaced]
    exact List.append_nil t.unplaced.chars
  have hwritten : Written d₂.words t.text.toList [] := by
    have hapart : (∀ t, Symbol.phrase .typeText = .token t → t.isMark = false) → IsApart [] := by
      simp [IsApart]
    have hwords := d₂.written [] rfl hungrouped hmatches hapart
    rw [List.append_nil] at hwords
    rw [← hchars]
    exact hwords
  obtain ⟨d', hderive, hd'⟩ : ∃ d' : Derivation (.phrase .typeText),
      Source.derive .typeText t.text.toList = .ok d' ∧ d'.unplaced = d₂.unplaced :=
    Source.exists_derive_eq_ok (g := .typeText) d₂ hwritten (by decide) hlegible
  have hvalid' : d'.invalidInteger? = none := by
    rw [← d'.invalidInteger?_unplaced, hd', d₂.invalidInteger?_unplaced]
    exact hvalid
  refine ⟨_, parse_eq_ok_iff.2 ⟨d', hderive, hvalid', rfl⟩, ?_⟩
  have hplaces : (d'.annotation t.text.toList).unplaced = (d₂.annotation []).unplaced :=
    Derivation.unplaced_value_eq hd' [] t.text.toList
  rw [← AnnotatedType.type_unplaced, hplaces, hannotation, AnnotatedType.type]

/-- A type that is read off its own text is plain. -/
theorem plain_of_parse {t t' : TypeExpr} (h : TypeExpr.parse t.text = .ok t')
    (ht' : t'.unplaced = t.unplaced) : t.Plain := by
  obtain ⟨d, hderive, -, hvalue⟩ := parse_eq_ok_iff.1 h
  have hle : (wordChars d.words).count '(' ≤ t.text.toList.count '(' :=
    Source.count_words_le_of_derive (g := .typeText) hderive
  have hcount : (wordChars d.words).count '(' =
      (d.annotation t.text.toList).chars.count '(' + d.groups :=
    d.count_words t.text.toList rfl (Source.matches_of_derive (g := .typeText) hderive)
  rw [AnnotatedType.count_chars, hvalue, ← t'.chars_unplaced, ht', t.chars_unplaced,
    ← t.toList_text] at hcount
  have hgroups : d.groups = 0 := by omega
  have hbare : (d.annotation t.text.toList).Plain :=
    d.bare_of_groups_eq_zero t.text.toList hgroups
  rw [← AnnotatedType.plain_type, hvalue, ← t'.plain_unplaced, ht', t.plain_unplaced] at hbare
  exact hbare

/-- The text of a type that has been read is read as the same type, but for places, exactly if the
type needs no parentheses: nowhere in it an optional type is made directly of a function type, or
a reference goes directly to an optional type or a function type. -/
theorem parse_text_iff_plain {text : String} {t : TypeExpr} (h : TypeExpr.parse text = .ok t) :
    (∃ t', TypeExpr.parse t.text = .ok t' ∧ t'.unplaced = t.unplaced) ↔ t.Plain := by
  constructor
  · rintro ⟨t', hparse, ht'⟩
    exact plain_of_parse hparse ht'
  · intro hplain
    obtain ⟨d, hderive, hvalid, hvalue⟩ := parse_eq_ok_iff.1 h
    exact exists_parse_of_plain (Source.proper_of_derive hderive hvalid) hvalue hplain

/-- A type with names spelled like a keyword is read off its own text, and a reference to an
optional type is not. -/
theorem parse_text_iff_plain_references :
    (∃ t t', TypeExpr.parse "auth(E | fun) &[&fun; 0x1F]" = .ok t ∧
      TypeExpr.parse t.text = .ok t' ∧ t'.unplaced = t.unplaced) ∧
    ∃ t, TypeExpr.parse "&(A?)" = .ok t ∧
      ∀ t', TypeExpr.parse t.text = .ok t' → t'.unplaced ≠ t.unplaced := by
  have hparse : ∀ {text : String} {p : TypeExpr → Bool},
      (match TypeExpr.parse text with
      | .ok t => p t
      | .error _ => false) = true → ∃ t, TypeExpr.parse text = .ok t ∧ p t = true := by
    intro text p h
    cases ht : TypeExpr.parse text with
    | error e =>
      rw [ht] at h
      exact absurd h (by simp)
    | ok t =>
      rw [ht] at h
      exact ⟨t, rfl, h⟩
  constructor
  · obtain ⟨t, ht, hplain⟩ : ∃ t, TypeExpr.parse "auth(E | fun) &[&fun; 0x1F]" = .ok t ∧
        decide t.Plain = true := hparse (by decide +kernel)
    obtain ⟨t', ht', heq⟩ := (parse_text_iff_plain ht).2 (of_decide_eq_true hplain)
    exact ⟨t, t', ht, ht', heq⟩
  · obtain ⟨t, ht, hplain⟩ : ∃ t, TypeExpr.parse "&(A?)" = .ok t ∧
        (!decide t.Plain) = true := hparse (by decide +kernel)
    refine ⟨t, ht, fun t' ht' heq => ?_⟩
    have hnot : ¬ t.Plain := by simpa using hplain
    exact hnot ((parse_text_iff_plain ht).1 ⟨t', ht', heq⟩)

end TypeExpr

end CadenceEntry
