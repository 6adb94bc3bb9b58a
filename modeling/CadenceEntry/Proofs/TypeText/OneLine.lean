import CadenceEntry.Proofs.Descriptor.Outline
import CadenceEntry.Proofs.TypeText.Nesting

/-!
# The text of a type is one line

Names and literals have no line feed, and nothing else in the text of a type is one. So the raw
types of the descriptor of a well-formed type have none.
-/

set_option autoImplicit false

namespace CadenceEntry

/-- A character of a name is no line feed. -/
theorem WordClass.ne_newline_of_continuesName {c : Char} (h : continuesName c = true) :
    c ≠ '\n' := by
  rintro rfl
  exact absurd h (by decide)

/-- A name is on one line. -/
theorem Identifier.WellFormed.newline_notMem {n : Identifier} (h : n.WellFormed) :
    '\n' ∉ n.text.toList := fun hmem =>
  WordClass.ne_newline_of_continuesName (WordClass.continuesName_of_mem_name h hmem) rfl

/-- The literal of a size is on one line. -/
theorem TypeExpr.SizeOf.newline_notMem {n : Int} {literal : String}
    (h : TypeExpr.SizeOf n literal) : '\n' ∉ literal.toList := fun hmem =>
  WordClass.ne_newline_of_continuesName (WordClass.continuesName_of_mem_integer h.1 hmem) rfl

/-- A list is on one line if its members are. -/
theorem newline_notMem_listedChars {α : Type} {chars : α → List Char} {xs : List α}
    (h : ∀ x ∈ xs, '\n' ∉ chars x) : '\n' ∉ listedChars chars xs := by
  cases xs with
  | nil => simp [listedChars]
  | cons x xs =>
    obtain ⟨hx, hxs⟩ := List.forall_mem_cons.1 h
    simpa [listedChars, hx] using hxs

namespace NominalType

/-- The text of a type name is on one line. -/
theorem WellFormed.newline_notMem {t : NominalType} (h : t.WellFormed) : '\n' ∉ t.chars := by
  have hnested : ∀ n ∈ t.nested, '\n' ∉ n.text.toList := fun n hn => (h.2 n hn).newline_notMem
  simpa [chars, Identifier.charsBehindDot, h.1.newline_notMem] using hnested

/-- A list of type names is on one line. -/
theorem newline_notMem_listed {ts : List NominalType} (h : ∀ t ∈ ts, t.WellFormed) :
    '\n' ∉ listedChars chars ts :=
  newline_notMem_listedChars fun t ht => (h t ht).newline_notMem

/-- An authorization is on one line. -/
theorem newline_notMem_authorizationChars {es : List NominalType} (h : ∀ e ∈ es, e.WellFormed) :
    '\n' ∉ authorizationChars es := by
  cases es with
  | nil => decide
  | cons e es => simp [authorizationChars, newline_notMem_listed h]

end NominalType

mutual

/-- The text of a well-formed type has no line feed. -/
theorem TypeExpr.WellFormed.newline_notMem {t : TypeExpr} (h : t.WellFormed) : '\n' ∉ t.chars := by
  match t with
  | .nominal n => exact NominalType.WellFormed.newline_notMem h
  | .optional t _ | .variableSized t _ =>
    rw [TypeExpr.WellFormed] at h
    simp [TypeExpr.chars, h.newline_notMem]
  | .constantSized t n literal _ =>
    rw [TypeExpr.WellFormed] at h
    simp [TypeExpr.chars, h.2.isEmpty_eq, h.1.newline_notMem, h.2.newline_notMem]
  | .dictionary k v _ =>
    rw [TypeExpr.WellFormed] at h
    simp [TypeExpr.chars, h.1.newline_notMem, h.2.newline_notMem]
  | .instantiation (.nominal n) args _ =>
    rw [TypeExpr.WellFormed] at h
    simp [TypeExpr.chars, h.1.newline_notMem, AnnotatedType.newline_notMem_listedChars h.2]
  | .reference authorized es t _ =>
    rw [TypeExpr.WellFormed] at h
    have hes := NominalType.newline_notMem_authorizationChars h.1
    have ht := TypeExpr.WellFormed.newline_notMem h.2
    cases authorized <;> cases es <;> simp [TypeExpr.chars, hes, ht]
  | .intersection ts _ =>
    simp [TypeExpr.chars, NominalType.newline_notMem_listed h]
  | .restricted t ts _ =>
    rw [TypeExpr.WellFormed] at h
    simp [TypeExpr.chars, h.1.newline_notMem, NominalType.newline_notMem_listed h.2]
  | .function ps (some r) _ =>
    rw [TypeExpr.WellFormed] at h
    simp [TypeExpr.chars, AnnotatedType.newline_notMem_listedChars h.1,
      AnnotatedType.WellFormed.newline_notMem h.2]

/-- The text of a type with its resource marker is on one line. -/
theorem AnnotatedType.WellFormed.newline_notMem {a : AnnotatedType} (h : a.WellFormed) :
    '\n' ∉ a.chars := by
  match a with
  | .mk r t _ =>
    rw [AnnotatedType.WellFormed] at h
    cases r <;> simp [AnnotatedType.chars, TypeExpr.WellFormed.newline_notMem h]

/-- The texts of well-formed types are on one line each. -/
theorem AnnotatedType.newline_notMem_of_mem {as : List AnnotatedType}
    (h : AnnotatedType.AllWellFormed as) : ∀ a ∈ as, '\n' ∉ a.chars := by
  match as with
  | [] => exact nofun
  | a :: as =>
    rw [AnnotatedType.AllWellFormed] at h
    exact List.forall_mem_cons.2
      ⟨AnnotatedType.WellFormed.newline_notMem h.1, AnnotatedType.newline_notMem_of_mem h.2⟩

/-- A list of well-formed types is on one line. -/
theorem AnnotatedType.newline_notMem_listedChars {as : List AnnotatedType}
    (h : AnnotatedType.AllWellFormed as) : '\n' ∉ AnnotatedType.listedChars as := by
  rw [AnnotatedType.listedChars_eq_listedChars]
  exact CadenceEntry.newline_notMem_listedChars (AnnotatedType.newline_notMem_of_mem h)

end

namespace Descriptor

/-- Being optional has no part in whether a descriptor is on one line. -/
theorem oneLine_asOptional {d : Descriptor String} : d.asOptional.OneLine ↔ d.OneLine := by
  cases d <;> rfl

/-- The raw types of the descriptor of a well-formed type have no line feed. -/
theorem oneLine_ofType (table : KindTable ScalarKind) {t : TypeExpr} (ht : t.WellFormed) :
    (ofType table t).OneLine := by
  have hraw : '\n' ∉ t.text.toList := by
    rw [TypeExpr.toList_text]
    exact ht.newline_notMem
  match t with
  | .optional t _ =>
    rw [TypeExpr.WellFormed] at ht
    exact oneLine_asOptional.2 (oneLine_ofType table ht)
  | .variableSized t s =>
    rw [TypeExpr.WellFormed] at ht
    exact oneLine_array.2 ⟨hraw, oneLine_ofType table ht⟩
  | .constantSized t n literal s =>
    rw [TypeExpr.WellFormed] at ht
    exact oneLine_array.2 ⟨hraw, oneLine_ofType table ht.1⟩
  | .dictionary k v s =>
    rw [TypeExpr.WellFormed] at ht
    exact oneLine_dictionary.2 ⟨hraw, oneLine_ofType table ht.1, oneLine_ofType table ht.2⟩
  | .nominal _ | .instantiation _ _ _ | .reference _ _ _ _ | .intersection _ _ | .restricted _ _ _
  | .function _ _ _ => exact oneLine_named.2 hraw

end Descriptor

end CadenceEntry
