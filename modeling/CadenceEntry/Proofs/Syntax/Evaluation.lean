import CadenceEntry.Proofs.Source.Writing
import CadenceEntry.Syntax.Parse

/-!
# Derivations that are read and have a value

White space stops every word, and where no name is spelled like a keyword every name can be read
(`Derivation.legible_of_no_keyword`). What is derived is evaluated if all of its integer literals
have a value, which their places have no part in.
-/

set_option autoImplicit false

namespace CadenceEntry

open Grammar

namespace Grammar

/-- White space stops every word. -/
theorem Terminal.continues_of_separates {t : Terminal} {x : Char}
    (h : WordClass.separates x = true) : t.continues x = false := by
  have hname : WordClass.continuesName x = false := by
    rw [Bool.eq_false_iff, ne_eq, WordClass.continuesName_iff]
    rw [WordClass.separates_iff] at h
    omega
  have hstatement : WordClass.statement.continues x = false := by
    rw [Bool.eq_false_iff]
    intro hx
    have hcode := (WordClass.code_of_begins (c := .statement) hx).2
    rw [h] at hcode
    exact absurd hcode (by simp)
  cases hclass : t.class? with
  | none => simp [continues, hclass, hname]
  | some c =>
    simp only [continues, hclass]
    cases t <;> cases hclass <;> first | exact hname | exact hstatement | rfl

mutual

/-- Where no name is spelled like a keyword, no state reserves a name. -/
theorem Derivation.legible_of_no_keyword {s : Symbol} (d : Derivation s) (q q₀ : State)
    (h : ∀ x ∈ d.words, x.1 = .name → ∀ t : Terminal, t.chars? ≠ some x.2.text) :
    d.Legible q q₀ :=
  match d with
  | .leaf t w => by
    intro ht
    rw [Bool.eq_false_iff]
    intro hreserves
    obtain ⟨k, -, hk⟩ := List.any_eq_true.1 hreserves
    simp only [Bool.and_eq_true, beq_iff_eq] at hk
    exact h (t, w) (by simp [Derivation.words]) ht k hk.2
  | .node p ds => ds.legible_of_no_keyword q q₀ h

/-- Where no name is spelled like a keyword, no state reserves a name. -/
theorem Derivations.legible_of_no_keyword {ss : List Symbol} (ds : Derivations ss) (q q₀ : State)
    (h : ∀ x ∈ ds.words, x.1 = .name → ∀ t : Terminal, t.chars? ≠ some x.2.text) :
    ds.Legible q q₀ :=
  match ds with
  | .nil => trivial
  | .cons (s := s) d ds => by
    refine ⟨d.legible_of_no_keyword q q₀ fun x hx => h x ?_,
      ds.legible_of_no_keyword (q.goto s) (d.lastState q q₀) fun x hx => h x ?_⟩
    · exact List.mem_append_left _ hx
    · exact List.mem_append_right _ hx

end

/-- A list of derivations has no invalid integer literal if its first and its others have none. -/
theorem Derivations.invalidInteger?_cons {s : Symbol} {ss : List Symbol} (d : Derivation s)
    (ds : Derivations ss) : (Derivations.cons d ds).invalidInteger? = none ↔
      d.invalidInteger? = none ∧ ds.invalidInteger? = none := by
  rw [Derivations.invalidInteger?]
  cases d.invalidInteger? <;> simp

mutual

/-- A derivation is evaluated if all of its integer literals have a value. -/
theorem Derivation.invalidInteger?_eq_none_iff {s : Symbol} (d : Derivation s) :
    d.invalidInteger? = none ↔ ∀ x ∈ d.words, x.1 = .integer →
      (Number.IntegerLiteral.value? x.2.text).isSome = true :=
  match d with
  | .leaf t w => by
    simp [Derivation.invalidInteger?, Derivation.words, Option.isSome_iff_ne_none]
  | .node p ds => ds.invalidInteger?_eq_none_iff

/-- Derivations are evaluated if all of their integer literals have a value. -/
theorem Derivations.invalidInteger?_eq_none_iff {ss : List Symbol} (ds : Derivations ss) :
    ds.invalidInteger? = none ↔ ∀ x ∈ ds.words, x.1 = .integer →
      (Number.IntegerLiteral.value? x.2.text).isSome = true :=
  match ds with
  | .nil => by simp [Derivations.invalidInteger?, Derivations.words]
  | .cons d ds => by
    rw [Derivations.invalidInteger?_cons, Derivations.words]
    simp only [List.forall_mem_append, ← d.invalidInteger?_eq_none_iff,
      ← ds.invalidInteger?_eq_none_iff]

end

/-- The places of its words have no part in whether a derivation is evaluated. -/
theorem Derivation.invalidInteger?_unplaced {s : Symbol} (d : Derivation s) :
    d.unplaced.invalidInteger? = none ↔ d.invalidInteger? = none := by
  rw [d.unplaced.invalidInteger?_eq_none_iff, d.invalidInteger?_eq_none_iff, d.words_unplaced]
  simp only [List.forall_mem_map, Lexeme.unplaced]

end Grammar

/-- White space in front of words belongs to the first of them. -/
theorem Written.blank_append {x : Terminal × Lexeme} {ws : List (Terminal × Lexeme)}
    {g cs rest : List Char} (h : Written (x :: ws) cs rest) (hg : IsBlank g) :
    Written (x :: ws) (g ++ cs) rest := by
  obtain ⟨g', rest', rfl, hg', hmatches, hstops, h⟩ := h
  refine ⟨g ++ g', rest', ?_, List.forall_mem_append.2 ⟨hg, hg'⟩, hmatches, hstops, h⟩
  rw [List.append_assoc]

/-- White space in front of words belongs to the first of them, or to the rest. -/
theorem Written.of_isBlank {ws : List (Terminal × Lexeme)} {g cs rest : List Char}
    (h : Written ws cs rest) (hrest : IsBlank rest) (hg : IsBlank g) :
    ∃ rest, Written ws (g ++ cs) rest ∧ IsBlank rest := by
  cases ws with
  | nil =>
    obtain rfl := h
    exact ⟨_, rfl, List.forall_mem_append.2 ⟨hg, hrest⟩⟩
  | cons x ws => exact ⟨rest, h.blank_append hg, hrest⟩

namespace Program

/-- A text is a program if it has a derivation whose integer literals have values. -/
theorem parse_of_derive {text : String} {d : Derivation (.phrase .program)}
    (hd : Source.derive .program text.toList = .ok d) (hvalid : d.invalidInteger? = none) :
    Program.parse text = .ok (d.value text.toList) := by
  have hevaluate : d.evaluate text.toList = .ok (d.value text.toList) := by
    unfold Derivation.evaluate
    rw [hvalid]
  rw [Program.parse, hd]
  exact hevaluate

end Program

end CadenceEntry
