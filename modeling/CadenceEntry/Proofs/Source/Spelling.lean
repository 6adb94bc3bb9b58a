import CadenceEntry.Proofs.Source.WordClass

/-!
# Words of a terminal

A terminal stands for its fixed spelling or for the words of its class. Spellings are looked for one
after the other, and the order is such that none is taken for another one: `standsApart` says what
that needs of two spellings, and all pairs in this order have it.
-/

set_option autoImplicit false

namespace CadenceEntry

namespace Grammar.Terminal

/-- The class of words that a terminal without a fixed spelling stands for. -/
def class? : Terminal → Option WordClass
  | name => some .name
  | integer => some .integer
  | string => some .string
  | address => some .address
  | statement => some .statement
  | _ => none

/-- The spelling of a terminal as a list of characters. -/
def chars? (t : Terminal) : Option (List Char) := t.spelling?.map String.toList

/-- The word `w` is one that the terminal stands for: it has the fixed spelling, or it is a word of
the class from its first to its last character. -/
def Matches (t : Terminal) (w : List Char) : Prop :=
  match t.class? with
  | some c => c.length? w = some w.length
  | none => t.chars? = some w

instance (t : Terminal) (w : List Char) : Decidable (t.Matches w) :=
  match h : t.class? with
  | some c => decidable_of_iff (c.length? w = some w.length) (by rw [Matches, h])
  | none => decidable_of_iff (t.chars? = some w) (by rw [Matches, h])

/-- The characters that, right behind a word, could make it another word. -/
def continues (t : Terminal) (x : Char) : Bool :=
  match t.class? with
  | some c => c.continues x
  | none => WordClass.name.covers t && WordClass.continuesName x

/-- No character that could make a word another one comes first in a text. -/
def Stops (t : Terminal) (cs : List Char) : Prop := ∀ x ∈ cs.head?, t.continues x = false

/-- A class has the words of its terminal. -/
theorem class?_eq_some_iff {t : Terminal} {c : WordClass} :
    t.class? = some c ↔ c.terminal? = some t := by
  cases t <;> cases c <;> decide

/-- A terminal has a class or a spelling. -/
theorem class?_eq_none_iff {t : Terminal} : t.class? = none ↔ t ∈ fixed := by
  cases t <;> decide

/-- The terminals with a fixed spelling have one. -/
theorem exists_chars?_of_mem_fixed {t : Terminal} (h : t ∈ fixed) :
    ∃ x w, t.chars? = some (x :: w) ∧ ∀ c : WordClass, c.begins x = c.covers t := by
  have hall : (fixed.all fun t =>
      (t.chars?.bind List.head?).any fun x =>
        WordClass.all.all fun c => c.begins x == c.covers t) = true := by
    decide
  obtain ⟨x, hx, hbegins⟩ := (Option.any_eq_true _ _).1 (List.all_eq_true.1 hall t h)
  obtain ⟨v, hv, hhead⟩ := Option.bind_eq_some_iff.1 hx
  obtain ⟨w, rfl⟩ := List.head?_eq_some_iff.1 hhead
  refine ⟨x, w, hv, fun c => ?_⟩
  exact beq_iff_eq.1 (List.all_eq_true.1 hbegins c (by cases c <;> decide))

/-- No terminal stands for an empty word. -/
theorem not_matches_nil (t : Terminal) : ¬ t.Matches [] := by
  cases t <;> decide

/-- A string literal is enclosed in quotes. -/
theorem exists_quoted_of_matches {w : List Char} (h : string.Matches w) :
    ∃ cs, w = '"' :: (cs ++ ['"']) := by
  obtain ⟨cs, n, rfl, hn, heq⟩ := WordClass.stringLength?_eq_some_iff.1 h
  obtain rfl : cs.length = n := Nat.succ.inj heq
  obtain ⟨ds, hds⟩ := WordClass.exists_quote_of_stringTail? hn
  rw [List.take_length] at hds
  exact ⟨ds, by rw [← hds]⟩

/-- Only names, and text of bodies apart from braces, can be spelled like a terminal. -/
theorem eq_name_of_covers {c : WordClass} {t : Terminal} (h : c.covers t = true) :
    c = .name ∨ c = .statement ∧
      [Terminal.statement, .string, .leftBrace, .rightBrace].contains t = false := by
  have hall : (WordClass.all.all fun c => all.all fun t => !c.covers t || c == .name ||
      c == .statement &&
        !([Terminal.statement, .string, .leftBrace, .rightBrace].contains t)) = true := by
    decide
  have ht := List.all_eq_true.1 (List.all_eq_true.1 hall c (by cases c <;> decide)) t t.mem_all
  rw [h] at ht
  simpa [-List.contains_eq_mem] using ht

/-- A spelling that is a word of a class is covered by it. -/
theorem covers_iff {c : WordClass} {t : Terminal} {w : List Char} (hw : t.chars? = some w) :
    c.covers t = true ↔ c.length? w = some w.length := by
  obtain ⟨s, hs, rfl⟩ := Option.map_eq_some_iff.1 hw
  rw [String.length_toList]
  simp [WordClass.covers, hs]

/-- Terminals with the same spelling are the same. -/
theorem chars?_injective {s t : Terminal} {w : List Char} (hs : s.chars? = some w)
    (ht : t.chars? = some w) : s = t := by
  have hall : (all.all fun s => all.all fun t =>
      s.chars?.isNone || s.chars? != t.chars? || s == t) = true := by
    decide
  have h := List.all_eq_true.1 (List.all_eq_true.1 hall s s.mem_all) t t.mem_all
  simpa [hs, ht] using h

/-- Whether the spelling of `s`, which is looked for first, is not taken for that of `t`: it is no
part of it, and if it is longer a letter tells the two apart. -/
def standsApart (s t : Terminal) : Bool :=
  match s.chars?, t.chars? with
  | some v, some w =>
    !v.isPrefixOf w && (!w.isPrefixOf v ||
      match v.drop w.length with
      | x :: _ => t.continues x
      | [] => false)
  | _, _ => true

/-- The spellings are looked for in an order in which none is taken for another. -/
theorem pairwise_standsApart : fixed.Pairwise fun s t => s.standsApart t = true := by
  decide

/-- A spelling that stands apart from the word at the beginning of a text is not found there. -/
theorem not_isPrefixOf_of_standsApart {s t : Terminal} {v w rest : List Char}
    (h : s.standsApart t = true) (hv : s.chars? = some v) (hw : t.chars? = some w)
    (hrest : t.Stops rest) : v.isPrefixOf (w ++ rest) = false := by
  rw [Bool.eq_false_iff]
  intro hstart
  simp only [standsApart, hv, hw, Bool.and_eq_true, Bool.not_eq_true', Bool.or_eq_true] at h
  obtain ⟨hshort, hlong⟩ := h
  rw [List.isPrefixOf_iff_prefix] at hstart
  rcases List.prefix_or_prefix_of_prefix hstart (List.prefix_append w rest) with hvw | hwv
  · rw [List.isPrefixOf_iff_prefix.2 hvw] at hshort
    exact absurd hshort (by simp)
  · obtain ⟨l, rfl⟩ := hwv
    rw [List.isPrefixOf_iff_prefix.2 (List.prefix_append w l), List.drop_left] at hlong
    rw [List.prefix_append_right_inj] at hstart
    cases l with
    | nil => simp at hlong
    | cons x l =>
      obtain ⟨l', rfl⟩ := hstart
      have hx : t.continues x = false := hrest x rfl
      simp [hx] at hlong

end Grammar.Terminal

end CadenceEntry
