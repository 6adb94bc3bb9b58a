import CadenceEntry.Configuration.Basic
import Mathlib.Data.List.Basic

/-!
# What the options take

A policy is given by the text that is its name and by nothing else. A level of the log is given by
every datum whose text is its name in upper case, by the rules of Unicode. Both options report what
they do not take, unless that is too long to be written.
-/

set_option autoImplicit false

namespace CadenceEntry

namespace Text

/-- No character in front of the small letters has another upper-case form. -/
theorem uppercase_of_lt {c : Char} (h : c.toNat < 0x61) : uppercase c = [c] := by
  have hexpansions : ∀ e ∈ uppercaseExpansions, 0x61 ≤ e.1 := by decide +kernel
  have hruns : ∀ r ∈ uppercaseRuns, 0x61 ≤ r.first := by decide +kernel
  have hlookup : uppercaseExpansions.lookup c.toNat = none := by
    rw [List.lookup_eq_none_iff]
    intro e he
    have := hexpansions e he
    rw [bne_iff_ne]
    omega
  have hfind : (uppercaseRuns.find? fun r =>
      r.first ≤ c.toNat && c.toNat ≤ r.last && (c.toNat - r.first) % r.step == 0) = none := by
    rw [List.find?_eq_none]
    intro r hr
    have := hruns r hr
    simp only [Bool.and_eq_true, decide_eq_true_eq]
    omega
  rw [uppercase, hlookup]
  dsimp only
  rw [hfind]

end Text

/-- A name is that of one policy. -/
theorem Policy.ofName?_eq_some_iff {s : String} {p : Policy} : ofName? s = some p ↔ s = p.name := by
  constructor
  · intro h
    have := List.find?_some h
    exact (beq_iff_eq.1 this).symm
  · rintro rfl
    exact ofName?_name p

/-- Policies with the same name are the same. -/
theorem Policy.name_inj {p p' : Policy} : p.name = p'.name ↔ p = p' := by
  rw [← ofName?_eq_some_iff, ofName?_name, Option.some.injEq]

/-- A name is that of one level. -/
theorem LogLevel.ofName?_eq_some_iff {s : String} {l : LogLevel} :
    ofName? s = some l ↔ s = l.name := by
  constructor
  · intro h
    have := List.find?_some h
    exact (beq_iff_eq.1 this).symm
  · rintro rfl
    exact ofName?_name l

/-- Levels with the same name are the same. -/
theorem LogLevel.name_inj {l l' : LogLevel} : l.name = l'.name ↔ l = l' := by
  rw [← ofName?_eq_some_iff, ofName?_name, Option.some.injEq]

/-- The name of a level is in upper case. -/
theorem LogLevel.toUppercase_name (l : LogLevel) : Text.toUppercase l.name = l.name := by
  cases l <;> decide +kernel

/-- Only the text that is its name gives a policy. -/
theorem Policy.ofDatum_eq_ok_iff {v : Datum} {p : Policy} :
    ofDatum v = .ok p ↔ v = .text p.name := by
  cases v with
  | text s =>
    rw [ofDatum, Datum.text.injEq, ← ofName?_eq_some_iff]
    cases ofName? s <;> simp
  | _ => simp [ofDatum]

/-- A policy cannot be reported exactly if it holds an integer that is too long. -/
theorem Policy.ofDatum_eq_tooLong_iff {v : Datum} :
    ofDatum v = .error .tooLong ↔ v.hasText = false := by
  cases v with
  | text s =>
    rw [ofDatum]
    cases ofName? s <;> simp [Datum.hasText]
  | _ => simp [ofDatum]

/-- A text is the name of no level if it does not begin with a letter. -/
theorem LogLevel.toUppercase_ne_name {s : String} {c : Char} {cs : List Char} (l : LogLevel)
    (hs : s.toList = c :: cs) (hc : c.toNat < 0x41 ∨ c = '[' ∨ c = '\x7b') :
    Text.toUppercase s ≠ l.name := by
  have hupper : Text.uppercase c = [c] := by
    rcases hc with hc | rfl | rfl
    · exact Text.uppercase_of_lt (by omega)
    · exact Text.uppercase_of_lt (by decide)
    · decide
  intro h
  have hhead : l.name.toList.head? = some c := by
    rw [← h, Text.toUppercase, String.toList_ofList, hs, List.flatMap_cons, hupper]
    rfl
  have hletter : (l.name.toList.head?.all fun d =>
      0x41 ≤ d.toNat && d != '[' && d != '\x7b') = true := by
    cases l <;> decide
  rw [hhead] at hletter
  simp only [Option.all_some, Bool.and_eq_true, decide_eq_true_eq, bne_iff_ne] at hletter
  rcases hc with hc | hc | hc
  · omega
  · exact hletter.1.2 hc
  · exact hletter.2 hc

/-- An integer is written with a sign or a digit first. -/
theorem exists_toString_eq_cons (n : Int) :
    ∃ c cs, (toString n).toList = c :: cs ∧ c.toNat < 0x41 := by
  rw [Int.toString_eq_repr, Int.repr_eq_if]
  by_cases hn : 0 ≤ n
  · rw [if_pos hn, Nat.toList_repr]
    cases hdigits : Nat.toDigits 10 n.toNat with
    | nil => exact absurd hdigits Nat.toDigits_ne_nil
    | cons c cs =>
      refine ⟨c, cs, rfl, ?_⟩
      have hdigit : c.isDigit = true := by
        apply Nat.isDigit_of_mem_toDigits (b := 10) (n := n.toNat) (by decide) (by decide)
        simp [hdigits]
      simp only [Char.isDigit, Bool.and_eq_true, decide_eq_true_eq,
        UInt32.le_iff_toNat_le] at hdigit
      show c.val.toNat < 0x41
      have hnine : '9'.val.toNat = 57 := rfl
      omega
  · rw [if_neg hn]
    exact ⟨'-', (-n).toNat.repr.toList, by simp, by decide⟩

/-- What is too long to be written would begin with a sign, a digit or a bracket. -/
theorem Datum.exists_plain_eq_cons {v : Datum} (h : v.hasText = false) :
    ∃ c cs, v.plain.toList = c :: cs ∧ (c.toNat < 0x41 ∨ c = '[' ∨ c = '\x7b') := by
  have hbracket : ∀ b s t : String, (b = "[" ∨ b = "(" ∨ b = "\x7b") →
      ∃ c cs, (b ++ s ++ t).toList = c :: cs ∧ (c.toNat < 0x41 ∨ c = '[' ∨ c = '\x7b') := by
    intro b s t hb
    rw [String.append_assoc, String.toList_append]
    rcases hb with rfl | rfl | rfl
    · exact ⟨'[', (s ++ t).toList, rfl, by decide⟩
    · exact ⟨'(', (s ++ t).toList, rfl, by decide⟩
    · exact ⟨'\x7b', (s ++ t).toList, rfl, by decide⟩
  cases v with
  | int n =>
    obtain ⟨c, cs, hplain, hc⟩ := exists_toString_eq_cons n
    exact ⟨c, cs, hplain, .inl hc⟩
  | list items => exact hbracket "[" (", ".intercalate (shownAll items)) "]" (by decide)
  | tuple items =>
    match items with
    | [] => exact hbracket "(" (", ".intercalate (shownAll [])) ")" (by decide)
    | [x] => exact hbracket "(" x.shown ",)" (by decide)
    | x :: y :: items =>
      exact hbracket "(" (", ".intercalate (shownAll (x :: y :: items))) ")" (by decide)
  | set items =>
    cases items with
    | nil => simp [hasText, haveText] at h
    | cons item items =>
      exact hbracket "\x7b" (", ".intercalate (shownAll (item :: items))) "\x7d" (by decide)
  | map entries =>
    exact hbracket "\x7b" (", ".intercalate (shownEntries entries)) "\x7d" (by decide)
  | _ => simp [hasText] at h

/-- A level is given by the data whose text is its name in upper case. -/
theorem LogLevel.ofDatum_eq_ok_iff {v : Datum} {l : LogLevel} :
    ofDatum v = .ok l ↔ Text.toUppercase v.plain = l.name := by
  rw [ofDatum, ← ofName?_eq_some_iff]
  by_cases h : v.hasText = true
  · rw [if_pos h]
    dsimp only
    cases ofName? (Text.toUppercase v.plain) <;> simp
  · rw [if_neg h]
    obtain ⟨c, cs, hplain, hc⟩ := Datum.exists_plain_eq_cons (by simpa using h)
    rw [ofName?_eq_some_iff]
    simp [toUppercase_ne_name l hplain hc]

example : LogLevel.ofDatum (.text "wArn\u0131ng") = .ok .warning := by
  decide +kernel

/-- A level cannot be reported exactly if it holds an integer that is too long. -/
theorem LogLevel.ofDatum_eq_tooLong_iff {v : Datum} :
    ofDatum v = .error .tooLong ↔ v.hasText = false := by
  rw [ofDatum]
  by_cases h : v.hasText = true
  · rw [if_pos h]
    dsimp only
    cases ofName? (Text.toUppercase v.plain) <;> simp [h]
  · rw [if_neg h]
    simpa using h

end CadenceEntry
