import CadenceEntry.Source.WordClass
import Mathlib.Data.List.TakeWhile

/-!
# Words of a class

A word of a class is found where it stands: its first character tells which classes it can be of,
what a class takes of a text is a word of the class by itself, and a word of the class is taken
whole if no character that could continue it comes behind it. These are `begins_of_length?`,
`length?_take` and `length?_append`. What the rule of a class takes is said once, by the form of the
text (`integerLength?_eq_some`, `nameLength?_eq_some_iff` and so on), and the three follow from it.
-/

set_option autoImplicit false

namespace CadenceEntry.WordClass

/-! ## Characters by their code -/

/-- A decimal digit by its code. -/
theorem isDigit_iff {c : Char} : c.isDigit = true ↔ 48 ≤ c.toNat ∧ c.toNat ≤ 57 := by
  simp only [Char.isDigit, Bool.and_eq_true, decide_eq_true_eq, UInt32.le_iff_toNat_le, ge_iff_le]
  exact Iff.rfl

/-- A letter by its code. -/
theorem isAlpha_iff {c : Char} : c.isAlpha = true ↔
    (65 ≤ c.toNat ∧ c.toNat ≤ 90) ∨ (97 ≤ c.toNat ∧ c.toNat ≤ 122) := by
  have hupper : c.isUpper = true ↔ 65 ≤ c.toNat ∧ c.toNat ≤ 90 := decide_eq_true_iff
  have hlower : c.isLower = true ↔ 97 ≤ c.toNat ∧ c.toNat ≤ 122 := by
    unfold Char.isLower
    rw [Bool.and_eq_true, decide_eq_true_iff, decide_eq_true_iff]
    exact Iff.rfl
  rw [← hupper, ← hlower]
  exact Bool.or_eq_true_iff

/-- A letter or the underscore by its code. -/
theorem beginsName_iff {c : Char} : beginsName c = true ↔
    (65 ≤ c.toNat ∧ c.toNat ≤ 90) ∨ (97 ≤ c.toNat ∧ c.toNat ≤ 122) ∨ c.toNat = 95 := by
  rw [beginsName, Bool.or_eq_true, isAlpha_iff, beq_iff_eq, ← Char.toNat_inj, or_assoc]
  exact Iff.rfl

/-- A letter, a digit or the underscore by its code. -/
theorem continuesName_iff {c : Char} : continuesName c = true ↔
    (65 ≤ c.toNat ∧ c.toNat ≤ 90) ∨ (97 ≤ c.toNat ∧ c.toNat ≤ 122) ∨
      (48 ≤ c.toNat ∧ c.toNat ≤ 57) ∨ c.toNat = 95 := by
  rw [continuesName, Char.isAlphanum, Bool.or_eq_true, Bool.or_eq_true, isAlpha_iff, isDigit_iff,
    beq_iff_eq, ← Char.toNat_inj, or_assoc, or_assoc]
  exact Iff.rfl

/-- A hexadecimal digit by its code. -/
theorem isHexDigit_iff {c : Char} : isHexDigit c = true ↔
    (48 ≤ c.toNat ∧ c.toNat ≤ 57) ∨ (97 ≤ c.toNat ∧ c.toNat ≤ 102) ∨
      (65 ≤ c.toNat ∧ c.toNat ≤ 70) := by
  simp only [isHexDigit, Char.isDigit, Bool.or_eq_true, Bool.and_eq_true, decide_eq_true_eq,
    UInt32.le_iff_toNat_le, ge_iff_le, or_assoc, Char.le_def]
  exact Iff.rfl

/-- A separator by its code. -/
theorem separates_iff {c : Char} : separates c = true ↔
    c.toNat = 32 ∨ c.toNat = 9 ∨ c.toNat = 12 ∨ c.toNat = 13 ∨ c.toNat = 10 := by
  simp only [separates, Bool.or_eq_true, beq_iff_eq, or_assoc, ← Char.toNat_inj]
  exact Iff.rfl

/-- A character that stands for itself in a body by its code. -/
theorem isOrdinary_iff {c : Char} : isOrdinary c = true ↔
    c.toNat ≠ 123 ∧ c.toNat ≠ 125 ∧ c.toNat ≠ 34 ∧ c.toNat ≠ 47 ∧ Text.isBlank c = false := by
  simp only [isOrdinary, Bool.not_eq_true', Bool.or_eq_false_iff, beq_eq_false_iff_ne, ne_eq,
    and_assoc, ← Char.toNat_inj]
  exact Iff.rfl

/-- The characters that a word of the class can begin with. -/
def begins : WordClass → Char → Bool
  | integer, c => c.isDigit
  | statement, c => isOrdinary c || c == '/'
  | name, c => beginsName c
  | string, c => c == '"'
  | address, c => c == '0'
  | blanks, c => separates c
  | blockComment, c | lineComment, c => c == '/'

/-- The characters that, right behind a word of the class, could make it longer or no word. -/
def continues : WordClass → Char → Bool
  | integer, c | name, c | address, c => continuesName c
  | statement, c => isOrdinary c || c == '/'
  | string, _ | blockComment, _ => false
  | blanks, c => separates c
  | lineComment, c => c != '\n'

/-- No character that could continue a word of the class comes first in a text. -/
def Stops (c : WordClass) (cs : List Char) : Prop := ∀ x ∈ cs.head?, c.continues x = false

/-! ## Runs -/

/-- A run goes on with the first character of a text or is empty. -/
theorem run_cons (p : Char → Bool) (c : Char) (cs : List Char) :
    run p (c :: cs) = if p c then run p cs + 1 else 0 := by
  unfold run
  rw [List.takeWhile_cons]
  split <;> simp

/-- A run is no longer than the text. -/
theorem run_le (p : Char → Bool) (cs : List Char) : run p cs ≤ cs.length :=
  (List.takeWhile_sublist p).length_le

/-- A run ends where the text is cut off, or before. -/
theorem run_take (p : Char → Bool) (cs : List Char) (m : Nat) :
    run p (cs.take m) = min m (run p cs) := by
  induction cs generalizing m with
  | nil => simp [run]
  | cons c cs ih =>
    cases m with
    | zero => simp [run]
    | succ m =>
      rw [List.take_succ_cons, run_cons, run_cons, ih]
      split <;> omega

/-- What a run takes satisfies its condition. -/
theorem of_mem_take_run {p : Char → Bool} {cs : List Char} {x : Char}
    (hx : x ∈ cs.take (run p cs)) : p x = true := by
  induction cs with
  | nil => exact absurd hx (by simp)
  | cons c cs ih =>
    rw [run_cons] at hx
    split at hx
    · next hc =>
      rcases List.mem_cons.1 hx with rfl | hx
      · exact hc
      · exact ih hx
    · exact absurd hx (by simp)

/-- A run ends before a character that does not belong to it. -/
theorem run_append {p : Char → Bool} (w : List Char) {rest : List Char}
    (h : ∀ x ∈ rest.head?, p x = false) : run p (w ++ rest) = run p w := by
  induction w with
  | nil =>
    cases rest with
    | nil => rfl
    | cons x rest => simp [run, h x rfl]
  | cons c w ih => rw [List.cons_append, run_cons, run_cons, ih]

/-- A run goes on as far as it can. -/
theorem not_of_run {p : Char → Bool} {w rest : List Char}
    (h : run p (w ++ rest) = w.length) : ∀ x ∈ rest.head?, p x = false := by
  induction w with
  | nil =>
    intro x hx
    obtain ⟨rest, rfl⟩ := List.head?_eq_some_iff.1 hx
    rw [List.nil_append, run_cons] at h
    split at h
    · exact absurd h (by simp)
    · next hx => simpa using hx
  | cons y w ih =>
    rw [List.cons_append, run_cons] at h
    split at h
    · exact ih (by simpa using h)
    · exact absurd h (by simp)

/-- A run of at least one character. -/
theorem run?_eq_some_iff {p : Char → Bool} {cs : List Char} {n : Nat} :
    run? p cs = some n ↔ run p cs = n ∧ 0 < n := by
  unfold run?
  split
  · next h =>
    rw [h]
    constructor
    · intro hn
      exact absurd hn (by simp)
    · rintro ⟨rfl, hn⟩
      omega
  · next m h =>
    rw [h]
    constructor
    · intro hn
      obtain rfl := Option.some.inj hn
      exact ⟨rfl, by omega⟩
    · rintro ⟨rfl, -⟩
      rfl

/-- A run is still one when the text is cut off behind it. -/
theorem run?_take {p : Char → Bool} {cs : List Char} {n m : Nat} (h : run? p cs = some n)
    (hm : n ≤ m) : run? p (cs.take m) = some n := by
  obtain ⟨rfl, hn⟩ := run?_eq_some_iff.1 h
  rw [run?_eq_some_iff, run_take, Nat.min_eq_right hm]
  exact ⟨rfl, hn⟩

/-- A run ends before a character that does not belong to it. -/
theorem run?_append {p : Char → Bool} {w rest : List Char} (h : ∀ x ∈ rest.head?, p x = false) :
    run? p (w ++ rest) = run? p w := by
  unfold run?
  rw [run_append w h]

/-! ## Integer literals -/

/-- A decimal digit or an underscore is no radix letter. -/
theorem radixDigit?_of_decimal {c : Char} (h : (c.isDigit || c == '_') = true) :
    radixDigit? c = none := by
  unfold radixDigit?
  split <;> first | rfl | exact absurd h (by decide)

/-- Decimal digits can continue a name. -/
theorem continuesName_of_decimal {c : Char} (h : (c.isDigit || c == '_') = true) :
    continuesName c = true := by
  rw [continuesName_iff]
  simp only [Bool.or_eq_true, beq_iff_eq, isDigit_iff, ← Char.toNat_inj] at h
  simp at h
  omega

/-- Hexadecimal digits can continue a name. -/
theorem continuesName_of_isHexDigit {c : Char} (h : isHexDigit c = true) :
    continuesName c = true := by
  rw [continuesName_iff]
  rw [isHexDigit_iff] at h
  omega

/-- A radix letter can continue a name. -/
theorem radixDigit?_of_continuesName {c : Char} (h : continuesName c = false) :
    radixDigit? c = none := by
  unfold radixDigit?
  split <;> first | rfl | exact absurd h (by decide)

/-- The digits of every radix can continue a name. -/
theorem continuesName_of_radixDigit? {m c : Char} {p : Char → Bool} (h : radixDigit? m = some p)
    (hc : p c = true) : continuesName c = true := by
  rw [continuesName_iff]
  unfold radixDigit? at h
  split at h <;> simp only [Option.some.injEq, reduceCtorEq] at h
  all_goals
    subst h
    simp only [Bool.or_eq_true, Bool.and_eq_true, decide_eq_true_eq, beq_iff_eq, isHexDigit_iff,
      Char.le_def, UInt32.le_iff_toNat_le, ← Char.toNat_inj] at hc
    simp at hc
    omega

/-- A radix letter comes first in a text, and digits of that radix behind it. -/
def BeginsRadix (cs : List Char) : Prop :=
  ∃ m ds p, cs = m :: ds ∧ radixDigit? m = some p ∧ 0 < run p ds

/-- How a text begins with an integer literal: with digits of a radix behind its letter, or with a
decimal digit. -/
theorem integerLength?_eq_some {cs : List Char} {n : Nat} (h : integerLength? cs = some n) :
    (∃ m ds p k, cs = '0' :: m :: ds ∧ radixDigit? m = some p ∧ run? p ds = some k ∧ n = k + 2) ∨
      ∃ c ds, cs = c :: ds ∧ c.isDigit = true ∧ (c = '0' → ¬ BeginsRadix ds) ∧
        n = run (fun c => c.isDigit || c == '_') ds + 1 := by
  have hdecimal : ∀ (c : Char) (ds : List Char), (c = '0' → ¬ BeginsRadix ds) →
      decimalLength? (c :: ds) = some n → ∃ c' ds', c :: ds = c' :: ds' ∧ c'.isDigit = true ∧
        (c' = '0' → ¬ BeginsRadix ds') ∧ n = run (fun c => c.isDigit || c == '_') ds' + 1 := by
    intro c ds hradix hcs
    unfold decimalLength? at hcs
    dsimp only at hcs
    split at hcs
    · next hc => exact ⟨c, ds, rfl, hc, hradix, (Option.some.inj hcs).symm⟩
    · exact absurd hcs (by simp)
  unfold integerLength? at h
  split at h
  · next m ds =>
    split at h
    · next k hk =>
      obtain ⟨p, hp, hrun⟩ := Option.bind_eq_some_iff.1 hk
      exact .inl ⟨m, ds, p, k, rfl, hp, hrun, (Option.some.inj h).symm⟩
    · next hnone =>
      refine .inr (hdecimal _ _ ?_ h)
      rintro - ⟨m', ds', p, heq, hp, hpos⟩
      obtain ⟨rfl, rfl⟩ := List.cons.inj heq
      have hrun : run? p ds = some (run p ds) := run?_eq_some_iff.2 ⟨rfl, hpos⟩
      simp [hp, hrun] at hnone
  · next hshort =>
    cases cs with
    | nil => exact absurd h (by simp [decimalLength?])
    | cons c ds =>
      refine .inr (hdecimal _ _ ?_ h)
      rintro rfl ⟨m, ds', p, rfl, -⟩
      exact hshort m ds' rfl

/-- Digits of a radix behind its letter are an integer literal. -/
theorem integerLength?_of_radix {m : Char} {ds : List Char} {p : Char → Bool} {k : Nat}
    (hp : radixDigit? m = some p) (hk : run? p ds = some k) :
    integerLength? ('0' :: m :: ds) = some (k + 2) := by
  simp [integerLength?, hp, hk]

/-- A decimal digit that no radix follows begins an integer literal. -/
theorem integerLength?_of_decimal {c : Char} {ds : List Char} (hc : c.isDigit = true)
    (hds : c = '0' → ¬ BeginsRadix ds) :
    integerLength? (c :: ds) = some (run (fun c => c.isDigit || c == '_') ds + 1) := by
  unfold integerLength?
  split
  · next m ds' heq =>
    obtain ⟨rfl, rfl⟩ := List.cons.inj heq
    have hnone : (radixDigit? m).bind (run? · ds') = none := by
      rw [Option.bind_eq_none_iff]
      intro p hp
      rw [Option.eq_none_iff_forall_ne_some]
      intro k hk
      obtain ⟨rfl, hpos⟩ := run?_eq_some_iff.1 hk
      exact hds rfl ⟨m, ds', p, rfl, hp, hpos⟩
    rw [hnone]
    simp [decimalLength?, hc]
  · simp [decimalLength?, hc]

/-- What is cut off does not begin with a radix if it did not before. -/
theorem BeginsRadix.of_take {cs : List Char} {m : Nat} (h : BeginsRadix (cs.take m)) :
    BeginsRadix cs := by
  obtain ⟨x, ds, p, heq, hp, hpos⟩ := h
  cases cs with
  | nil => exact absurd heq (by simp)
  | cons y cs =>
    cases m with
    | zero => exact absurd heq (by simp)
    | succ m =>
      rw [List.take_succ_cons] at heq
      obtain ⟨rfl, rfl⟩ := List.cons.inj heq
      rw [run_take] at hpos
      exact ⟨y, cs, p, rfl, hp, by omega⟩

/-- Behind a text without a radix none begins with what continues no name. -/
theorem BeginsRadix.of_append {cs rest : List Char} (h : BeginsRadix (cs ++ rest))
    (hrest : ∀ x ∈ rest.head?, continuesName x = false) : BeginsRadix cs := by
  obtain ⟨x, ds, p, heq, hp, hpos⟩ := h
  cases cs with
  | nil =>
    have hx : radixDigit? x = none := radixDigit?_of_continuesName (hrest x (by
      rw [← List.nil_append rest, heq]
      rfl))
    rw [hp] at hx
    exact absurd hx (by simp)
  | cons y cs =>
    rw [List.cons_append] at heq
    obtain ⟨rfl, rfl⟩ := List.cons.inj heq
    refine ⟨y, cs, p, rfl, hp, ?_⟩
    rwa [run_append] at hpos
    intro x hx
    rw [Bool.eq_false_iff]
    intro hpx
    have hx' := hrest x hx
    rw [continuesName_of_radixDigit? hp hpx] at hx'
    exact absurd hx' (by simp)

/-! ## The rest of a string literal and of a block comment -/

/-- The rest of a string literal is not changed by what comes behind it. -/
theorem stringTail?_append {w rest : List Char} {n : Nat} (h : stringTail? w = some n) :
    stringTail? (w ++ rest) = some n := by
  fun_induction stringTail? w generalizing n with
  | case1 => exact absurd h (by simp)
  | case2 => simpa [stringTail?] using h
  | case3 => exact absurd h (by simp)
  | case4 => exact absurd h (by simp)
  | case5 => exact absurd h (by simp)
  | case6 c cs hc ih =>
    obtain ⟨m, hm, rfl⟩ := Option.map_eq_some_iff.1 h
    simp [stringTail?, hc, ih hm]
  | case7 c cs h₁ h₂ h₃ ih =>
    obtain ⟨m, hm, rfl⟩ := Option.map_eq_some_iff.1 h
    rw [List.cons_append, stringTail?, ih hm]
    · rfl
    all_goals simp_all

/-- The rest of a string literal is still one when the text is cut off behind it. -/
theorem stringTail?_take {cs : List Char} {n m : Nat} (h : stringTail? cs = some n)
    (hm : n ≤ m) : n ≤ cs.length ∧ stringTail? (cs.take m) = some n := by
  fun_induction stringTail? cs generalizing n m with
  | case1 => exact absurd h (by simp)
  | case2 cs =>
    obtain rfl := Option.some.inj h
    obtain ⟨m, rfl⟩ : ∃ j, m = j + 1 := ⟨m - 1, by omega⟩
    simp [stringTail?]
  | case3 => exact absurd h (by simp)
  | case4 => exact absurd h (by simp)
  | case5 => exact absurd h (by simp)
  | case6 c cs hc ih =>
    obtain ⟨k, hk, rfl⟩ := Option.map_eq_some_iff.1 h
    obtain ⟨m, rfl⟩ : ∃ j, m = j + 2 := ⟨m - 2, by omega⟩
    obtain ⟨hle, htake⟩ := ih hk (Nat.le_of_add_le_add_right hm)
    exact ⟨by simp only [List.length_cons]; omega, by simp [stringTail?, hc, htake]⟩
  | case7 c cs h₁ h₂ h₃ ih =>
    obtain ⟨k, hk, rfl⟩ := Option.map_eq_some_iff.1 h
    obtain ⟨m, rfl⟩ : ∃ j, m = j + 1 := ⟨m - 1, by omega⟩
    obtain ⟨hle, htake⟩ := ih hk (Nat.le_of_add_le_add_right hm)
    refine ⟨by simp only [List.length_cons]; omega, ?_⟩
    rw [List.take_succ_cons, stringTail?, htake]
    · rfl
    all_goals simp_all

/-- The rest of a string literal ends with a quote. -/
theorem exists_quote_of_stringTail? {cs : List Char} {n : Nat} (h : stringTail? cs = some n) :
    ∃ ds, cs.take n = ds ++ ['"'] := by
  fun_induction stringTail? cs generalizing n with
  | case1 => exact absurd h (by simp)
  | case2 cs =>
    obtain rfl := Option.some.inj h
    exact ⟨[], by simp⟩
  | case3 => exact absurd h (by simp)
  | case4 => exact absurd h (by simp)
  | case5 => exact absurd h (by simp)
  | case6 c cs hc ih =>
    obtain ⟨m, hm, rfl⟩ := Option.map_eq_some_iff.1 h
    obtain ⟨ds, hds⟩ := ih hm
    exact ⟨'\\' :: c :: ds, by simp [hds]⟩
  | case7 c cs h₁ h₂ h₃ ih =>
    obtain ⟨m, hm, rfl⟩ := Option.map_eq_some_iff.1 h
    obtain ⟨ds, hds⟩ := ih hm
    exact ⟨c :: ds, by simp [hds]⟩

/-- The rest of a block comment has a character. -/
theorem blockCommentTail?_pos {cs : List Char} {n : Nat} (h : blockCommentTail? cs = some n) :
    0 < n := by
  cases cs with
  | nil => exact absurd h (by simp [blockCommentTail?])
  | cons c cs =>
    unfold blockCommentTail? at h
    split at h
    · obtain rfl := Option.some.inj h
      omega
    · obtain ⟨m, -, rfl⟩ := Option.map_eq_some_iff.1 h
      omega

/-- The rest of a block comment is not changed by what comes behind it. -/
theorem blockCommentTail?_append {w rest : List Char} {n : Nat}
    (h : blockCommentTail? w = some n) : blockCommentTail? (w ++ rest) = some n := by
  induction w generalizing n with
  | nil => exact absurd h (by simp [blockCommentTail?])
  | cons c w ih =>
    cases w with
    | nil => exact absurd h (by simp [blockCommentTail?])
    | cons d w =>
      rw [blockCommentTail?] at h
      have hhead : (d :: w ++ rest).head? = (d :: w).head? := rfl
      rw [List.cons_append, blockCommentTail?, hhead]
      by_cases hclose : c = '*' ∧ (d :: w).head? = some '/'
      · rw [if_pos hclose] at h
        rw [if_pos hclose, h]
      · rw [if_neg hclose] at h
        obtain ⟨m, hm, rfl⟩ := Option.map_eq_some_iff.1 h
        rw [if_neg hclose, ih hm, Option.map_some]

/-- The rest of a block comment is still one when the text is cut off behind it. -/
theorem blockCommentTail?_take {cs : List Char} {n m : Nat} (h : blockCommentTail? cs = some n)
    (hm : n ≤ m) : n ≤ cs.length ∧ blockCommentTail? (cs.take m) = some n := by
  induction cs generalizing n m with
  | nil => exact absurd h (by simp [blockCommentTail?])
  | cons c cs ih =>
    unfold blockCommentTail? at h
    split at h
    · next hclose =>
      obtain rfl := Option.some.inj h
      obtain ⟨m, rfl⟩ : ∃ j, m = j + 2 := ⟨m - 2, by omega⟩
      cases cs with
      | nil => exact absurd hclose.2 (by simp)
      | cons d cs =>
        refine ⟨by simp, ?_⟩
        have hd : d = '/' := Option.some.inj hclose.2
        simp [blockCommentTail?, hclose.1, hd]
    · next hopen =>
      obtain ⟨k, hk, rfl⟩ := Option.map_eq_some_iff.1 h
      obtain ⟨m, rfl⟩ : ∃ j, m = j + 1 := ⟨m - 1, by omega⟩
      have hpos := blockCommentTail?_pos hk
      obtain ⟨hle, htake⟩ := ih hk (Nat.le_of_add_le_add_right hm)
      have hhead : (cs.take m).head? = cs.head? := by
        rw [List.head?_take, if_neg (by omega)]
      refine ⟨by simp only [List.length_cons]; omega, ?_⟩
      rw [List.take_succ_cons, blockCommentTail?, hhead, if_neg hopen, htake, Option.map_some]

/-! ## The other classes -/

/-- A name is a character that begins names and the run of those that continue them. -/
theorem nameLength?_eq_some_iff {cs : List Char} {n : Nat} : nameLength? cs = some n ↔
    ∃ c ds, cs = c :: ds ∧ beginsName c = true ∧ n = run continuesName ds + 1 := by
  constructor
  · intro h
    unfold nameLength? at h
    split at h
    · next c ds =>
      split at h
      · next hc => exact ⟨c, ds, rfl, hc, (Option.some.inj h).symm⟩
      · exact absurd h (by simp)
    · exact absurd h (by simp)
  · rintro ⟨c, ds, rfl, hc, rfl⟩
    rw [nameLength?, if_pos hc]

/-- A string literal is a quote and what goes through the closing quote. -/
theorem stringLength?_eq_some_iff {cs : List Char} {n : Nat} : stringLength? cs = some n ↔
    ∃ ds k, cs = '"' :: ds ∧ stringTail? ds = some k ∧ n = k + 1 := by
  constructor
  · intro h
    unfold stringLength? at h
    split at h
    · next ds =>
      obtain ⟨k, hk, rfl⟩ := Option.map_eq_some_iff.1 h
      exact ⟨ds, k, rfl, hk, rfl⟩
    · exact absurd h (by simp)
  · rintro ⟨ds, k, rfl, hk, rfl⟩
    rw [stringLength?, hk, Option.map_some]

/-- An address is `0x` and hexadecimal digits. -/
theorem addressLength?_eq_some_iff {cs : List Char} {n : Nat} : addressLength? cs = some n ↔
    ∃ ds k, cs = '0' :: 'x' :: ds ∧ run? isHexDigit ds = some k ∧ n = k + 2 := by
  constructor
  · intro h
    unfold addressLength? at h
    split at h
    · next ds =>
      obtain ⟨k, hk, rfl⟩ := Option.map_eq_some_iff.1 h
      exact ⟨ds, k, rfl, hk, rfl⟩
    · exact absurd h (by simp)
  · rintro ⟨ds, k, rfl, hk, rfl⟩
    rw [addressLength?, hk, Option.map_some]

/-- A block comment is its opening mark and what goes through the closing mark. -/
theorem blockCommentLength?_eq_some_iff {cs : List Char} {n : Nat} :
    blockCommentLength? cs = some n ↔
      ∃ ds k, cs = '/' :: '*' :: ds ∧ blockCommentTail? ds = some k ∧ n = k + 2 := by
  constructor
  · intro h
    unfold blockCommentLength? at h
    split at h
    · next ds =>
      obtain ⟨k, hk, rfl⟩ := Option.map_eq_some_iff.1 h
      exact ⟨ds, k, rfl, hk, rfl⟩
    · exact absurd h (by simp)
  · rintro ⟨ds, k, rfl, hk, rfl⟩
    rw [blockCommentLength?, hk, Option.map_some]

/-- A line comment is two slashes and the run up to a line feed. -/
theorem lineCommentLength?_eq_some_iff {cs : List Char} {n : Nat} :
    lineCommentLength? cs = some n ↔
      ∃ ds, cs = '/' :: '/' :: ds ∧ n = run (· != '\n') ds + 2 := by
  constructor
  · intro h
    unfold lineCommentLength? at h
    split at h
    · next ds => exact ⟨ds, rfl, (Option.some.inj h).symm⟩
    · exact absurd h (by simp)
  · rintro ⟨ds, rfl, rfl⟩
    rw [lineCommentLength?]

/-- Text of a body is a slash that opens no comment, or a run of ordinary characters. -/
theorem statementLength?_eq_some_iff {cs : List Char} {n : Nat} : statementLength? cs = some n ↔
    (∃ ds, cs = '/' :: ds ∧ ds.head? ≠ some '/' ∧ ds.head? ≠ some '*' ∧ n = 1) ∨
      run? isOrdinary cs = some n := by
  by_cases hslash : ∃ ds, cs = '/' :: ds
  · obtain ⟨ds, rfl⟩ := hslash
    have hrun : run? isOrdinary ('/' :: ds) = none := by
      rw [run?, run_cons, if_neg (by decide)]
    rw [hrun, statementLength?]
    split <;> grind
  · rw [not_exists] at hslash
    have hrun : statementLength? cs = run? isOrdinary cs := by
      unfold statementLength?
      split
      · next ds => exact absurd rfl (hslash ds)
      · rfl
    rw [hrun]
    constructor
    · exact .inr
    · rintro (⟨ds, hcs, -⟩ | h)
      · exact absurd hcs (hslash ds)
      · exact h

/-! ## Cutting off the text behind a word -/

/-- An integer literal is found as well in a text that is cut off behind it. -/
theorem integerLength?_take {cs : List Char} {n m : Nat} (h : integerLength? cs = some n)
    (hm : n ≤ m) : n ≤ cs.length ∧ integerLength? (cs.take m) = some n := by
  rcases integerLength?_eq_some h with
    ⟨r, ds, p, k, rfl, hp, hk, rfl⟩ | ⟨c, ds, rfl, hc, hradix, rfl⟩
  · obtain ⟨rfl, -⟩ := run?_eq_some_iff.1 hk
    have hle := run_le p ds
    obtain ⟨m, rfl⟩ : ∃ j, m = j + 2 := ⟨m - 2, by omega⟩
    refine ⟨by simp only [List.length_cons]; omega, ?_⟩
    rw [List.take_succ_cons, List.take_succ_cons]
    exact integerLength?_of_radix hp (run?_take hk (by omega))
  · have hle := run_le (fun c => c.isDigit || c == '_') ds
    obtain ⟨m, rfl⟩ : ∃ j, m = j + 1 := ⟨m - 1, by omega⟩
    refine ⟨by simp only [List.length_cons]; omega, ?_⟩
    rw [List.take_succ_cons, integerLength?_of_decimal hc fun hc' h' => hradix hc' h'.of_take,
      run_take, Nat.min_eq_right (by omega)]

/-- Text of a body is found as well in a text that is cut off behind it. -/
theorem statementLength?_take {cs : List Char} {n m : Nat} (h : statementLength? cs = some n)
    (hm : n ≤ m) : n ≤ cs.length ∧ statementLength? (cs.take m) = some n := by
  rcases statementLength?_eq_some_iff.1 h with ⟨ds, rfl, hline, hblock, rfl⟩ | hrun
  · obtain ⟨m, rfl⟩ : ∃ j, m = j + 1 := ⟨m - 1, by omega⟩
    refine ⟨by simp, statementLength?_eq_some_iff.2 (.inl ⟨ds.take m, rfl, ?_, ?_, rfl⟩)⟩
    all_goals
      rw [List.head?_take]
      split <;> simp_all
  · have htake := run?_take hrun hm
    obtain ⟨rfl, -⟩ := run?_eq_some_iff.1 hrun
    exact ⟨run_le _ _, statementLength?_eq_some_iff.2 (.inr htake)⟩

/-- A name is found as well in a text that is cut off behind it. -/
theorem nameLength?_take {cs : List Char} {n m : Nat} (h : nameLength? cs = some n)
    (hm : n ≤ m) : n ≤ cs.length ∧ nameLength? (cs.take m) = some n := by
  obtain ⟨c, ds, rfl, hc, rfl⟩ := nameLength?_eq_some_iff.1 h
  have hle := run_le continuesName ds
  obtain ⟨m, rfl⟩ : ∃ j, m = j + 1 := ⟨m - 1, by omega⟩
  refine ⟨by simp only [List.length_cons]; omega, ?_⟩
  refine nameLength?_eq_some_iff.2 ⟨c, ds.take m, rfl, hc, ?_⟩
  rw [run_take, Nat.min_eq_right (by omega)]

/-- A block comment is found as well in a text that is cut off behind it. -/
theorem blockCommentLength?_take {cs : List Char} {n m : Nat}
    (h : blockCommentLength? cs = some n) (hm : n ≤ m) :
    n ≤ cs.length ∧ blockCommentLength? (cs.take m) = some n := by
  obtain ⟨ds, k, rfl, hk, rfl⟩ := blockCommentLength?_eq_some_iff.1 h
  obtain ⟨m, rfl⟩ : ∃ j, m = j + 2 := ⟨m - 2, by omega⟩
  obtain ⟨hle, htake⟩ := blockCommentTail?_take hk (Nat.le_of_add_le_add_right hm)
  refine ⟨by simp only [List.length_cons]; omega, ?_⟩
  exact blockCommentLength?_eq_some_iff.2 ⟨ds.take m, k, rfl, htake, rfl⟩

/-- A line comment is found as well in a text that is cut off behind it. -/
theorem lineCommentLength?_take {cs : List Char} {n m : Nat}
    (h : lineCommentLength? cs = some n) (hm : n ≤ m) :
    n ≤ cs.length ∧ lineCommentLength? (cs.take m) = some n := by
  obtain ⟨ds, rfl, rfl⟩ := lineCommentLength?_eq_some_iff.1 h
  have hle := run_le (· != '\n') ds
  obtain ⟨m, rfl⟩ : ∃ j, m = j + 2 := ⟨m - 2, by omega⟩
  refine ⟨by simp only [List.length_cons]; omega, ?_⟩
  refine lineCommentLength?_eq_some_iff.2 ⟨ds.take m, rfl, ?_⟩
  rw [run_take, Nat.min_eq_right (by omega)]

/-- A string literal is found as well in a text that is cut off behind it. -/
theorem stringLength?_take {cs : List Char} {n m : Nat} (h : stringLength? cs = some n)
    (hm : n ≤ m) : n ≤ cs.length ∧ stringLength? (cs.take m) = some n := by
  obtain ⟨ds, k, rfl, hk, rfl⟩ := stringLength?_eq_some_iff.1 h
  obtain ⟨m, rfl⟩ : ∃ j, m = j + 1 := ⟨m - 1, by omega⟩
  obtain ⟨hle, htake⟩ := stringTail?_take hk (Nat.le_of_add_le_add_right hm)
  refine ⟨by simp only [List.length_cons]; omega, ?_⟩
  exact stringLength?_eq_some_iff.2 ⟨ds.take m, k, rfl, htake, rfl⟩

/-- An address is found as well in a text that is cut off behind it. -/
theorem addressLength?_take {cs : List Char} {n m : Nat} (h : addressLength? cs = some n)
    (hm : n ≤ m) : n ≤ cs.length ∧ addressLength? (cs.take m) = some n := by
  obtain ⟨ds, k, rfl, hk, rfl⟩ := addressLength?_eq_some_iff.1 h
  obtain ⟨m, rfl⟩ : ∃ j, m = j + 2 := ⟨m - 2, by omega⟩
  have htake := run?_take hk (Nat.le_of_add_le_add_right hm)
  obtain ⟨rfl, -⟩ := run?_eq_some_iff.1 hk
  have hle := run_le isHexDigit ds
  refine ⟨by simp only [List.length_cons]; omega, ?_⟩
  exact addressLength?_eq_some_iff.2 ⟨ds.take m, _, rfl, htake, rfl⟩

/-! ## A text behind a word -/

/-- What continues no name is in no set of characters that continue names. -/
theorem not_of_not_continuesName {p : Char → Bool} {rest : List Char}
    (hp : ∀ x, p x = true → continuesName x = true)
    (hrest : ∀ x ∈ rest.head?, continuesName x = false) : ∀ x ∈ rest.head?, p x = false := by
  intro x hx
  rw [Bool.eq_false_iff]
  intro hpx
  have hx' := hrest x hx
  rw [hp x hpx] at hx'
  exact absurd hx' (by simp)

/-- An integer literal ends where no character of a name follows. -/
theorem integerLength?_append {w rest : List Char} {n : Nat} (h : integerLength? w = some n)
    (hrest : ∀ x ∈ rest.head?, continuesName x = false) :
    integerLength? (w ++ rest) = some n := by
  rcases integerLength?_eq_some h with
    ⟨m, ds, p, k, rfl, hp, hk, rfl⟩ | ⟨c, ds, rfl, hc, hradix, rfl⟩
  · have hend := not_of_not_continuesName (fun x => continuesName_of_radixDigit? hp) hrest
    rw [List.cons_append, List.cons_append]
    refine integerLength?_of_radix hp ?_
    rw [run?_append hend, hk]
  · have hend := not_of_not_continuesName (fun x => continuesName_of_decimal) hrest
    rw [List.cons_append, integerLength?_of_decimal hc fun hc' h' =>
      hradix hc' (h'.of_append hrest), run_append _ hend]

/-- Text of a body ends where no such character follows. -/
theorem statementLength?_append {w rest : List Char} {n : Nat} (h : statementLength? w = some n)
    (hrest : ∀ x ∈ rest.head?, (isOrdinary x || x == '/') = false) :
    statementLength? (w ++ rest) = some n := by
  rw [statementLength?_eq_some_iff]
  rcases statementLength?_eq_some_iff.1 h with ⟨ds, rfl, hline, hblock, rfl⟩ | hrun
  · left
    refine ⟨ds ++ rest, rfl, ?_, ?_, rfl⟩
    all_goals
      cases ds with
      | nil =>
        intro hmark
        exact absurd (hrest _ hmark) (by decide)
      | cons x ds => assumption
  · right
    rw [run?_append, hrun]
    intro x hx
    exact (Bool.or_eq_false_iff.1 (hrest x hx)).1

/-- A name ends where no character of a name follows. -/
theorem nameLength?_append {w rest : List Char} {n : Nat} (h : nameLength? w = some n)
    (hrest : ∀ x ∈ rest.head?, continuesName x = false) : nameLength? (w ++ rest) = some n := by
  obtain ⟨c, ds, rfl, hc, rfl⟩ := nameLength?_eq_some_iff.1 h
  refine nameLength?_eq_some_iff.2 ⟨c, ds ++ rest, rfl, hc, ?_⟩
  rw [run_append ds hrest]

/-- A block comment ends with its own end, whatever follows. -/
theorem blockCommentLength?_append {w : List Char} {n : Nat}
    (h : blockCommentLength? w = some n) (rest : List Char) :
    blockCommentLength? (w ++ rest) = some n := by
  obtain ⟨ds, k, rfl, hk, rfl⟩ := blockCommentLength?_eq_some_iff.1 h
  exact blockCommentLength?_eq_some_iff.2 ⟨ds ++ rest, k, rfl, blockCommentTail?_append hk, rfl⟩

/-- A line comment ends where a line feed follows, or nothing. -/
theorem lineCommentLength?_append {w rest : List Char} {n : Nat}
    (h : lineCommentLength? w = some n) (hrest : ∀ x ∈ rest.head?, (x != '\n') = false) :
    lineCommentLength? (w ++ rest) = some n := by
  obtain ⟨ds, rfl, rfl⟩ := lineCommentLength?_eq_some_iff.1 h
  refine lineCommentLength?_eq_some_iff.2 ⟨ds ++ rest, rfl, ?_⟩
  rw [run_append ds hrest]

/-- A string literal ends with its own quote, whatever follows. -/
theorem stringLength?_append {w : List Char} {n : Nat} (h : stringLength? w = some n)
    (rest : List Char) : stringLength? (w ++ rest) = some n := by
  obtain ⟨ds, k, rfl, hk, rfl⟩ := stringLength?_eq_some_iff.1 h
  exact stringLength?_eq_some_iff.2 ⟨ds ++ rest, k, rfl, stringTail?_append hk, rfl⟩

/-- An address ends where no character of a name follows. -/
theorem addressLength?_append {w rest : List Char} {n : Nat} (h : addressLength? w = some n)
    (hrest : ∀ x ∈ rest.head?, continuesName x = false) :
    addressLength? (w ++ rest) = some n := by
  obtain ⟨ds, k, rfl, hk, rfl⟩ := addressLength?_eq_some_iff.1 h
  have hend := not_of_not_continuesName (fun x => continuesName_of_isHexDigit) hrest
  refine addressLength?_eq_some_iff.2 ⟨ds ++ rest, k, rfl, ?_, rfl⟩
  rw [run?_append hend, hk]

/-! ## All classes -/

/-- A run begins with a character of its own. -/
theorem of_run?_cons {p : Char → Bool} {x : Char} {cs : List Char} {n : Nat}
    (h : run? p (x :: cs) = some n) : p x = true := by
  obtain ⟨hrun, hpos⟩ := run?_eq_some_iff.1 h
  rw [run_cons] at hrun
  split at hrun
  · assumption
  · omega

/-- The first character of a text tells which classes its first word can be of. -/
theorem begins_of_length? {c : WordClass} {x : Char} {cs : List Char} {n : Nat}
    (h : c.length? (x :: cs) = some n) : c.begins x = true := by
  cases c with
  | integer =>
    rcases integerLength?_eq_some h with ⟨m, ds, p, k, heq, -⟩ | ⟨c, ds, heq, hc, -⟩
    · obtain ⟨rfl, -⟩ := List.cons.inj heq
      rfl
    · obtain ⟨rfl, -⟩ := List.cons.inj heq
      exact hc
  | statement =>
    rcases statementLength?_eq_some_iff.1 h with ⟨ds, heq, -⟩ | hrun
    · obtain ⟨rfl, -⟩ := List.cons.inj heq
      rfl
    · simp [begins, of_run?_cons hrun]
  | name =>
    replace h : nameLength? (x :: cs) = some n := h
    obtain ⟨c, ds, heq, hc, -⟩ := nameLength?_eq_some_iff.1 h
    obtain ⟨rfl, -⟩ := List.cons.inj heq
    exact hc
  | blanks => exact of_run?_cons h
  | blockComment =>
    obtain ⟨ds, k, heq, -⟩ := blockCommentLength?_eq_some_iff.1 h
    obtain ⟨rfl, -⟩ := List.cons.inj heq
    rfl
  | lineComment =>
    obtain ⟨ds, heq, -⟩ := lineCommentLength?_eq_some_iff.1 h
    obtain ⟨rfl, -⟩ := List.cons.inj heq
    rfl
  | string =>
    obtain ⟨ds, k, heq, -⟩ := stringLength?_eq_some_iff.1 h
    obtain ⟨rfl, -⟩ := List.cons.inj heq
    rfl
  | address =>
    obtain ⟨ds, k, heq, -⟩ := addressLength?_eq_some_iff.1 h
    obtain ⟨rfl, -⟩ := List.cons.inj heq
    rfl

/-- No class has a word at the end of a text. -/
theorem length?_nil (c : WordClass) : c.length? [] = none := by
  cases c <;> rfl

/-- What a class takes of a text it still takes when the text is cut off behind it. -/
theorem length?_take_of_le {c : WordClass} {cs : List Char} {n m : Nat}
    (h : c.length? cs = some n) (hm : n ≤ m) :
    n ≤ cs.length ∧ c.length? (cs.take m) = some n := by
  cases c with
  | integer => exact integerLength?_take h hm
  | statement => exact statementLength?_take h hm
  | name => exact nameLength?_take h hm
  | blockComment => exact blockCommentLength?_take h hm
  | string => exact stringLength?_take h hm
  | address => exact addressLength?_take h hm
  | lineComment => exact lineCommentLength?_take h hm
  | blanks =>
    obtain ⟨rfl, -⟩ := run?_eq_some_iff.1 h
    exact ⟨run_le _ _, run?_take h hm⟩

/-- What a class takes of a text is a word of the class by itself. -/
theorem length?_take {c : WordClass} {cs : List Char} {n : Nat} (h : c.length? cs = some n) :
    n ≤ cs.length ∧ c.length? (cs.take n) = some n :=
  length?_take_of_le h (Nat.le_refl n)

/-- What a class takes of a text it takes of a longer text too, if nothing comes behind the text
that could continue a word. -/
theorem length?_append {c : WordClass} {w rest : List Char} {n : Nat} (h : c.length? w = some n)
    (hrest : c.Stops rest) : c.length? (w ++ rest) = some n := by
  cases c with
  | integer => exact integerLength?_append h hrest
  | statement => exact statementLength?_append h hrest
  | name => exact nameLength?_append h hrest
  | blockComment => exact blockCommentLength?_append h rest
  | string => exact stringLength?_append h rest
  | address => exact addressLength?_append h hrest
  | blanks => exact (run?_append hrest).trans h
  | lineComment => exact lineCommentLength?_append h hrest

/-- What begins a name continues it. -/
theorem continuesName_of_beginsName {x : Char} (h : beginsName x = true) :
    continuesName x = true := by
  rw [beginsName_iff] at h
  rw [continuesName_iff]
  omega

/-- A name is made of what continues a name. -/
theorem continuesName_of_mem_name {w : List Char} {x : Char}
    (hw : nameLength? w = some w.length) (hx : x ∈ w) : continuesName x = true := by
  obtain ⟨c, cs, rfl, hc, hlength⟩ := nameLength?_eq_some_iff.1 hw
  have hall : cs.take (run continuesName cs) = cs := by
    apply List.take_of_length_le
    rw [List.length_cons] at hlength
    omega
  rcases List.mem_cons.1 hx with rfl | hx
  · exact continuesName_of_beginsName hc
  · rw [← hall] at hx
    exact of_mem_take_run hx

/-- A name goes on as far as it can. -/
theorem stops_of_name {w rest : List Char}
    (h : name.length? (w ++ rest) = some w.length) : name.Stops rest := by
  obtain ⟨c, cs, heq, -, hlength⟩ := nameLength?_eq_some_iff.1 h
  cases w with
  | nil => exact absurd hlength (by simp)
  | cons x w =>
    obtain ⟨-, rfl⟩ := List.cons.inj heq
    exact not_of_run (p := continuesName) (by simpa using hlength.symm)

end CadenceEntry.WordClass
