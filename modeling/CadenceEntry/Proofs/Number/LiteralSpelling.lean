import CadenceEntry.Proofs.Number.LiteralValue
import Mathlib.Data.List.Induction

/-!
# How an integer literal is spelled

A number is spelled by its digits, with zeros in front of them. The letters among the digits are of
either case, and underscores can stand anywhere. A literal with a prefix is such a spelling behind a
zero and the letter of its radix, every other literal is one in decimal digits, of which there are
only so many. `value?_eq_some_iff_spells` says that these are the literals that have a value and
which one it is, `value?_eq_none_iff` which literals have none.
-/

set_option autoImplicit false

namespace CadenceEntry

namespace Number

/-! ## Digits -/

/-- The text spells the number `n` in the radix `b`: zeros and then the digits of `n`, in letters of
either case and with underscores anywhere. -/
def IsSpelledIn (b : Nat) (cs : List Char) (n : Nat) : Prop :=
  ∃ zeros, (cs.filter (· != '_')).map Char.toLower =
    List.replicate zeros '0' ++ Nat.toDigits b n

/-- A digit of the radix `b`, in either case. -/
def IsDigitOf (b : Nat) (c : Char) : Prop := ∃ d < b, c.toLower = Nat.digitChar d

instance (b : Nat) (c : Char) : Decidable (IsDigitOf b c) :=
  inferInstanceAs (Decidable (∃ d < b, c.toLower = Nat.digitChar d))

/-- A letter of either case by its code. -/
theorem toNat_toLower (c : Char) :
    c.toLower.toNat = if 65 ≤ c.toNat ∧ c.toNat ≤ 90 then c.toNat + 32 else c.toNat := by
  unfold Char.toLower
  split
  · next h =>
    have hcode : 65 ≤ c.toNat ∧ c.toNat ≤ 90 := h
    rw [if_pos hcode]
    show (c.val + 32).toNat = c.val.toNat + 32
    have hlt : c.val.toNat ≤ 90 := hcode.2
    rw [UInt32.toNat_add]
    exact Nat.mod_eq_of_lt (by simp; omega)
  · next h =>
    have hcode : ¬ (65 ≤ c.toNat ∧ c.toNat ≤ 90) := h
    rw [if_neg hcode]

/-- Digits that look alike are the same. -/
theorem digitChar_injective {d e : Nat} (hd : d < 16) (he : e < 16)
    (h : Nat.digitChar d = Nat.digitChar e) : d = e := by
  have hall : ∀ d < 16, ∀ e < 16, Nat.digitChar d = Nat.digitChar e → d = e := by decide
  exact hall d hd e he h

/-- A digit of a radix up to sixteen is a hexadecimal digit. -/
theorem IsDigitOf.isHexDigit {b : Nat} (hb : b ≤ 16) {c : Char} (h : IsDigitOf b c) :
    WordClass.isHexDigit c = true := by
  obtain ⟨d, hd, h⟩ := h
  have hall : ∀ d < 16, (48 ≤ (Nat.digitChar d).toNat ∧ (Nat.digitChar d).toNat ≤ 57) ∨
      (97 ≤ (Nat.digitChar d).toNat ∧ (Nat.digitChar d).toNat ≤ 102) := by decide
  have hcode := toNat_toLower c
  rw [h] at hcode
  have hdigit := hall d (by omega)
  rw [WordClass.isHexDigit_iff]
  split at hcode <;> omega

/-- A hexadecimal digit of either case has the value that its place among the digits says. -/
theorem digitValue?_of_isHexDigit {c : Char} (hc : WordClass.isHexDigit c = true) :
    ∃ d < 16, digitValue? c = some d ∧ c.toLower = Nat.digitChar d := by
  have hall : ∀ n < 103, WordClass.isHexDigit (Char.ofNat n) = true →
      ∃ d < 16, digitValue? (Char.ofNat n) = some d ∧
        (Char.ofNat n).toLower = Nat.digitChar d := by decide +kernel
  have hcode := WordClass.isHexDigit_iff.1 hc
  have h := hall c.toNat (by omega)
  rw [Char.ofNat_toNat] at h
  exact h hc

/-- A hexadecimal digit is the digit `d` of the radix `b`. -/
theorem digit?_eq_some_iff {b : Nat} (hb : b ≤ 16) {c : Char}
    (hc : WordClass.isHexDigit c = true) {d : Nat} :
    digit? b c = some d ↔ d < b ∧ c.toLower = Nat.digitChar d := by
  obtain ⟨e, he, hvalue, hlower⟩ := digitValue?_of_isHexDigit hc
  rw [digit?, hvalue, Option.filter_some]
  constructor
  · intro h
    split at h
    · next hlt =>
      obtain rfl := Option.some.inj h
      exact ⟨by simpa using hlt, hlower⟩
    · cases h
  · rintro ⟨hd, hd'⟩
    obtain rfl := digitChar_injective he (by omega) (hlower.symm.trans hd')
    rw [if_pos (by simpa using hd)]

/-- Hexadecimal digits are read as digits of the radix `b`. -/
theorem digits?_eq_some_iff {b : Nat} (hb : b ≤ 16) {cs : List Char}
    (hcs : ∀ c ∈ cs, WordClass.isHexDigit c = true) {ds : List Nat} :
    digits? b cs = some ds ↔
      cs ≠ [] ∧ (∀ d ∈ ds, d < b) ∧ cs.map Char.toLower = ds.map Nat.digitChar := by
  fun_induction digits? b cs generalizing ds with
  | case1 => simp
  | case2 c =>
    have hc := hcs c List.mem_cons_self
    rw [Option.map_eq_some_iff]
    constructor
    · rintro ⟨d, hd, rfl⟩
      simpa using (digit?_eq_some_iff hb hc).1 hd
    · rintro ⟨-, hds, heq⟩
      obtain ⟨d, rfl⟩ : ∃ d, ds = [d] := by
        rw [← List.length_eq_one_iff]
        simpa using (congrArg List.length heq).symm
      exact ⟨d, (digit?_eq_some_iff hb hc).2 (by simpa using And.intro hds heq), rfl⟩
  | case3 c cs =>
    have hunderscore := hcs '_' (by simp)
    exact absurd hunderscore (by decide)
  | case4 c cs hne _ ih =>
    have hc := hcs c List.mem_cons_self
    have ih := fun ds => @ih (fun x hx => hcs x (List.mem_cons_of_mem _ hx)) ds
    have hnil : cs ≠ [] := fun h => hne h
    simp only [Option.bind_eq_bind, Option.bind_eq_some_iff, Option.pure_def, Option.some.injEq]
    constructor
    · rintro ⟨d, hd, ds', hds', rfl⟩
      obtain ⟨hlt, hlower⟩ := (digit?_eq_some_iff hb hc).1 hd
      obtain ⟨-, hall, hmap⟩ := (ih ds').1 hds'
      exact ⟨by simp, List.forall_mem_cons.2 ⟨hlt, hall⟩, by simp [hlower, hmap]⟩
    · rintro ⟨-, hall, hmap⟩
      cases ds with
      | nil => cases hmap
      | cons d ds =>
        obtain ⟨hlower, hmap⟩ := List.cons.inj hmap
        obtain ⟨hlt, hall⟩ := List.forall_mem_cons.1 hall
        exact ⟨d, (digit?_eq_some_iff hb hc).2 ⟨hlt, hlower⟩, ds,
          (ih ds).2 ⟨hnil, hall, hmap⟩, rfl⟩

/-! ## Values -/

/-- The value of digits in two parts. -/
theorem valueFrom_append (b acc : Nat) (ds es : List Nat) :
    valueFrom b acc (ds ++ es) = valueFrom b (valueFrom b acc ds) es := List.foldl_append

/-- Zeros in front of digits do not count. -/
theorem valueFrom_replicate_zero (b zeros : Nat) (ds : List Nat) :
    valueFrom b 0 (List.replicate zeros 0 ++ ds) = valueFrom b 0 ds := by
  rw [valueFrom_append]
  congr 1
  induction zeros with
  | zero => rfl
  | succ zeros ih =>
    rw [List.replicate_succ', valueFrom_append, ih]
    simp [valueFrom]

section Radix

variable {b : Nat} (hb : 1 < b)
include hb

/-- The digits of a number have its value. -/
theorem exists_digits (n : Nat) : ∃ ds : List Nat,
    (∀ d ∈ ds, d < b) ∧ ds.map Nat.digitChar = Nat.toDigits b n ∧ valueFrom b 0 ds = n := by
  induction n using Nat.strongRecOn with
  | ind n ih =>
    by_cases hn : n < b
    · exact ⟨[n], by simpa using hn, by simp [Nat.toDigits_of_lt_base hn], by simp [valueFrom]⟩
    · have hle : b ≤ n := Nat.le_of_not_lt hn
      have hpos : 0 < n := by omega
      obtain ⟨ds, hds, hmap, hvalue⟩ := ih (n / b) (Nat.div_lt_self hpos hb)
      refine ⟨ds ++ [n % b], ?_, ?_, ?_⟩
      · simpa [or_imp, forall_and] using And.intro hds (Nat.mod_lt n (by omega))
      · rw [List.map_append, hmap, Nat.toDigits_of_base_le hb hle]
        rfl
      · rw [valueFrom_append, hvalue]
        show n / b * b + n % b = n
        exact Nat.div_add_mod' n b

/-- Digits are those of their value with zeros in front of them. -/
theorem map_digitChar_eq {ds : List Nat} (hne : ds ≠ []) (hds : ∀ d ∈ ds, d < b) :
    ∃ zeros, ds.map Nat.digitChar =
      List.replicate zeros '0' ++ Nat.toDigits b (valueFrom b 0 ds) := by
  induction ds using List.reverseRecOn with
  | nil => exact absurd rfl hne
  | append_singleton ds d ih =>
    have hd : d < b := hds d (by simp)
    have hvalue : valueFrom b 0 (ds ++ [d]) = b * valueFrom b 0 ds + d := by
      rw [valueFrom_append, Nat.mul_comm]
      rfl
    rw [hvalue, List.map_append]
    cases hds' : ds with
    | nil => exact ⟨0, by simp [valueFrom, Nat.toDigits_of_lt_base hd]⟩
    | cons e es =>
      rw [← hds']
      obtain ⟨zeros, hzeros⟩ := ih (by simp [hds']) fun d hd => hds d (by simp [hd])
      rcases Nat.eq_zero_or_pos (valueFrom b 0 ds) with hzero | hpos
      · -- only zeros so far, one more than the zeros in front of the digit zero
        refine ⟨zeros + 1, ?_⟩
        rw [hzeros, hzero, Nat.mul_zero, Nat.zero_add, Nat.toDigits_zero,
          Nat.toDigits_of_lt_base hd, List.replicate_succ']
        rfl
      · refine ⟨zeros, ?_⟩
        rw [hzeros, ← Nat.toDigits_append_toDigits hb hpos hd, Nat.toDigits_of_lt_base hd,
          List.append_assoc]
        rfl

/-- Digits that are read have the value that they spell. -/
theorem map_valueFrom_eq_some_iff (hb' : b ≤ 16) {cs : List Char}
    (hcs : ∀ c ∈ cs, WordClass.isHexDigit c = true) {n : Nat} :
    (digits? b cs).map (valueFrom b 0) = some n ↔
      ∃ zeros, cs.map Char.toLower = List.replicate zeros '0' ++ Nat.toDigits b n := by
  rw [Option.map_eq_some_iff]
  constructor
  · rintro ⟨ds, hdigits, rfl⟩
    obtain ⟨hne, hds, hmap⟩ := (digits?_eq_some_iff hb' hcs).1 hdigits
    rw [hmap]
    refine map_digitChar_eq hb ?_ hds
    rintro rfl
    exact hne (List.map_eq_nil_iff.1 hmap)
  · rintro ⟨zeros, hzeros⟩
    obtain ⟨ds, hds, hmap, hvalue⟩ := exists_digits hb n
    refine ⟨List.replicate zeros 0 ++ ds, (digits?_eq_some_iff hb' hcs).2 ⟨?_, ?_, ?_⟩, ?_⟩
    · rintro rfl
      exact Nat.toDigits_ne_nil (List.append_eq_nil_iff.1 hzeros.symm).2
    · intro d hd
      rcases List.mem_append.1 hd with hd | hd
      · rw [List.eq_of_mem_replicate hd]
        omega
      · exact hds d hd
    · rw [hzeros, List.map_append, hmap, List.map_replicate]
      rfl
    · rw [valueFrom_replicate_zero, hvalue]

end Radix

/-! ## Reading -/

/-- A hexadecimal digit is no white space. -/
theorem not_isMargin_of_isHexDigit {c : Char} (hc : WordClass.isHexDigit c = true) :
    isMargin c = false := by
  rw [WordClass.isHexDigit_iff] at hc
  simp [isMargin, Text.isBlank]
  omega

/-- A text without white space has none at its beginning. -/
theorem dropWhile_isMargin {cs : List Char} (h : ∀ c ∈ cs, isMargin c = false) :
    cs.dropWhile isMargin = cs := by
  cases cs with
  | nil => rfl
  | cons c cs => rw [List.dropWhile_cons_of_neg (by simp [h c List.mem_cons_self])]

/-- Hexadecimal digits have no white space at their end. -/
theorem trimEnd_of_isHexDigit {cs : List Char} (hcs : ∀ c ∈ cs, WordClass.isHexDigit c = true) :
    trimEnd cs = cs := by
  rw [trimEnd, dropWhile_isMargin, List.reverse_reverse]
  intro c hc
  exact not_isMargin_of_isHexDigit (hcs c (List.mem_reverse.1 hc))

/-- A decimal digit is a hexadecimal one. -/
theorem isHexDigit_of_isDigit {c : Char} (hc : c.isDigit = true) :
    WordClass.isHexDigit c = true := by
  rw [WordClass.isDigit_iff] at hc
  rw [WordClass.isHexDigit_iff]
  omega

/-- A decimal digit is a digit of the radix ten. -/
theorem isDigit_iff_isDigitOf {c : Char} : c.isDigit = true ↔ IsDigitOf 10 c := by
  have hall : ∀ n < 103, (Char.ofNat n).isDigit = true ↔ IsDigitOf 10 (Char.ofNat n) := by
    decide +kernel
  have hcode : c.toNat < 103 → (c.isDigit = true ↔ IsDigitOf 10 c) := by
    intro hlt
    have h := hall c.toNat hlt
    rwa [Char.ofNat_toNat] at h
  constructor
  · intro hc
    have hle := (WordClass.isDigit_iff.1 hc).2
    exact (hcode (by omega)).1 hc
  · intro hc
    have hhex := WordClass.isHexDigit_iff.1 (hc.isHexDigit (by decide))
    exact (hcode (by omega)).2 hc

/-- Digits of a radix are read, each as one digit. -/
theorem exists_digits?_eq_some {b : Nat} (hb : b ≤ 16) {cs : List Char} (hne : cs ≠ [])
    (hcs : ∀ c ∈ cs, IsDigitOf b c) : ∃ ds, digits? b cs = some ds ∧ ds.length = cs.length := by
  have hhex : ∀ c ∈ cs, WordClass.isHexDigit c = true := fun c hc => (hcs c hc).isHexDigit hb
  choose! digit hlt hlower using hcs
  refine ⟨cs.map digit, (digits?_eq_some_iff hb hhex).2 ⟨hne, ?_, ?_⟩, List.length_map _⟩
  · exact List.forall_mem_map.2 hlt
  · rw [List.map_map]
    exact List.map_congr_left hlower

/-- Decimal digits are read as the number that they spell, unless there are too many of them. -/
theorem ofDecimal_of_isDigit {cs : List Char} (hne : cs ≠ [])
    (hcs : ∀ c ∈ cs, c.isDigit = true) :
    (ofDecimal cs).toOption = if maxDecimalDigits < cs.length then none
      else ((digits? 10 cs).map (valueFrom 10 0)).map Int.ofNat := by
  have hmargin : ∀ c ∈ cs, isMargin c = false := fun c hc => not_isMargin_of_isDigit (hcs c hc)
  have htrim : trim cs = cs := by
    rw [trim, dropWhile_isMargin hmargin, trimEnd_of_isHexDigit]
    exact fun c hc => isHexDigit_of_isDigit (hcs c hc)
  have hsign : sign cs = (false, cs) := by
    unfold sign
    split
    · exact absurd (hcs '+' List.mem_cons_self) (by decide)
    · exact absurd (hcs '-' List.mem_cons_self) (by decide)
    · rfl
  have hdigits : ∀ c ∈ cs, IsDigitOf 10 c := fun c hc => isDigit_iff_isDigitOf.1 (hcs c hc)
  obtain ⟨ds, hds, hlength⟩ := exists_digits?_eq_some (by decide) hne hdigits
  have hrun : (cs.takeWhile fun c => (digit? 10 c).isSome || c == '_') = cs := by
    rw [List.takeWhile_eq_self_iff]
    intro c hc
    obtain ⟨d, hd⟩ := hdigits c hc
    rw [(digit?_eq_some_iff (by decide) (isHexDigit_of_isDigit (hcs c hc))).2 hd]
    rfl
  unfold ofDecimal leadingDigits?
  rw [htrim, hsign]
  dsimp only
  rw [hrun, hds]
  dsimp only [Option.map_some]
  rw [hlength]
  split <;> rfl

/-- Without its underscores a text of digits and underscores has digits only. -/
theorem isDigitOf_of_mem_filter {b : Nat} {cs : List Char}
    (hcs : ∀ c ∈ cs, c = '_' ∨ IsDigitOf b c) : ∀ c ∈ cs.filter (· != '_'), IsDigitOf b c := by
  intro c hc
  obtain ⟨hmem, hne⟩ := List.mem_filter.1 hc
  exact (hcs c hmem).resolve_left (by simpa using hne)

/-- What spells a number in a radix are digits of the radix and underscores, and not only
underscores. -/
theorem IsSpelledIn.digits {b n : Nat} {cs : List Char} (hb : 1 < b) (h : IsSpelledIn b cs n) :
    cs.filter (· != '_') ≠ [] ∧ ∀ c ∈ cs, c = '_' ∨ IsDigitOf b c := by
  obtain ⟨zeros, hzeros⟩ := h
  constructor
  · intro hnil
    rw [hnil] at hzeros
    exact Nat.toDigits_ne_nil (List.append_eq_nil_iff.1 hzeros.symm).2
  · intro c hc
    by_cases hunderscore : c = '_'
    · exact .inl hunderscore
    · right
      have hmem : c.toLower ∈ (cs.filter (· != '_')).map Char.toLower :=
        List.mem_map_of_mem (List.mem_filter.2 ⟨hc, by simpa using hunderscore⟩)
      rw [hzeros] at hmem
      rcases List.mem_append.1 hmem with hmem | hmem
      · exact ⟨0, by omega, List.eq_of_mem_replicate hmem⟩
      · obtain ⟨ds, hds, hmap, -⟩ := exists_digits hb n
        rw [← hmap] at hmem
        obtain ⟨d, hd, heq⟩ := List.mem_map.1 hmem
        exact ⟨d, hds d hd, heq.symm⟩

/-- Digits of a radix and underscores have the value that they spell. -/
theorem map_valueFrom_filter_eq_some_iff {b : Nat} (hb : 1 < b) (hb' : b ≤ 16) {cs : List Char}
    (hcs : ∀ c ∈ cs, c = '_' ∨ IsDigitOf b c) {n : Nat} :
    (digits? b (cs.filter (· != '_'))).map (valueFrom b 0) = some n ↔ IsSpelledIn b cs n :=
  map_valueFrom_eq_some_iff hb hb'
    fun c hc => (isDigitOf_of_mem_filter hcs c hc).isHexDigit hb'

/-- Digits of a radix and underscores are read if there is a digit among them. -/
theorem digits?_filter_eq_none_iff {b : Nat} (hb : b ≤ 16) {cs : List Char}
    (hcs : ∀ c ∈ cs, c = '_' ∨ IsDigitOf b c) :
    digits? b (cs.filter (· != '_')) = none ↔ ∀ c ∈ cs, c = '_' := by
  constructor
  · intro hnone c hc
    by_contra hne
    have hmem : c ∈ cs.filter (· != '_') := List.mem_filter.2 ⟨hc, by simpa using hne⟩
    obtain ⟨ds, hds, -⟩ := exists_digits?_eq_some hb (List.ne_nil_of_mem hmem)
      (isDigitOf_of_mem_filter hcs)
    rw [hnone] at hds
    cases hds
  · intro hall
    have hnil : cs.filter (· != '_') = [] := by
      rw [List.filter_eq_nil_iff]
      intro c hc
      simp [hall c hc]
    rw [hnil, digits?]

namespace IntegerLiteral

/-- The letter behind a leading zero that chooses a radix. -/
def IsRadixLetter (m : Char) (b : Nat) : Prop :=
  (m = 'x' ∨ m = 'X') ∧ b = 16 ∨ (m = 'o' ∨ m = 'O') ∧ b = 8 ∨ (m = 'b' ∨ m = 'B') ∧ b = 2

/-- A literal and the number that it spells. -/
inductive Spells : List Char → Nat → Prop
  /-- Digits of a radix behind a zero and the letter of the radix. -/
  | radix {m : Char} {b n : Nat} {ds : List Char} (hm : IsRadixLetter m b)
      (hds : IsSpelledIn b ds n) : Spells ('0' :: m :: ds) n
  /-- Decimal digits, the first of them before all underscores, and not too many. -/
  | decimal {n : Nat} {cs : List Char} (hfirst : cs.head? ≠ some '_') (hcs : IsSpelledIn 10 cs n)
      (hlength : (cs.filter (· != '_')).length ≤ 4300) : Spells cs n

/-- A literal that spells no number: without a digit behind its prefix, or of too many decimal
digits. -/
def IsValueless (cs : List Char) : Prop :=
  (∃ m b ds, IsRadixLetter m b ∧ cs = '0' :: m :: ds ∧ ∀ c ∈ ds, c = '_') ∨
    (∀ c ∈ cs, c.isDigit = true ∨ c = '_') ∧ 4300 < (cs.filter (· != '_')).length

/-! ## The shape of a literal -/

/-- What a radix letter asks for: at least one digit of the radix, or an underscore. -/
theorem IsRadixLetter.digits {m : Char} {b : Nat} (hm : IsRadixLetter m b) :
    radix? m = some b ∧ 1 < b ∧ b ≤ 16 ∧ m.isDigit = false ∧ m ≠ '_' ∧
      ∃ p, WordClass.radixDigit? m = some p ∧ ∀ c, p c = true ↔ c = '_' ∨ IsDigitOf b c := by
  have hcode : ∀ {p : Char → Bool}, WordClass.radixDigit? m = some p → b ≤ 16 →
      (∀ n < 128, p (Char.ofNat n) = true ↔
        Char.ofNat n = '_' ∨ IsDigitOf b (Char.ofNat n)) →
      ∀ c, p c = true ↔ c = '_' ∨ IsDigitOf b c := by
    intro p hp hb hall c
    have hchar : c.toNat < 128 → (p c = true ↔ c = '_' ∨ IsDigitOf b c) := by
      intro hlt
      have h := hall c.toNat hlt
      rwa [Char.ofNat_toNat] at h
    constructor
    · intro hc
      have hname := WordClass.continuesName_iff.1 (WordClass.continuesName_of_radixDigit? hp hc)
      exact (hchar (by omega)).1 hc
    · rintro (rfl | hc)
      · exact (hchar (by decide)).2 (.inl rfl)
      · have hhex := WordClass.isHexDigit_iff.1 (hc.isHexDigit hb)
        exact (hchar (by omega)).2 (.inr hc)
  obtain ⟨rfl | rfl, rfl⟩ | ⟨rfl | rfl, rfl⟩ | ⟨rfl | rfl, rfl⟩ := hm
  all_goals
    exact ⟨rfl, by decide, by decide, by decide, by decide, _, rfl,
      hcode rfl (by decide) (by decide +kernel)⟩

/-- A letter with digits behind it chooses a radix. -/
theorem exists_isRadixLetter {m : Char} {p : Char → Bool}
    (h : WordClass.radixDigit? m = some p) : ∃ b, IsRadixLetter m b := by
  unfold WordClass.radixDigit? at h
  split at h
  · exact ⟨16, .inl ⟨.inl rfl, rfl⟩⟩
  · exact ⟨16, .inl ⟨.inr rfl, rfl⟩⟩
  · exact ⟨2, .inr (.inr ⟨.inl rfl, rfl⟩)⟩
  · exact ⟨2, .inr (.inr ⟨.inr rfl, rfl⟩)⟩
  · exact ⟨8, .inr (.inl ⟨.inl rfl, rfl⟩)⟩
  · exact ⟨8, .inr (.inl ⟨.inr rfl, rfl⟩)⟩
  · cases h

/-- A run is the whole text if all characters belong to it. -/
theorem run_eq_length_iff {p : Char → Bool} {cs : List Char} :
    WordClass.run p cs = cs.length ↔ ∀ c ∈ cs, p c = true := by
  constructor
  · intro h c hc
    have htaken : c ∈ cs.take (WordClass.run p cs) := by rwa [h, List.take_length]
    exact WordClass.of_mem_take_run htaken
  · intro h
    rw [WordClass.run, List.takeWhile_eq_self_iff.2 h]

/-- A literal has a prefix, with digits of its radix behind it, or it is decimal. -/
theorem integerLength?_eq_length_iff {cs : List Char} :
    WordClass.integerLength? cs = some cs.length ↔
      (∃ m b ds, IsRadixLetter m b ∧ cs = '0' :: m :: ds ∧ ds ≠ [] ∧
        ∀ c ∈ ds, c = '_' ∨ IsDigitOf b c) ∨
      cs ≠ [] ∧ cs.head? ≠ some '_' ∧ ∀ c ∈ cs, c = '_' ∨ IsDigitOf 10 c := by
  have hdecimal : ∀ {cs : List Char}, (∀ c ∈ cs, c = '_' ∨ IsDigitOf 10 c) ↔
      ∀ c ∈ cs, (c.isDigit || c == '_') = true := by
    intro cs
    simp only [← isDigit_iff_isDigitOf, Bool.or_eq_true, beq_iff_eq, or_comm]
  constructor
  · intro h
    rcases WordClass.integerLength?_eq_some h with
      ⟨m, ds, p, k, rfl, hp, hrun, hlength⟩ | ⟨c, ds, rfl, hc, -, hlength⟩
    · obtain ⟨b, hm⟩ := exists_isRadixLetter hp
      obtain ⟨-, -, -, -, -, p', hp', hdigit⟩ := hm.digits
      obtain rfl : p = p' := Option.some.inj (hp.symm.trans hp')
      obtain ⟨rfl, hpos⟩ := WordClass.run?_eq_some_iff.1 hrun
      have hall := run_eq_length_iff.1 (by simpa using hlength.symm)
      refine .inl ⟨m, b, ds, hm, rfl, ?_, fun c hc => (hdigit c).1 (hall c hc)⟩
      rintro rfl
      exact absurd hpos (by simp [WordClass.run])
    · have hall := run_eq_length_iff.1 (by simpa using hlength.symm)
      refine .inr ⟨List.cons_ne_nil _ _, ?_, hdecimal.2 ?_⟩
      · rw [List.head?_cons, ne_eq, Option.some.injEq]
        rintro rfl
        exact absurd hc (by decide)
      · exact List.forall_mem_cons.2 ⟨by simp [hc], hall⟩
  · rintro (⟨m, b, ds, hm, rfl, hne, hds⟩ | ⟨hne, hfirst, hcs⟩)
    · obtain ⟨-, -, -, -, -, p, hp, hdigit⟩ := hm.digits
      have hrun := run_eq_length_iff.2 fun c hc => (hdigit c).2 (hds c hc)
      exact WordClass.integerLength?_of_radix hp
        (WordClass.run?_eq_some_iff.2 ⟨hrun, List.length_pos_iff.2 hne⟩)
    · obtain ⟨c, ds, rfl⟩ := List.exists_cons_of_ne_nil hne
      obtain ⟨hc, hds⟩ := List.forall_mem_cons.1 (hdecimal.1 hcs)
      have hdigit : c.isDigit = true := by
        have hunderscore : c ≠ '_' := fun h => hfirst (congrArg some h)
        simpa [hunderscore] using hc
      rw [WordClass.integerLength?_of_decimal hdigit, run_eq_length_iff.2 hds]
      · rfl
      · rintro - ⟨m, ds', p, rfl, hp, -⟩
        rw [WordClass.radixDigit?_of_decimal (hds m List.mem_cons_self)] at hp
        cases hp

/-! ## Literals with a value and without -/

/-- The value of a literal with a prefix is that of the digits behind it. -/
theorem IsRadixLetter.value?_eq {m : Char} {b : Nat} (hm : IsRadixLetter m b) {ds : List Char}
    (hds : ∀ c ∈ ds, c = '_' ∨ IsDigitOf b c) : value? ('0' :: m :: ds) =
      ((digits? b (ds.filter (· != '_'))).map (valueFrom b 0)).map Int.ofNat := by
  obtain ⟨hradix, -, hb, -, hm, -⟩ := hm.digits
  have hfilter : ('0' :: m :: ds).filter (· != '_') = '0' :: m :: ds.filter (· != '_') := by
    simp [hm]
  have htrim : trimEnd (ds.filter (· != '_')) = ds.filter (· != '_') :=
    trimEnd_of_isHexDigit fun c hc => (isDigitOf_of_mem_filter hds c hc).isHexDigit hb
  have hread : ofDigits? b (ds.filter (· != '_')) =
      (digits? b (ds.filter (· != '_'))).map (valueFrom b 0) := by
    rw [ofDigits?, htrim]
  unfold value?
  rw [hfilter]
  simp only [hradix, hread]

/-- The value of a decimal literal is that of its digits, unless there are too many of them. -/
theorem value?_of_decimal {cs : List Char} (hne : cs ≠ []) (hfirst : cs.head? ≠ some '_')
    (hcs : ∀ c ∈ cs, c = '_' ∨ IsDigitOf 10 c) :
    value? cs = if 4300 < (cs.filter (· != '_')).length then none
      else ((digits? 10 (cs.filter (· != '_'))).map (valueFrom 10 0)).map Int.ofNat := by
  obtain ⟨c, ds, rfl⟩ := List.exists_cons_of_ne_nil hne
  have hdigits : ∀ x ∈ (c :: ds).filter (· != '_'), x.isDigit = true :=
    fun x hx => isDigit_iff_isDigitOf.2 (isDigitOf_of_mem_filter hcs x hx)
  have hunderscore : (c != '_') = true := by
    rw [bne_iff_ne]
    exact fun h => hfirst (congrArg some h)
  have hdecimal := ofDecimal_of_isDigit (by simp [hunderscore]) hdigits
  refine Eq.trans ?_ hdecimal
  unfold value?
  split
  · next m ds' heq =>
    have hm : m.isDigit = true := hdigits m (by simp [heq])
    have hradix : radix? m = none := by
      unfold radix?
      split <;> first | rfl | exact absurd hm (by decide)
    rw [hradix, heq]
  · rfl

/-- A literal has a value exactly if it spells a number in the radix of its prefix, or without a
prefix in at most 4300 decimal digits, and the value is the number. -/
theorem value?_eq_some_iff_spells {cs : List Char} {v : Int} :
    WordClass.integer.length? cs = some cs.length ∧ value? cs = some v ↔
      ∃ n : Nat, v = n ∧ Spells cs n := by
  have hvalue : ∀ (r : Option Nat), r.map Int.ofNat = some v ↔ ∃ n : Nat, v = n ∧ r = some n := by
    intro r
    rw [Option.map_eq_some_iff]
    exact exists_congr fun n => ⟨fun h => ⟨h.2.symm, h.1⟩, fun h => ⟨h.2, h.1.symm⟩⟩
  constructor
  · rintro ⟨hlength, hv⟩
    rcases integerLength?_eq_length_iff.1 hlength with
      ⟨m, b, ds, hm, rfl, -, hds⟩ | ⟨hne, hfirst, hcs⟩
    · obtain ⟨-, hb, hb', -⟩ := hm.digits
      rw [hm.value?_eq hds, hvalue] at hv
      obtain ⟨n, rfl, hn⟩ := hv
      exact ⟨n, rfl, .radix hm ((map_valueFrom_filter_eq_some_iff hb hb' hds).1 hn)⟩
    · rw [value?_of_decimal hne hfirst hcs] at hv
      split at hv
      · cases hv
      · next hmany =>
        obtain ⟨n, rfl, hn⟩ := (hvalue _).1 hv
        exact ⟨n, rfl, .decimal hfirst
          ((map_valueFrom_filter_eq_some_iff (by decide) (by decide) hcs).1 hn)
          (Nat.le_of_not_lt hmany)⟩
  · rintro ⟨n, rfl, hspells⟩
    cases hspells with
    | @radix m b n ds hm hspelled =>
      obtain ⟨-, hb, hb', -⟩ := hm.digits
      obtain ⟨hne, hds⟩ := hspelled.digits hb
      have hne' : ds ≠ [] := by
        rintro rfl
        exact hne rfl
      refine ⟨integerLength?_eq_length_iff.2 (.inl ⟨m, b, ds, hm, rfl, hne', hds⟩), ?_⟩
      rw [hm.value?_eq hds, hvalue]
      exact ⟨n, rfl, (map_valueFrom_filter_eq_some_iff hb hb' hds).2 hspelled⟩
    | decimal hfirst hspelled hmany =>
      obtain ⟨hne, hcs⟩ := hspelled.digits (by decide)
      have hne' : cs ≠ [] := by
        rintro rfl
        exact hne rfl
      refine ⟨integerLength?_eq_length_iff.2 (.inr ⟨hne', hfirst, hcs⟩), ?_⟩
      rw [value?_of_decimal hne' hfirst hcs, if_neg (Nat.not_lt.2 hmany), hvalue]
      exact ⟨n, rfl, (map_valueFrom_filter_eq_some_iff (by decide) (by decide) hcs).2 hspelled⟩

/-- A literal has no value exactly if it has a prefix and no digit behind it, or more than 4300
decimal digits. -/
theorem value?_eq_none_iff {cs : List Char}
    (hcs : WordClass.integerLength? cs = some cs.length) : value? cs = none ↔ IsValueless cs := by
  rcases integerLength?_eq_length_iff.1 hcs with
    ⟨m, b, ds, hm, rfl, -, hds⟩ | ⟨hne, hfirst, hdigits⟩
  · obtain ⟨-, -, hb, hdigit, hunderscore, -⟩ := hm.digits
    rw [hm.value?_eq hds, Option.map_eq_none_iff, Option.map_eq_none_iff,
      digits?_filter_eq_none_iff hb hds]
    constructor
    · exact fun hall => .inl ⟨m, b, ds, hm, rfl, hall⟩
    · rintro (⟨m', b', ds', -, heq, hall⟩ | ⟨hall, -⟩)
      · obtain ⟨-, rfl⟩ := List.cons.inj (List.cons.inj heq).2
        exact hall
      · rcases hall m (by simp) with h | h
        · rw [hdigit] at h
          cases h
        · exact absurd h hunderscore
  · have hall : ∀ c ∈ cs, c.isDigit = true ∨ c = '_' := by
      intro c hc
      rw [isDigit_iff_isDigitOf, or_comm]
      exact hdigits c hc
    have hsome : digits? 10 (cs.filter (· != '_')) ≠ none := by
      intro hnone
      obtain ⟨c, ds, rfl⟩ := List.exists_cons_of_ne_nil hne
      have hc := (digits?_filter_eq_none_iff (by decide) hdigits).1 hnone c List.mem_cons_self
      exact hfirst (congrArg some hc)
    rw [value?_of_decimal hne hfirst hdigits]
    constructor
    · intro hnone
      split at hnone
      · next hmany => exact .inr ⟨hall, hmany⟩
      · rw [Option.map_eq_none_iff, Option.map_eq_none_iff] at hnone
        exact absurd hnone hsome
    · rintro (⟨m, b, ds, hm, rfl, -⟩ | ⟨-, hmany⟩)
      · obtain ⟨-, -, -, hdigit, hunderscore, -⟩ := hm.digits
        rcases hall m (by simp) with h | h
        · rw [hdigit] at h
          cases h
        · exact absurd h hunderscore
      · rw [if_pos hmany]

end IntegerLiteral

end Number

end CadenceEntry
