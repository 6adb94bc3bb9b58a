import CadenceEntry.Json.Writer
import CadenceEntry.Proofs.Json.Spelling

/-!
# What is written spells the document

A plain document has no floating-point numbers, and the members of each of its objects have
different names. What is written of a plain document spells it, with any indent
(`Plain.spells_written`), consists of printable ASCII characters and line feeds, and has no line
feed without an indent (`Plain.isWritten`).
-/

set_option autoImplicit false

namespace CadenceEntry.Json

/-- A document without floating-point numbers, in which no member is named twice. -/
inductive Plain : Json → Prop
  | null : Plain null
  | bool (b : Bool) : Plain (bool b)
  | int (n : Int) : Plain (int n)
  | string (s : String) : Plain (string s)
  | array {vs : List Json} (h : ∀ v ∈ vs, Plain v) : Plain (array vs)
  | object {ms : List (String × Json)} (hnames : (ms.map Prod.fst).Nodup)
    (h : ∀ m ∈ ms, Plain m.2) : Plain (object ms)

/-! ### Integers -/

/-- A number that is not zero does not begin with a zero. -/
theorem head?_toDigits_ne {n : Nat} (h : 0 < n) : (Nat.toDigits 10 n).head? ≠ some '0' := by
  induction n using Nat.strongRecOn with
  | ind n ih =>
    rw [Nat.toDigits_eq_if (by decide)]
    split
    · next hlt =>
      have hdigit : ∀ n < 10, 0 < n → Nat.digitChar n ≠ '0' := by decide
      exact fun hhead => hdigit n hlt h (Option.some.inj hhead)
    · next hlt =>
      rw [List.head?_append_of_ne_nil _ Nat.toDigits_ne_nil]
      exact ih (n / 10) (by omega) (by omega)

/-- The digits of a natural number have no needless zero. -/
theorem natural_toDigits (n : Nat) : Natural (Nat.toDigits 10 n) where
  ne_nil := Nat.toDigits_ne_nil
  isDigit := fun _ hc => Nat.isDigit_of_mem_toDigits (by decide) (by decide) hc
  length_eq_one := by
    intro hhead
    rcases Nat.eq_zero_or_pos n with rfl | h
    · rfl
    · exact absurd hhead (head?_toDigits_ne h)

/-- The digits of a natural number have its value. -/
theorem digitsValue_toDigits (n : Nat) : digitsValue (Nat.toDigits 10 n) = n := by
  have hvalue : Nat.ofDigitChars 10 (Nat.toDigits 10 n) 0 = n := Nat.ofDigitChars_ten_toDigits
  rw [Nat.ofDigitChars_eq_foldl] at hvalue
  simpa only [digitsValue, Nat.mul_comm] using hvalue

/-- What is written of an integer spells it. -/
theorem spellsInt_toString (n : Int) : SpellsInt (toString n).toList n := by
  rw [Int.toString_eq_repr, Int.repr_eq_if]
  split
  · next h =>
    rw [Nat.toList_repr]
    have := SpellsInt.natural (natural_toDigits n.toNat)
    rwa [digitsValue_toDigits, Int.toNat_of_nonneg h] at this
  · next h =>
    rw [String.toList_append, Nat.toList_repr]
    have := SpellsInt.negative (natural_toDigits (-n).toNat)
    rwa [digitsValue_toDigits, Int.toNat_of_nonneg (by omega), Int.neg_neg] at this

/-! ### Strings -/

/-- A hexadecimal digit has its value. -/
theorem hexValue?_hexDigit {n : Nat} (h : n < 16) : hexValue? (Text.hexDigit n) = some n := by
  revert n
  decide

/-- Four hexadecimal digits are the code unit that they are written for. -/
theorem exists_unitEscape {n : Nat} (h : n < 0x10000) :
    ∃ a b c d, unitEscape n = ['\\', 'u', a, b, c, d] ∧ unit? a b c d = some n := by
  refine ⟨Text.hexDigit (n / 16 / 16 / 16 % 16), Text.hexDigit (n / 16 / 16 % 16),
    Text.hexDigit (n / 16 % 16), Text.hexDigit (n % 16), rfl, ?_⟩
  unfold unit?
  rw [hexValue?_hexDigit (Nat.mod_lt _ (by decide)), hexValue?_hexDigit (Nat.mod_lt _ (by decide)),
    hexValue?_hexDigit (Nat.mod_lt _ (by decide)), hexValue?_hexDigit (Nat.mod_lt _ (by decide))]
  have hn : ((n / 16 / 16 / 16 % 16 * 16 + n / 16 / 16 % 16) * 16 + n / 16 % 16) * 16 + n % 16 =
      n := by
    omega
  exact congrArg some hn

/-- A character is no half of a pair of code units. -/
theorem not_isUnit (c : Char) : isHighUnit c.toNat = false ∧ isLowUnit c.toNat = false := by
  have hvalid : c.toNat < 0xd800 ∨ 0xdfff < c.toNat := by
    rcases c.valid with h | h
    · exact .inl h
    · exact .inr h.1
  simp only [isHighUnit, isLowUnit, Bool.and_eq_false_iff, decide_eq_false_iff_not]
  omega

/-- What is written of a character spells it. -/
theorem spellsChar_writtenChar (c : Char) : SpellsChar (writtenChar c) c := by
  unfold writtenChar
  -- the seven characters that have a letter
  iterate 7
    split
    · next h => subst h; exact .letter rfl
  split
  · next h => exact .plain h.1 ‹_› ‹_›
  split
  · next h =>
    obtain ⟨a, b, c', d, hwritten, hunit⟩ := exists_unitEscape h
    have hspells := SpellsChar.unit hunit (not_isUnit c).1 (not_isUnit c).2
    rwa [Char.ofNat_toNat, ← hwritten] at hspells
  · next h =>
    have hlt : c.toNat < 0x110000 := by
      rcases c.valid with h | h
      · exact Nat.lt_trans h (by decide)
      · exact h.2
    obtain ⟨a, b, c', d, hwritten, hunit⟩ :=
      exists_unitEscape (n := 0xd800 + (c.toNat - 0x10000) / 0x400) (by omega)
    obtain ⟨a', b', c'', d', hwritten', hunit'⟩ :=
      exists_unitEscape (n := 0xdc00 + (c.toNat - 0x10000) % 0x400) (by omega)
    have hspells := SpellsChar.pair hunit (by simp [isHighUnit]; omega) hunit'
      (by simp [isLowUnit]; omega)
    have hvalue : 0x10000 + (0xd800 + (c.toNat - 0x10000) / 0x400 - 0xd800) * 0x400 +
        (0xdc00 + (c.toNat - 0x10000) % 0x400 - 0xdc00) = c.toNat := by
      omega
    rw [hvalue, Char.ofNat_toNat] at hspells
    rw [hwritten, hwritten']
    exact hspells

/-- What is written of characters spells them. -/
theorem spellsChars_flatMap (cs : List Char) : SpellsChars (cs.flatMap writtenChar) cs := by
  induction cs with
  | nil => exact .nil
  | cons c cs ih => exact .cons (spellsChar_writtenChar c) ih

/-! ### Documents -/

/-- The beginning of a line is white space. -/
theorem gap_lineStart (indent : Option Int) (depth : Nat) : Gap (lineStart indent depth) := by
  cases indent with
  | none => exact Gap.nil
  | some n =>
    intro c hc
    rcases List.mem_cons.1 hc with rfl | hc
    · rfl
    · rw [List.eq_of_mem_replicate hc]
      rfl

/-- Two items are separated by a comma and white space. -/
theorem exists_separator (indent : Option Int) (depth : Nat) :
    ∃ g, Gap g ∧ separator indent depth = ',' :: g := by
  cases indent with
  | none =>
    refine ⟨[' '], ?_, rfl⟩
    intro c hc
    rw [List.mem_singleton.1 hc]
    rfl
  | some n => exact ⟨_, gap_lineStart (some n) depth, rfl⟩

/-- The items of an array spell them, with white space before the first and behind the last. -/
theorem spells_items {indent : Option Int} {depth : Nat} {vs : List Json}
    (hvs : ∀ v ∈ vs, Spells (written indent depth v) (.value v)) {w g g' : List Char} {v : Json}
    (hg : Gap g) (h : Spells w (.value v)) (hg' : Gap g') :
    Spells (g ++ w ++ writtenItems indent depth vs ++ g') (.items (v :: vs)) := by
  induction vs generalizing w g v with
  | nil =>
    rw [writtenItems, List.append_nil]
    exact .lastItem (.element hg h hg')
  | cons v' vs ih =>
    obtain ⟨gap, hgap, hseparator⟩ := exists_separator indent depth
    have hitems := ih (fun v hv => hvs v (List.mem_cons_of_mem _ hv)) hgap
      (hvs v' List.mem_cons_self)
    have hitem := Spells.item (.element hg h Gap.nil) hitems
    rw [writtenItems, hseparator]
    simpa only [List.append_assoc, List.append_nil, List.cons_append] using hitem

/-- What is written of a member spells it. -/
theorem spells_member {g w g' : List Char} {n : String} {v : Json} (hg : Gap g)
    (h : Spells w (.value v)) (hg' : Gap g') :
    Spells (g ++ writtenString n ++ [':', ' '] ++ w ++ g') (.member n v) := by
  have hspace : Gap [' '] := by
    intro c hc
    rw [List.mem_singleton.1 hc]
    rfl
  have hmember := Spells.member hg (spellsChars_flatMap n.toList) Gap.nil (.element hspace h hg')
  rw [String.ofList_toList] at hmember
  simpa only [writtenString, List.append_assoc, List.append_nil, List.cons_append,
    List.nil_append] using hmember

/-- The members of an object spell them, with white space before the first and behind the last. -/
theorem spells_members {indent : Option Int} {depth : Nat} {ms : List (String × Json)}
    (hms : ∀ m ∈ ms, Spells (written indent depth m.2) (.value m.2)) {w g g' : List Char}
    {n : String} {v : Json} (hg : Gap g) (h : Spells w (.value v)) (hg' : Gap g') :
    Spells (g ++ writtenString n ++ [':', ' '] ++ w ++ writtenMembers indent depth ms ++ g')
      (.members ((n, v) :: ms)) := by
  induction ms generalizing w g n v with
  | nil =>
    rw [writtenMembers, List.append_nil]
    exact .lastMember (spells_member hg h hg')
  | cons m ms ih =>
    obtain ⟨gap, hgap, hseparator⟩ := exists_separator indent depth
    have hmembers := ih (fun m hm => hms m (List.mem_cons_of_mem _ hm)) (n := m.1) hgap
      (hms m List.mem_cons_self)
    have hmember := Spells.members (spells_member (n := n) hg h Gap.nil) hmembers
    rw [writtenMembers, hseparator]
    simpa only [List.append_assoc, List.append_nil, List.cons_append] using hmember

/-- What is written of a plain document spells it. -/
theorem Plain.spells_written {v : Json} (h : Plain v) (indent : Option Int) (depth : Nat) :
    Spells (written indent depth v) (.value v) := by
  induction h generalizing depth with
  | null => exact .null
  | bool b =>
    cases b with
    | false => exact .false
    | true => exact .true
  | int n => exact .int (spellsInt_toString n)
  | string s =>
    have hstring := Spells.string (spellsChars_flatMap s.toList)
    rwa [String.ofList_toList] at hstring
  | @array vs h ih =>
    cases vs with
    | nil => exact .emptyArray Gap.nil
    | cons v vs =>
      have hitems := spells_items (fun v hv => ih v (List.mem_cons_of_mem _ hv) (depth + 1))
        (gap_lineStart indent (depth + 1)) (ih v List.mem_cons_self (depth + 1))
        (gap_lineStart indent depth)
      exact .array hitems
  | @object ms hnames h ih =>
    cases ms with
    | nil => exact .emptyObject Gap.nil
    | cons m ms =>
      have hmembers := spells_members (n := m.1)
        (fun m hm => ih m (List.mem_cons_of_mem _ hm) (depth + 1))
        (gap_lineStart indent (depth + 1)) (ih m List.mem_cons_self (depth + 1))
        (gap_lineStart indent depth)
      exact .object hmembers hnames

/-! ### Characters -/

/-- Whether a character is printable ASCII. -/
def isPrintable (c : Char) : Bool := 0x20 ≤ c.toNat && c.toNat ≤ 0x7e

/-- All characters are printable ASCII, or line feeds if there is an indent. -/
def IsWritten (indent : Option Int) (cs : List Char) : Prop :=
  ∀ c ∈ cs, isPrintable c = true ∨ c = '\n' ∧ indent ≠ none

section

variable {indent : Option Int} {cs cs' : List Char}

/-- Printable characters can be written. -/
theorem isWritten_of_printable (h : cs.all isPrintable = true) : IsWritten indent cs :=
  fun c hc => .inl (List.all_eq_true.1 h c hc)

/-- Texts that can be written make up one that can. -/
theorem IsWritten.append (h : IsWritten indent cs) (h' : IsWritten indent cs') :
    IsWritten indent (cs ++ cs') :=
  List.forall_mem_append.2 ⟨h, h'⟩

/-- Hexadecimal digits can be written. -/
theorem isWritten_hexDigits (width n : Nat) : IsWritten indent (Text.hexDigits width n) := by
  have hdigit : ∀ n < 16, [Text.hexDigit n].all isPrintable = true := by decide
  induction width generalizing n with
  | zero => exact isWritten_of_printable rfl
  | succ width ih =>
    have hlast := hdigit (n % 16) (Nat.mod_lt _ (by decide))
    exact (ih (n / 16)).append (isWritten_of_printable hlast)

/-- The escape of a code unit can be written. -/
theorem isWritten_unitEscape (n : Nat) : IsWritten indent (unitEscape n) := by
  have hescape : IsWritten indent ['\\', 'u'] := isWritten_of_printable (by decide)
  exact hescape.append (isWritten_hexDigits 4 n)

/-- What a character is written as can be written. -/
theorem isWritten_writtenChar (c : Char) : IsWritten indent (writtenChar c) := by
  unfold writtenChar
  iterate 7
    split
    · exact isWritten_of_printable (by decide)
  split
  · next h =>
    intro c' hc'
    rw [List.mem_singleton.1 hc']
    exact .inl (by simpa [isPrintable] using h)
  split
  · exact isWritten_unitEscape _
  · exact (isWritten_unitEscape _).append (isWritten_unitEscape _)

/-- What a string is written as can be written. -/
theorem isWritten_writtenString (s : String) : IsWritten indent (writtenString s) := by
  have hquote : IsWritten indent ['"'] := isWritten_of_printable (by decide)
  have hchars : IsWritten indent (s.toList.flatMap writtenChar) := by
    intro c hc
    obtain ⟨c', -, hc⟩ := List.mem_flatMap.1 hc
    exact isWritten_writtenChar c' c hc
  exact (hquote.append hchars).append hquote

/-- The beginning of a line can be written. -/
theorem isWritten_lineStart (depth : Nat) : IsWritten indent (lineStart indent depth) := by
  cases indent with
  | none => exact isWritten_of_printable rfl
  | some n =>
    intro c hc
    rcases List.mem_cons.1 hc with rfl | hc
    · exact .inr ⟨rfl, nofun⟩
    · rw [List.eq_of_mem_replicate hc]
      exact .inl (by decide)

/-- What separates items can be written. -/
theorem isWritten_separator (depth : Nat) : IsWritten indent (separator indent depth) := by
  cases indent with
  | none =>
    show IsWritten none [',', ' ']
    exact isWritten_of_printable (by decide)
  | some n =>
    have hcomma : IsWritten (some n) [','] := isWritten_of_printable (by decide)
    exact hcomma.append (isWritten_lineStart depth)

/-- The digits of an integer and its sign are printable. -/
theorem isWritten_toString (n : Int) : IsWritten indent (toString n).toList := by
  have hdigits : ∀ m : Nat, IsWritten indent (Nat.toDigits 10 m) := by
    intro m c hc
    have hdigit := Nat.isDigit_of_mem_toDigits (by decide) (by decide) hc
    simp only [Char.isDigit, Bool.and_eq_true, decide_eq_true_eq, ge_iff_le, UInt32.le_iff_toNat_le]
      at hdigit
    have hprintable : 0x20 ≤ c.toNat ∧ c.toNat ≤ 0x7e :=
      ⟨Nat.le_trans (by decide) hdigit.1, Nat.le_trans hdigit.2 (by decide)⟩
    exact .inl (by simpa [isPrintable] using hprintable)
  have hminus : IsWritten indent ['-'] := isWritten_of_printable (by decide)
  rw [Int.toString_eq_repr, Int.repr_eq_if]
  split
  · rw [Nat.toList_repr]
    exact hdigits _
  · rw [String.toList_append, Nat.toList_repr]
    exact hminus.append (hdigits _)

/-- Items that can be written can be written one after the other. -/
theorem isWritten_items {depth : Nat} {vs : List Json}
    (h : ∀ v ∈ vs, IsWritten indent (written indent depth v)) :
    IsWritten indent (writtenItems indent depth vs) := by
  induction vs with
  | nil => exact isWritten_of_printable rfl
  | cons v vs ih =>
    have hvs := ih fun v hv => h v (List.mem_cons_of_mem _ hv)
    exact ((isWritten_separator depth).append (h v List.mem_cons_self)).append hvs

/-- Members whose values can be written can be written one after the other. -/
theorem isWritten_members {depth : Nat} {ms : List (String × Json)}
    (h : ∀ m ∈ ms, IsWritten indent (written indent depth m.2)) :
    IsWritten indent (writtenMembers indent depth ms) := by
  have hcolon : IsWritten indent [':', ' '] := isWritten_of_printable (by decide)
  induction ms with
  | nil => exact isWritten_of_printable rfl
  | cons m ms ih =>
    have hms := ih fun m hm => h m (List.mem_cons_of_mem _ hm)
    exact ((((isWritten_separator depth).append (isWritten_writtenString m.1)).append hcolon).append
      (h m List.mem_cons_self)).append hms

end

/-- What is written of a plain document consists of printable characters, and of line feeds only if
there is an indent. -/
theorem Plain.isWritten {v : Json} (h : Plain v) (indent : Option Int) (depth : Nat) :
    IsWritten indent (written indent depth v) := by
  induction h generalizing depth with
  | null =>
    show IsWritten indent "null".toList
    exact isWritten_of_printable (by decide)
  | bool b =>
    cases b with
    | false =>
      show IsWritten indent "false".toList
      exact isWritten_of_printable (by decide)
    | true =>
      show IsWritten indent "true".toList
      exact isWritten_of_printable (by decide)
  | int n => exact isWritten_toString n
  | string s => exact isWritten_writtenString s
  | @array vs h ih =>
    cases vs with
    | nil =>
      show IsWritten indent ['[', ']']
      exact isWritten_of_printable (by decide)
    | cons v vs =>
      have hopen : IsWritten indent ['['] := isWritten_of_printable (by decide)
      have hclose : IsWritten indent [']'] := isWritten_of_printable (by decide)
      have hvs := isWritten_items fun v hv => ih v (List.mem_cons_of_mem _ hv) (depth + 1)
      exact ((((hopen.append (isWritten_lineStart (depth + 1))).append
        (ih v List.mem_cons_self (depth + 1))).append hvs).append
          (isWritten_lineStart depth)).append hclose
  | @object ms hnames h ih =>
    cases ms with
    | nil =>
      show IsWritten indent ['\x7b', '\x7d']
      exact isWritten_of_printable (by decide)
    | cons m ms =>
      have hopen : IsWritten indent ['\x7b'] := isWritten_of_printable (by decide)
      have hclose : IsWritten indent ['\x7d'] := isWritten_of_printable (by decide)
      have hcolon : IsWritten indent [':', ' '] := isWritten_of_printable (by decide)
      have hms := isWritten_members fun m hm => ih m (List.mem_cons_of_mem _ hm) (depth + 1)
      exact ((((((hopen.append (isWritten_lineStart (depth + 1))).append
        (isWritten_writtenString m.1)).append hcolon).append
          (ih m List.mem_cons_self (depth + 1))).append hms).append
            (isWritten_lineStart depth)).append hclose

end CadenceEntry.Json
