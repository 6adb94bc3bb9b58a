import CadenceEntry.Proofs.Source.Piece

/-!
# Where a body ends

`scanBody` reads the text of a body character by character, counting the braces that are open, and
finds the brace that closes the body. It looks for no words: string literals and comments are gone
through one character after the other. That it goes through the text in the same steps as the words
of a body do is the content of the second part.
-/

set_option autoImplicit false

namespace CadenceEntry

/-- What a scan of a body is in the middle of. -/
inductive ScanMode where
  /-- outside of literals and comments -/
  | code
  /-- behind the quote that opens a string literal -/
  | string
  /-- behind a backslash in a string literal -/
  | escape
  /-- in a line comment -/
  | lineComment
  /-- between the two marks that open a block comment -/
  | commentStart
  /-- in a block comment -/
  | blockComment
  /-- between the two marks that close a block comment -/
  | commentEnd
  deriving DecidableEq, Repr

/-- The number of characters through the brace that closes the body, where `depth` braces are open
before the first of them. There is none if the text ends before, if a literal is not complete, or if
there is white space that separates no words. -/
def scanBody : ScanMode → Nat → List Char → Option Nat
  | _, _, [] => none
  | .code, depth, c :: cs =>
    if c = '\x7b' then (scanBody .code (depth + 1) cs).map (· + 1)
    else if c = '\x7d' then
      if depth = 1 then some 1 else (scanBody .code (depth - 1) cs).map (· + 1)
    else if c = '"' then (scanBody .string depth cs).map (· + 1)
    else if c = '/' ∧ cs.head? = some '/' then (scanBody .lineComment depth cs).map (· + 1)
    else if c = '/' ∧ cs.head? = some '*' then (scanBody .commentStart depth cs).map (· + 1)
    else if Text.isBlank c = true ∧ WordClass.separates c = false then none
    else (scanBody .code depth cs).map (· + 1)
  | .string, depth, c :: cs =>
    if c = '"' then (scanBody .code depth cs).map (· + 1)
    else if c = '\n' then none
    else if c = '\\' then (scanBody .escape depth cs).map (· + 1)
    else (scanBody .string depth cs).map (· + 1)
  | .escape, depth, c :: cs =>
    if c = '\n' then none else (scanBody .string depth cs).map (· + 1)
  | .lineComment, depth, c :: cs =>
    if c = '\n' then (scanBody .code depth cs).map (· + 1)
    else (scanBody .lineComment depth cs).map (· + 1)
  | .commentStart, depth, _ :: cs => (scanBody .blockComment depth cs).map (· + 1)
  | .blockComment, depth, c :: cs =>
    if c = '*' ∧ cs.head? = some '/' then (scanBody .commentEnd depth cs).map (· + 1)
    else (scanBody .blockComment depth cs).map (· + 1)
  | .commentEnd, depth, _ :: cs => (scanBody .code depth cs).map (· + 1)

attribute [local simp] scanBody

/-! ## Going through the words of a body -/

/-- The scan goes on at a place further on, with the same depth. -/
def ScansTo (mode : ScanMode) (depth : Nat) (cs : List Char) (n : Nat) : Prop :=
  scanBody mode depth cs = (scanBody .code depth (cs.drop n)).map (· + n)

/-- Two steps forward are one. -/
theorem map_add_add (o : Option Nat) (m n : Nat) :
    (o.map (· + m)).map (· + n) = o.map (· + (m + n)) := by
  cases o with
  | none => rfl
  | some k => simp [Nat.add_assoc]

/-- A scan goes on behind the first character as it does there. -/
theorem ScansTo.succ {mode mode' : ScanMode} {depth n : Nat} {c : Char} {cs : List Char}
    (hstep : scanBody mode depth (c :: cs) = (scanBody mode' depth cs).map (· + 1))
    (h : ScansTo mode' depth cs n) : ScansTo mode depth (c :: cs) (n + 1) := by
  unfold ScansTo at h ⊢
  rw [hstep, h, List.drop_succ_cons, map_add_add]

/-- A scan that has not moved is where it was. -/
theorem scansTo_zero (depth : Nat) (cs : List Char) : ScansTo .code depth cs 0 := by
  unfold ScansTo
  simp

/-- Ordinary characters and white space between words are skipped. -/
theorem scanBody_of_skipped {c : Char} {cs : List Char} (depth : Nat)
    (hc : WordClass.isOrdinary c = true ∨ WordClass.separates c = true) :
    scanBody .code depth (c :: cs) = (scanBody .code depth cs).map (· + 1) := by
  have hne : c ≠ '\x7b' ∧ c ≠ '\x7d' ∧ c ≠ '"' ∧ c ≠ '/' ∧
      ¬ (Text.isBlank c = true ∧ WordClass.separates c = false) := by
    rcases hc with hc | hc
    · simp only [WordClass.isOrdinary, Bool.not_eq_true', Bool.or_eq_false_iff, beq_eq_false_iff_ne,
        ne_eq] at hc
      obtain ⟨⟨⟨⟨h₁, h₂⟩, h₃⟩, h₄⟩, h₅⟩ := hc
      exact ⟨h₁, h₂, h₃, h₄, by simp [h₅]⟩
    · refine ⟨?_, ?_, ?_, ?_, by simp [hc]⟩ <;> (rintro rfl; exact absurd hc (by decide))
  obtain ⟨h₁, h₂, h₃, h₄, h₅⟩ := hne
  rw [scanBody, if_neg h₁, if_neg h₂, if_neg h₃, if_neg (fun h => h₄ h.1), if_neg (fun h => h₄ h.1),
    if_neg h₅]

/-- A run of characters that are skipped is skipped. -/
theorem scansTo_run {p : Char → Bool}
    (hp : ∀ c, p c = true → WordClass.isOrdinary c = true ∨ WordClass.separates c = true)
    (depth : Nat) (cs : List Char) : ScansTo .code depth cs (WordClass.run p cs) := by
  induction cs with
  | nil => exact scansTo_zero depth []
  | cons c cs ih =>
    rw [WordClass.run_cons]
    by_cases hc : p c = true
    · rw [if_pos hc]
      exact ih.succ (scanBody_of_skipped depth (hp c hc))
    · rw [if_neg hc]
      exact scansTo_zero depth (c :: cs)

/-- A string literal that is complete is gone through. -/
theorem scansTo_string {cs : List Char} {n : Nat} (depth : Nat)
    (h : WordClass.stringTail? cs = some n) : ScansTo .string depth cs n := by
  fun_induction WordClass.stringTail? cs generalizing n with
  | case1 => exact absurd h (by simp)
  | case2 cs =>
    obtain rfl := Option.some.inj h
    exact (scansTo_zero depth cs).succ rfl
  | case3 => exact absurd h (by simp)
  | case4 => exact absurd h (by simp)
  | case5 => exact absurd h (by simp)
  | case6 c cs hc ih =>
    obtain ⟨m, hm, rfl⟩ := Option.map_eq_some_iff.1 h
    have hescape : ScansTo .escape depth (c :: cs) (m + 1) :=
      (ih hm).succ (by simp [hc])
    exact hescape.succ rfl
  | case7 c cs hquote hfeed hback ih =>
    obtain ⟨m, hm, rfl⟩ := Option.map_eq_some_iff.1 h
    exact (ih hm).succ (by rw [scanBody, if_neg hquote, if_neg hfeed, if_neg hback])

/-- In a string literal that is not complete the scan fails. -/
theorem scanBody_string_eq_none {cs : List Char} (depth : Nat)
    (h : WordClass.stringTail? cs = none) : scanBody .string depth cs = none := by
  fun_induction WordClass.stringTail? cs with
  | case1 => rfl
  | case2 => exact absurd h (by simp)
  | case3 => rfl
  | case4 => rfl
  | case5 => rfl
  | case6 c cs hc ih =>
    have hescape : scanBody .string depth ('\\' :: c :: cs) =
        ((scanBody .string depth cs).map (· + 1)).map (· + 1) := by
      rw [scanBody, if_neg (by decide), if_neg (by decide), if_pos rfl, scanBody, if_neg hc]
    rw [hescape, ih (Option.map_eq_none_iff.1 h)]
    rfl
  | case7 c cs hquote hfeed hback ih =>
    rw [scanBody, if_neg hquote, if_neg hfeed, if_neg hback, ih (Option.map_eq_none_iff.1 h)]
    rfl

/-- A block comment that is closed is gone through. -/
theorem scansTo_blockComment {cs : List Char} {n : Nat} (depth : Nat)
    (h : WordClass.blockCommentTail? cs = some n) : ScansTo .blockComment depth cs n := by
  fun_induction WordClass.blockCommentTail? cs generalizing n with
  | case1 => exact absurd h (by simp)
  | case2 c cs hc =>
    obtain rfl := Option.some.inj h
    obtain ⟨cs', rfl⟩ := List.head?_eq_some_iff.1 hc.2
    have hend : ScansTo .commentEnd depth ('/' :: cs') 1 := (scansTo_zero depth cs').succ rfl
    exact hend.succ (by rw [scanBody, if_pos hc])
  | case3 c cs hc ih =>
    obtain ⟨m, hm, rfl⟩ := Option.map_eq_some_iff.1 h
    exact (ih hm).succ (by simp [hc])

/-- In a block comment that is not closed the scan fails. -/
theorem scanBody_blockComment_eq_none {cs : List Char} (depth : Nat)
    (h : WordClass.blockCommentTail? cs = none) : scanBody .blockComment depth cs = none := by
  fun_induction WordClass.blockCommentTail? cs with
  | case1 => rfl
  | case2 => exact absurd h (by simp)
  | case3 c cs hc ih =>
    rw [scanBody, if_neg hc, ih (Option.map_eq_none_iff.1 h)]
    rfl

/-- A line comment is gone through to the end of its line. -/
theorem scansTo_lineComment (depth : Nat) (cs : List Char) :
    ScansTo .lineComment depth cs (WordClass.run (· != '\n') cs) := by
  induction cs with
  | nil => rfl
  | cons c cs ih =>
    rw [WordClass.run_cons]
    by_cases hc : c = '\n'
    · subst hc
      unfold ScansTo
      simp only [bne_self_eq_false, Bool.false_eq_true, if_false, List.drop_zero]
      rw [scanBody_of_skipped depth (.inr (by decide)), scanBody, if_pos rfl, map_add_add]
    · rw [if_pos (by simpa using hc)]
      exact ih.succ (by simp [hc])

/-- The classes of what stands in a body, braces apart. -/
def WordClass.inBody : List WordClass := [statement, blockComment, string, blanks, lineComment]

/-- What stands in a body is gone through from its first to its last character, braces apart. -/
theorem scansTo_of_length? {c : WordClass} {cs : List Char} {n : Nat} (depth : Nat)
    (hc : c ∈ WordClass.inBody) (h : c.length? cs = some n) : ScansTo .code depth cs n := by
  cases c
  case statement =>
    rcases WordClass.statementLength?_eq_some_iff.1 h with ⟨cs, rfl, hline, hblock, rfl⟩ | hrun?
    · refine (scansTo_zero depth cs).succ ?_
      rw [scanBody, if_neg (by decide), if_neg (by decide), if_neg (by decide),
        if_neg (fun h => hline h.2), if_neg (fun h => hblock h.2), if_neg (by decide)]
    · obtain ⟨hrun, -⟩ := WordClass.run?_eq_some_iff.1 hrun?
      rw [← hrun]
      exact scansTo_run (fun c hc => .inl hc) depth cs
  case blockComment =>
    obtain ⟨cs, m, rfl, hm, rfl⟩ := WordClass.blockCommentLength?_eq_some_iff.1 h
    have hstart : ScansTo .commentStart depth ('*' :: cs) (m + 1) :=
      (scansTo_blockComment depth hm).succ rfl
    exact hstart.succ rfl
  case string =>
    obtain ⟨cs, m, rfl, hm, rfl⟩ := WordClass.stringLength?_eq_some_iff.1 h
    exact (scansTo_string depth hm).succ rfl
  case blanks =>
    obtain ⟨hrun, -⟩ := WordClass.run?_eq_some_iff.1 h
    rw [← hrun]
    exact scansTo_run (fun c hc => .inr hc) depth cs
  case lineComment =>
    obtain ⟨cs, rfl, rfl⟩ := WordClass.lineCommentLength?_eq_some_iff.1 h
    have hline := scansTo_lineComment depth ('/' :: cs)
    rw [WordClass.run_cons, if_pos (by decide)] at hline
    exact hline.succ rfl
  all_goals exact absurd hc (by decide)

/-- Where there is no run, the first character does not belong to one. -/
theorem WordClass.of_run?_eq_none {p : Char → Bool} {c : Char} {cs : List Char}
    (h : run? p (c :: cs) = none) : p c = false := by
  rw [Bool.eq_false_iff]
  intro hc
  have hrun : run? p (c :: cs) = some (run p cs + 1) :=
    run?_eq_some_iff.2 ⟨by rw [run_cons, if_pos hc], Nat.succ_pos _⟩
  rw [hrun] at h
  exact absurd h (by simp)

/-- Where nothing stands that belongs in a body, and no brace, the scan fails. -/
theorem scanBody_eq_none {c : Char} {cs : List Char} (depth : Nat)
    (hbraces : c ≠ '\x7b' ∧ c ≠ '\x7d')
    (h : ∀ k ∈ WordClass.inBody, k.length? (c :: cs) = none) :
    scanBody .code depth (c :: cs) = none := by
  have hstatement : WordClass.statementLength? (c :: cs) = none := h .statement (by decide)
  have hblanks : WordClass.run? WordClass.separates (c :: cs) = none := h .blanks (by decide)
  rw [scanBody, if_neg hbraces.1, if_neg hbraces.2]
  by_cases hquote : c = '"'
  · subst hquote
    have hstring : WordClass.stringLength? ('"' :: cs) = none := h .string (by decide)
    rw [if_pos rfl, scanBody_string_eq_none depth (Option.map_eq_none_iff.1 hstring)]
    rfl
  rw [if_neg hquote]
  by_cases hline : c = '/' ∧ cs.head? = some '/'
  · obtain ⟨rfl, hhead⟩ := hline
    obtain ⟨cs', rfl⟩ := List.head?_eq_some_iff.1 hhead
    exact absurd (h .lineComment (by decide))
      (by simp [WordClass.length?, WordClass.lineCommentLength?])
  rw [if_neg hline]
  by_cases hblock : c = '/' ∧ cs.head? = some '*'
  · obtain ⟨rfl, hhead⟩ := hblock
    obtain ⟨cs', rfl⟩ := List.head?_eq_some_iff.1 hhead
    have hcomment : WordClass.blockCommentLength? ('/' :: '*' :: cs') = none :=
      h .blockComment (by decide)
    rw [if_pos ⟨rfl, rfl⟩, scanBody,
      scanBody_blockComment_eq_none depth (Option.map_eq_none_iff.1 hcomment)]
    rfl
  have hslash : c ≠ '/' := by
    rintro rfl
    rw [WordClass.statementLength?, if_neg (by tauto)] at hstatement
    exact absurd hstatement (by simp)
  have hrun : WordClass.run? WordClass.isOrdinary (c :: cs) = none := by
    rw [← hstatement, WordClass.statementLength?]
    rintro cs' heq
    exact hslash (List.cons.inj heq).1
  have hordinary := WordClass.of_run?_eq_none hrun
  rw [if_neg hblock]
  refine if_pos ⟨?_, WordClass.of_run?_eq_none hblanks⟩
  simpa [WordClass.isOrdinary, hbraces.1, hbraces.2, hquote, hslash] using hordinary

end CadenceEntry
