import CadenceEntry.Proofs.Source.Replacing

/-!
# A line feed at the end of a text

A line feed at the end of a text is white space, or it comes behind something that no word takes it
into: a line comment, an open string, a lone slash. So each word is the same with and without it,
the text is refused for the same reason at the same place, and what it means is the same.
-/

set_option autoImplicit false

namespace CadenceEntry

open Grammar

namespace WordClass

/-- A run that takes no line feeds does not take the last one. -/
theorem run_lineFeed {p : Char → Bool} (hp : p '\n' = false) (cs : List Char) :
    run p (cs ++ ['\n']) = run p cs :=
  run_append cs fun x hx => by rwa [← Option.some.inj hx]

/-- A line feed behind a text does not make a run longer that it does not belong to. -/
theorem run?_lineFeed {p : Char → Bool} (hp : p '\n' = false) (cs : List Char) :
    run? p (cs ++ ['\n']) = run? p cs :=
  run?_append fun x hx => by rwa [← Option.some.inj hx]

/-- A line feed behind a text does not change the decimal integer at its beginning. -/
theorem decimalLength?_lineFeed (cs : List Char) :
    decimalLength? (cs ++ ['\n']) = decimalLength? cs := by
  have hdigits : (fun c : Char => c.isDigit || c == '_') '\n' = false := by decide
  cases cs with
  | nil => rfl
  | cons c cs =>
    rw [List.cons_append, decimalLength?, decimalLength?, run_lineFeed hdigits]

/-- A line feed behind a text does not change the integer at its beginning. -/
theorem integerLength?_lineFeed (cs : List Char) :
    integerLength? (cs ++ ['\n']) = integerLength? cs := by
  have hradix : ∀ m ds, ((radixDigit? m).bind fun p => run? p (ds ++ ['\n'])) =
      (radixDigit? m).bind fun p => run? p ds := by
    intro m ds
    cases hm : radixDigit? m with
    | none => rfl
    | some p =>
      have hp : p '\n' = false := by
        by_contra hp
        have hname := continuesName_of_radixDigit? hm (Bool.not_eq_false _ ▸ hp)
        exact absurd hname (by decide)
      exact run?_lineFeed hp ds
  have hdecimal := decimalLength?_lineFeed cs
  match cs with
  | [] => rfl
  | [c] =>
    by_cases hc : c = '0'
    · subst hc
      rfl
    · simpa [integerLength?, hc] using hdecimal
  | c :: m :: ds =>
    by_cases hc : c = '0'
    · subst hc
      simp only [List.cons_append] at hdecimal
      simp only [List.cons_append, integerLength?, hradix, hdecimal]
    · simpa [integerLength?, hc] using hdecimal

/-- A line feed behind a text does not change the name at its beginning. -/
theorem nameLength?_lineFeed (cs : List Char) : nameLength? (cs ++ ['\n']) = nameLength? cs := by
  cases cs with
  | nil => rfl
  | cons c cs =>
    rw [List.cons_append, nameLength?, nameLength?, run_lineFeed (by decide)]

/-- A line feed is not the second of two marks, so where a class begins with two marks it is enough
to look behind them. -/
theorem lineFeed_of_marks {f : List Char → Option Nat} {a b : Char} (hb : b ≠ '\n')
    (hnone : ∀ cs, (∀ ds, cs ≠ a :: b :: ds) → f cs = none)
    (hmarks : ∀ ds, f (a :: b :: (ds ++ ['\n'])) = f (a :: b :: ds)) (cs : List Char) :
    f (cs ++ ['\n']) = f cs := by
  by_cases hcs : ∀ ds, cs ≠ a :: b :: ds
  · rw [hnone cs hcs, hnone]
    intro ds heq
    match cs with
    | [] => simp at heq
    | [c] =>
      simp only [List.cons_append, List.nil_append, List.cons.injEq] at heq
      exact hb heq.2.1.symm
    | c :: x :: cs =>
      simp only [List.cons_append, List.cons.injEq] at heq
      apply hcs cs
      rw [heq.1, heq.2.1]
  · push Not at hcs
    obtain ⟨ds, rfl⟩ := hcs
    exact hmarks ds

/-- A line feed behind a text does not change the address at its beginning. -/
theorem addressLength?_lineFeed (cs : List Char) :
    addressLength? (cs ++ ['\n']) = addressLength? cs := by
  apply lineFeed_of_marks (a := '0') (b := 'x') (by decide)
  · intro cs hcs
    unfold addressLength?
    split
    · next ds => exact absurd rfl (hcs ds)
    · rfl
  · intro ds
    rw [addressLength?, addressLength?, run?_lineFeed (by decide)]

/-- A line feed behind a text does not end a string in it. -/
theorem stringTail?_lineFeed (cs : List Char) : stringTail? (cs ++ ['\n']) = stringTail? cs := by
  fun_induction stringTail? cs with
  | case1 | case2 | case3 | case4 | case5 => rfl
  | case6 cs c hc ih => rw [List.cons_append, List.cons_append, stringTail?, if_neg hc, ih]
  | case7 c cs hquote hfeed hslash ih =>
    rw [List.cons_append, stringTail?, ih]
    · exact hquote
    · exact hfeed
    · exact hslash

/-- A line feed behind a text does not change the string at its beginning. -/
theorem stringLength?_lineFeed (cs : List Char) :
    stringLength? (cs ++ ['\n']) = stringLength? cs := by
  cases cs with
  | nil => rfl
  | cons c cs =>
    by_cases hc : c = '"'
    · subst hc
      rw [List.cons_append, stringLength?, stringLength?, stringTail?_lineFeed]
    · simp [stringLength?, hc]

/-- A line feed behind a text does not end a block comment in it. -/
theorem blockCommentTail?_lineFeed (cs : List Char) :
    blockCommentTail? (cs ++ ['\n']) = blockCommentTail? cs := by
  induction cs with
  | nil => rfl
  | cons c cs ih =>
    have hslash : (cs ++ ['\n']).head? = some '/' ↔ cs.head? = some '/' := by
      cases cs <;> simp
    simp only [List.cons_append, blockCommentTail?, hslash, ih]

/-- A line feed behind a text does not change the block comment at its beginning. -/
theorem blockCommentLength?_lineFeed (cs : List Char) :
    blockCommentLength? (cs ++ ['\n']) = blockCommentLength? cs := by
  apply lineFeed_of_marks (a := '/') (b := '*') (by decide)
  · intro cs hcs
    unfold blockCommentLength?
    split
    · next ds => exact absurd rfl (hcs ds)
    · rfl
  · intro ds
    rw [blockCommentLength?, blockCommentLength?, blockCommentTail?_lineFeed]

/-- A line feed behind a text does not change the line comment at its beginning. -/
theorem lineCommentLength?_lineFeed (cs : List Char) :
    lineCommentLength? (cs ++ ['\n']) = lineCommentLength? cs := by
  apply lineFeed_of_marks (a := '/') (b := '/') (by decide)
  · intro cs hcs
    unfold lineCommentLength?
    split
    · next ds => exact absurd rfl (hcs ds)
    · rfl
  · intro ds
    rw [lineCommentLength?, lineCommentLength?, run_lineFeed (by decide)]

/-- A line feed behind a text does not change the text of a body at its beginning. -/
theorem statementLength?_lineFeed (cs : List Char) :
    statementLength? (cs ++ ['\n']) = statementLength? cs := by
  cases cs with
  | nil => rfl
  | cons c cs =>
    by_cases hc : c = '/'
    · subst hc
      cases cs <;> rfl
    · have hrun := run?_lineFeed (p := isOrdinary) (by decide) (c :: cs)
      simpa [statementLength?, hc] using hrun

/-- No class but white space takes a line feed at the end of a text. -/
theorem length?_lineFeed {c : WordClass} (hc : c ≠ blanks) (cs : List Char) :
    c.length? (cs ++ ['\n']) = c.length? cs := by
  cases c with
  | integer => exact integerLength?_lineFeed cs
  | statement => exact statementLength?_lineFeed cs
  | name => exact nameLength?_lineFeed cs
  | blockComment => exact blockCommentLength?_lineFeed cs
  | string => exact stringLength?_lineFeed cs
  | address => exact addressLength?_lineFeed cs
  | blanks => exact absurd rfl hc
  | lineComment => exact lineCommentLength?_lineFeed cs

/-- White space takes a line feed at the end of a text only if the text is all white space. -/
theorem length?_lineFeed_of_not_isBlank {cs : List Char} (h : ¬ IsBlank cs) (c : WordClass) :
    c.length? (cs ++ ['\n']) = c.length? cs := by
  by_cases hc : c = blanks
  · subst hc
    have hrun : run separates (cs ++ ['\n']) = run separates cs := by
      induction cs with
      | nil => exact absurd (by simp [IsBlank]) h
      | cons x cs ih =>
        rw [List.cons_append, run_cons, run_cons]
        by_cases hx : separates x = true
        · rw [if_pos hx, if_pos hx, ih]
          intro hcs
          exact h (List.forall_mem_cons.2 ⟨hx, hcs⟩)
        · rw [if_neg hx, if_neg hx]
    show run? separates (cs ++ ['\n']) = run? separates cs
    unfold run?
    rw [hrun]
  · exact length?_lineFeed hc cs

end WordClass

namespace Piece

/-- No spelling ends with a line feed. -/
theorem ofSpelling?_lineFeed {ts : List Terminal} (hts : ∀ t ∈ ts, t ∈ Terminal.fixed)
    (cs : List Char) : ofSpelling? ts (cs ++ ['\n']) = ofSpelling? ts cs := by
  have hspelling : ∀ t ∈ Terminal.fixed, ∀ s, t.spelling? = some s → '\n' ∉ s.toList := by
    have hall : ∀ t ∈ Terminal.fixed, (t.spelling?.map fun s => s.toList.contains '\n') =
        t.spelling?.map fun _ => false := by decide
    intro t ht s hs hmem
    have heq := hall t ht
    rw [hs] at heq
    simp [hmem] at heq
  have hprefix : ∀ t ∈ ts, ∀ s, t.spelling? = some s →
      s.toList.isPrefixOf (cs ++ ['\n']) = s.toList.isPrefixOf cs := by
    intro t ht s hs
    rw [Bool.eq_iff_iff, List.isPrefixOf_iff_prefix, List.isPrefixOf_iff_prefix,
      List.prefix_concat_iff]
    constructor
    · rintro (heq | hp)
      · refine absurd ?_ (hspelling t (hts t ht) s hs)
        rw [heq]
        exact List.mem_append_right cs (List.mem_singleton.2 rfl)
      · exact hp
    · exact .inr
  unfold ofSpelling?
  induction ts with
  | nil => rfl
  | cons t ts ih =>
    have hrest := ih (fun t ht => hts t (List.mem_cons_of_mem _ ht)) fun t ht =>
      hprefix t (List.mem_cons_of_mem _ ht)
    rw [List.findSome?_cons, List.findSome?_cons, hrest]
    cases hs : t.spelling? with
    | none => rfl
    | some s =>
      rw [Option.bind_some, Option.bind_some, hprefix t List.mem_cons_self s hs]

variable {q : State} {cs : List Char}

/-- A piece is the same with a line feed behind the text, unless there is only white space. -/
theorem next?_lineFeed (h : ¬ IsBlank cs) : next? q (cs ++ ['\n']) = next? q cs := by
  have hlength := WordClass.length?_lineFeed_of_not_isBlank h
  by_cases hnone : ∀ c ∈ q.wordClasses, c.length? cs = none
  · have hnone' : ∀ c ∈ q.wordClasses, c.length? (cs ++ ['\n']) = none := by
      intro c hc
      rw [hlength, hnone c hc]
    have hfixed : ∀ t ∈ q.fixedWords, t ∈ Terminal.fixed := fun t ht => (List.mem_filter.1 ht).1
    rw [next?_of_no_class hnone, next?_of_no_class hnone', ofSpelling?_lineFeed hfixed]
  · obtain ⟨c, hc, n, hn⟩ : ∃ c ∈ q.wordClasses, ∃ n, c.length? cs = some n := by
      simpa [Option.ne_none_iff_exists'] using hnone
    have hle := (WordClass.length?_take hn).1
    rw [next?_of_class hc hn, next?_of_class hc ((hlength c).trans hn),
      List.take_append_of_le_length hle]

/-- The same holds where every word is looked for. -/
theorem anywhere?_lineFeed (h : ¬ IsBlank cs) : anywhere? (cs ++ ['\n']) = anywhere? cs := by
  have hlength : (fun c : WordClass => c.length? (cs ++ ['\n'])) = fun c => c.length? cs :=
    funext (WordClass.length?_lineFeed_of_not_isBlank h)
  unfold anywhere?
  rw [hlength, ofSpelling?_lineFeed fun _ ht => ht]

/-- A piece that stands somewhere is a part of the text. -/
theorem le_length_of_anywhere? {n : Nat} (h : anywhere? cs = some n) : n ≤ cs.length := by
  unfold anywhere? at h
  split at h
  · next m hm =>
    obtain rfl := Option.some.inj h
    obtain ⟨c, -, hc⟩ := List.exists_of_findSome?_eq_some hm
    exact (WordClass.length?_take hc).1
  · obtain ⟨p, hp, rfl⟩ := Option.map_eq_some_iff.1 h
    obtain ⟨t, -, w, -, hw, rfl⟩ := exists_of_ofSpelling? hp
    exact hw.length_le

end Piece

/-- The cursor with a line feed behind the text. -/
def Cursor.withLineFeed (c : Cursor) : Cursor := ⟨c.place, c.rest ++ ['\n']⟩

/-- What is read, with a line feed behind the text. -/
def NextWord.withLineFeed : NextWord → NextWord
  | word t w c => word t w c.withLineFeed
  | finish => finish
  | stuck c => stuck c.withLineFeed

namespace NextWord

variable {q : State} {c : Cursor}

/-- Reading gets stuck before something else than white space. -/
theorem not_isBlank_of_stuck {c' : Cursor} (h : read q c = stuck c') : ¬ IsBlank c'.rest := by
  intro hblank
  have hself : read q c' = stuck c' := by
    unfold read at h
    fun_induction readBy (Piece.next? q) c with
    | case1 => exact absurd h (by simp)
    | case2 c hne hnext =>
      obtain rfl := NextWord.stuck.inj h
      exact read_of_next?_eq_none hne hnext
    | case3 => exact absurd h (by simp)
    | case4 c hne n hpos hnext hpos' ih => exact ih h
    | case5 c hne p hnext hpos => exact absurd (Piece.length_pos_of_next? hnext) hpos
  rw [read_of_isBlank_rest hblank] at hself
  exact absurd hself (by simp)

/-- Reading is the same with a line feed behind the text. -/
theorem read_withLineFeed (q : State) (c : Cursor) :
    read q c.withLineFeed = (read q c).withLineFeed := by
  have hfeed : IsBlank ['\n'] := by decide
  induction hlength : c.rest.length using Nat.strong_induction_on generalizing c with
  | _ m ih =>
    by_cases hblank : IsBlank c.rest
    · rw [read_of_isBlank_rest hblank]
      exact read_of_isBlank_rest (List.forall_mem_append.2 ⟨hblank, hfeed⟩)
    have hnext := Piece.next?_lineFeed (q := q) hblank
    cases hpiece : Piece.next? q c.rest with
    | none =>
      rw [hpiece] at hnext
      have hne : c.rest ≠ [] := by
        intro hnil
        rw [hnil] at hblank
        exact hblank (by simp [IsBlank])
      rw [read_of_next?_eq_none hne hpiece]
      exact read_of_next?_eq_none (by simp [Cursor.withLineFeed]) hnext
    | some p =>
      rw [hpiece] at hnext
      cases p with
      | word t n =>
        have hle := (Piece.matches_of_next? hpiece).1
        rw [read_of_word hpiece, read_of_word (c := c.withLineFeed) hnext]
        simp only [withLineFeed, Cursor.withLineFeed, Cursor.lexeme, Cursor.advance,
          List.take_append_of_le_length hle, List.drop_append_of_le_length hle]
      | gap n =>
        have hle := (Piece.isGap_of_next? hpiece).1
        have hpos : 0 < n := Piece.length_pos_of_next? hpiece
        have hadvance : c.withLineFeed.advance n = (c.advance n).withLineFeed := by
          simp only [Cursor.withLineFeed, Cursor.advance, List.take_append_of_le_length hle,
            List.drop_append_of_le_length hle]
        have hlt : (c.advance n).rest.length < m := by
          simp only [Cursor.advance, List.length_drop]
          omega
        rw [read_of_gap hpiece, read_of_gap (c := c.withLineFeed) hnext, hadvance]
        exact ih _ hlt _ rfl

end NextWord

namespace Source

variable {g : Goal}

/-- Where reading gets stuck, the same word or character is shown. -/
theorem stuckError_withLineFeed {q : State} {c : Cursor} (h : ¬ IsBlank c.rest) :
    stuckError q c.withLineFeed = stuckError q c := by
  have hanywhere := Piece.anywhere?_lineFeed h
  have hhead : (c.rest ++ ['\n']).headD '\x00' = c.rest.headD '\x00' := by
    cases hrest : c.rest with
    | nil =>
      rw [hrest] at h
      exact absurd (by simp [IsBlank]) h
    | cons x cs => rfl
  unfold stuckError Cursor.withLineFeed
  dsimp only
  rw [hanywhere, hhead]
  cases hn : Piece.anywhere? c.rest with
  | none => rfl
  | some n =>
    dsimp only
    rw [List.take_append_of_le_length (Piece.le_length_of_anywhere? hn)]

/-- Reading on comes to the same end with a line feed behind the text. -/
theorem deriveFrom_withLineFeed (k : Stack g) (last : Position) (c : Cursor) :
    deriveFrom k last c.withLineFeed = deriveFrom k last c := by
  induction hlength : c.rest.length using Nat.strong_induction_on generalizing k last c with
  | _ m ih =>
    rw [deriveFrom_eq, deriveFrom_eq k last c, NextWord.read_withLineFeed]
    cases hread : NextWord.read k.state c with
    | finish => rfl
    | stuck c' =>
      have hblank := NextWord.not_isBlank_of_stuck hread
      exact congrArg Except.error (stuckError_withLineFeed hblank)
    | word t w c' =>
      have hlt : c'.rest.length < m := hlength ▸ NextWord.length_lt_of_readBy hread
      dsimp only [NextWord.withLineFeed]
      cases (k.settle (.word t)).push? (.leaf t w) with
      | none => rfl
      | some k' => exact ih _ hlt k' w.start c' rfl

/-- A line feed at the end of a text changes neither what is derived nor why nothing is. -/
theorem derive_lineFeed (g : Goal) (cs : List Char) : derive g (cs ++ ['\n']) = derive g cs :=
  deriveFrom_withLineFeed _ _ (.ofText cs)

end Source

end CadenceEntry
