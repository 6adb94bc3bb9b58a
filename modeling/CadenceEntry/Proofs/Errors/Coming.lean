import CadenceEntry.Proofs.Errors.FirstWrongPlace
import CadenceEntry.Proofs.Grammar.Taking
import CadenceEntry.Proofs.Layout.Insertion

/-!
# What can come next

A lookahead can come behind a text if a text that is derived begins so: the text, then a word of the
terminal, then anything, with white space between them; or the text itself, if the lookahead is the
end. Where a text has been read to, this is what the stack takes: `Progress.canCome_iff_takes`. From
right to left the word is pushed and what lies on the stack then is completed; from left to right
the same pieces are read of every text that begins so.
-/

set_option autoImplicit false

namespace CadenceEntry

open Grammar

namespace Source

/-- The lookahead can come behind the text `u`: with some word of the terminal behind `u`, and with
more text behind that, all of it is derived, and the word is read as this terminal where it stands;
or nothing comes behind `u` and it is derived. -/
def CanCome (g : Goal) (u : List Char) : Lookahead → Prop
  | .word t =>
    ∃ (sep x sep' more : List Char) (d : Derivation (.phrase g.phrase)),
      IsBlank sep ∧ sep ≠ [] ∧ t.Matches x ∧ IsBlank sep' ∧ sep' ≠ [] ∧
        derive g (u ++ sep ++ (x ++ (sep' ++ more))) = .ok d ∧
        (t, ⟨x, Position.origin.afterAll (u ++ sep)⟩) ∈ d.words
  | .finish =>
    ∃ (sep : List Char) (d : Derivation (.phrase g.phrase)),
      IsBlank sep ∧ derive g (u ++ sep) = .ok d

/-- A word stands behind the cursor where it is looked for, and before the one where reading goes
on. -/
theorem offset_of_read {q : State} {c c' : Cursor} {t : Terminal} {w : Lexeme}
    (h : NextWord.read q c = .word t w c') :
    c.place.offset ≤ w.start.offset ∧ w.start.offset < c'.place.offset := by
  obtain ⟨hskips, hnext, hplace⟩ := NextWord.exists_skips_of_word h
  obtain ⟨y, -, hstart⟩ := hskips.exists_rest
  have hpos : 0 < w.text.length := Piece.length_pos_of_next? hnext
  have hstart' : w.start = c.place.afterAll y := hstart
  constructor
  · rw [hstart', Position.offset_afterAll]
    exact Nat.le_add_right _ _
  · rw [hplace, Position.offset_afterAll]
    exact Nat.lt_add_of_pos_right hpos

variable {g : Goal} {k : Stack g} {last : Position} {c : Cursor}
  {d : Derivation (.phrase g.phrase)}

/-- A result has the words that lay on the stack. -/
theorem words_of_result? (h : (k.settle .finish).result? = some d) : d.words = k.words := by
  obtain ⟨q, hframes⟩ := frames_of_result? h
  rw [← Stack.words_settles (Stack.settles_settle k .finish)]
  simp [Stack.words, hframes]

/-- A word that is pushed comes behind the words that lay on the stack. -/
theorem words_of_settle_push? {k' : Stack g} {t : Terminal} {w : Lexeme}
    (h : (k.settle (.word t)).push? (.leaf t w) = some k') : k'.words = k.words ++ [(t, w)] := by
  rw [Stack.words_push? h, Stack.words_settles (Stack.settles_settle k (.word t))]
  rfl

/-- The words of a text that is derived are those on the stack and others behind the cursor. -/
theorem words_of_deriveFrom (h : deriveFrom k last c = .ok d) :
    ∃ ws, d.words = k.words ++ ws ∧ ∀ x ∈ ws, c.place.offset ≤ x.2.start.offset := by
  fun_induction deriveFrom k last c with
  | case1 k last c t w c' hread k₁ k₂ hpush ih =>
    obtain ⟨ws, hwords, hws⟩ := ih h
    obtain ⟨hstart, hstop⟩ := offset_of_read hread
    refine ⟨(t, w) :: ws, ?_, fun x hx => ?_⟩
    · rw [hwords, words_of_settle_push? hpush, List.append_assoc]
      rfl
    · rcases List.mem_cons.1 hx with rfl | hx
      · exact hstart
      · have hle := hws x hx
        omega
  | case2 => exact absurd h (by simp)
  | case3 k last c _ k₁ d' hresult =>
    obtain rfl := Except.ok.inj h
    exact ⟨[], by rw [words_of_result? hresult, List.append_nil], by simp⟩
  | case4 => exact absurd h (by simp)
  | case5 => exact absurd h (by simp)

/-- If a text is derived and has a word at the cursor, the stack takes it: the words on the stack
stand before the cursor, and all others behind the word that is read first. -/
theorem takes_of_mem_words (h : deriveFrom k last c = .ok d)
    (hk : ∀ x ∈ k.words, x.2.start.offset < c.place.offset) {t : Terminal} {w : Lexeme}
    (hw : (t, w) ∈ d.words) (hstart : w.start = c.place) : k.Takes (.word t) := by
  rw [deriveFrom_eq] at h
  cases hread : NextWord.read k.state c with
  | finish =>
    rw [hread] at h
    dsimp only at h
    split at h
    · next d' hresult =>
      obtain rfl := Except.ok.inj h
      rw [words_of_result? hresult] at hw
      have hlt := hk _ hw
      rw [hstart] at hlt
      exact absurd hlt (Nat.lt_irrefl _)
    · exact absurd h (by simp)
  | stuck c' =>
    rw [hread] at h
    exact absurd h (by simp)
  | word t' w' c' =>
    rw [hread] at h
    dsimp only at h
    split at h
    · next k' hpush =>
      obtain ⟨ws, hwords, hws⟩ := words_of_deriveFrom h
      rw [hwords, words_of_settle_push? hpush, List.append_assoc] at hw
      obtain ⟨hle, hlt⟩ := offset_of_read hread
      rcases List.mem_append.1 hw with hold | hnew
      · have hlt' := hk _ hold
        rw [hstart] at hlt'
        exact absurd hlt' (Nat.lt_irrefl _)
      · rcases List.mem_cons.1 hnew with heq | hlater
        · obtain ⟨rfl, rfl⟩ := Prod.mk.inj heq
          obtain ⟨q, hmove, -⟩ := Stack.push?_eq_some hpush
          exact Option.isSome_iff_exists.2 ⟨q, hmove⟩
        · have hle' := hws _ hlater
          rw [hstart] at hle'
          omega
    · exact absurd h (by simp)

namespace Progress

variable {s s' : Progress g} {n : Nat}

/-- The word `x` comes next, and it is pushed. -/
def Reads (s : Progress g) (x : Terminal × Lexeme) : Prop :=
  Piece.next? s.stack.state s.cursor.rest = some (.word x.1 x.2.text.length) ∧
    x.2 = s.cursor.lexeme x.2.text.length ∧ s.stack.Takes (.word x.1)

/-- Each word on the stack was there before or has been read. -/
theorem mem_words_or_exists (h : s.after? n = some s') {x : Terminal × Lexeme}
    (hx : x ∈ s'.stack.words) :
    x ∈ s.stack.words ∨ ∃ m s₁, s.after? m = some s₁ ∧ s₁.Reads x := by
  induction n generalizing s with
  | zero =>
    obtain rfl := Option.some.inj h
    exact .inl hx
  | succ n ih =>
    obtain ⟨s₁, hnext, hafter⟩ := Option.bind_eq_some_iff.1 h
    rcases ih hafter with hmem | ⟨m, s₂, hm, hreads⟩
    · cases step_of_next? hnext with
      | gap => exact .inl hmem
      | @word t l k hword hpush =>
        have hmem' : x ∈ k.words := hmem
        rw [words_of_settle_push? hpush] at hmem'
        rcases List.mem_append.1 hmem' with hold | hnew
        · exact .inl hold
        · obtain rfl := List.mem_singleton.1 hnew
          obtain ⟨q, hmove, -⟩ := Stack.push?_eq_some hpush
          have hlength : (s.cursor.lexeme l).text.length = l :=
            List.length_take_of_le (Piece.matches_of_next? hword).1
          refine .inr ⟨0, s, rfl, ?_, ?_, Option.isSome_iff_exists.2 ⟨q, hmove⟩⟩
          · rw [hlength]
            exact hword
          · rw [hlength]
    · refine .inr ⟨m + 1, s₂, ?_, hreads⟩
      rw [after?, hnext]
      exact hm

/-- A text that is derived is read to its end. -/
theorem exists_finish_of_derive {cs : List Char} (h : derive g cs = .ok d) :
    ∃ n s', (start g cs).after? n = some s' ∧ s'.cursor.rest = [] ∧ s'.stack.words = d.words := by
  obtain ⟨n, s', hafter, hnone, houtcome⟩ := (start g cs).exists_last
  have hok : s'.outcome = .ok d := houtcome.trans h
  have hrest : s'.cursor.rest = [] := by
    rcases rest_or_error_of_next? hnone with hrest | ⟨e, he, -⟩
    · exact hrest
    · rw [he] at hok
      exact absurd hok (by simp)
  refine ⟨n, s', hafter, hrest, ?_⟩
  rw [outcome, deriveFrom_eq, NextWord.read_of_nil hrest] at hok
  dsimp only at hok
  split at hok
  · next d' hresult =>
    obtain rfl := Except.ok.inj hok
    exact (words_of_result? hresult).symm
  · exact absurd hok (by simp)

/-- A text that is derived is still derived with a line feed where one of its pieces ends. -/
theorem exists_derive_lineFeed {pre post : List Char} (h : derive g (pre ++ post) = .ok d)
    (hboundary : IsBoundary g pre post) :
    ∃ d', derive g (pre ++ ['\n'] ++ post) = .ok d' := by
  have hlayout : IsLayout ['\n'] := .blank (by decide)
  have hmoved := (derive_insert hboundary hlayout).1 fun hwordless => by
    have hread : NextWord.read (Stack.empty g).state (.ofText (pre ++ post)) = .finish := hwordless
    rw [derive, deriveFrom_eq, hread] at h
    intro hnone
    dsimp only at h
    rw [hnone] at h
    exact absurd h (by simp)
  rw [h] at hmoved
  generalize derive g (pre ++ ['\n'] ++ post) = r at hmoved
  cases hmoved with
  | ok => exact ⟨_, rfl⟩

/-- Where the first part of a text has been read, the second one is left. -/
theorem rest_of_place_eq {pre post : List Char} (h : (start g (pre ++ post)).after? n = some s)
    (hplace : s.cursor.place = Position.origin.afterAll pre) :
    s.cursor.rest = post := by
  obtain ⟨y, hy, hplace'⟩ := exists_rest h
  have hlength : y.length = pre.length := by
    have hoffset := congrArg Position.offset (hplace'.symm.trans hplace)
    have hy' : (Position.origin.afterAll y).offset = (Position.origin.afterAll pre).offset :=
      hoffset
    rw [Position.offset_afterAll, Position.offset_afterAll] at hy'
    omega
  exact (List.append_inj hy.symm hlength).2

/-- If a word is read behind white space, it is also read behind one line feed more. -/
theorem exists_derive_of_mem_words {pre post : List Char} {t : Terminal} {x : List Char}
    (h : derive g (pre ++ (x ++ post)) = .ok d)
    (hx : (t, ⟨x, Position.origin.afterAll pre⟩) ∈ d.words) :
    ∃ d', derive g (pre ++ ['\n'] ++ (x ++ post)) = .ok d' ∧
      (t, ⟨x, Position.origin.afterAll (pre ++ ['\n'])⟩) ∈ d'.words := by
  obtain ⟨n, s', hafter, -, hwords⟩ := exists_finish_of_derive h
  rw [← hwords] at hx
  rcases mem_words_or_exists hafter hx with hempty | ⟨m, s, hm, hnext, hlexeme, htakes⟩
  · exact absurd hempty (by simp [start, Stack.empty, Stack.words])
  have hplace : s.cursor.place = Position.origin.afterAll pre :=
    (congrArg Lexeme.start hlexeme).symm
  have hrest := rest_of_place_eq hm hplace
  obtain ⟨d', hd'⟩ := exists_derive_lineFeed h ⟨m, by rw [hm]; exact congrArg some hrest⟩
  refine ⟨d', hd', ?_⟩
  -- what is read behind the line feed is the same word
  obtain ⟨q, hmove⟩ := Option.isSome_iff_exists.1 htakes
  have hread : NextWord.read s.stack.state
      ⟨Position.origin.afterAll pre, '\n' :: (x ++ post)⟩ =
        .word t ⟨x, Position.origin.afterAll (pre ++ ['\n'])⟩
          ⟨(Position.origin.afterAll (pre ++ ['\n'])).afterAll x, post⟩ := by
    have hskip := NextWord.read_of_isBlank (q := s.stack.state) (g := ['\n'])
      (c := ⟨Position.origin.afterAll pre, ['\n'] ++ (x ++ post)⟩) (by decide) rfl
    refine hskip.trans ?_
    rw [hrest] at hnext
    rw [NextWord.read_of_word (n := x.length) hnext]
    simp [Cursor.lexeme, Cursor.advance, Position.afterAll_append]
  have hrun : derive g (pre ++ ['\n'] ++ (x ++ post)) =
      deriveFrom s.stack s.last ⟨Position.origin.afterAll pre, '\n' :: (x ++ post)⟩ := by
    have hreplaceable : Replaceable s.cursor.rest ('\n' :: (x ++ post)) :=
      ⟨.inr ⟨'\n', _, rfl, .inl (by decide)⟩, fun _ => beginsBlank_of_head? (.inr rfl)⟩
    have hsource : (start g (pre ++ (x ++ post))).cursor.rest = pre ++ s.cursor.rest := by
      rw [hrest]
      rfl
    rw [List.append_assoc, ← hplace]
    exact outcome_replaced hm hsource hreplaceable
  have hpush := Stack.push?_of_move?
    (.leaf t ⟨x, Position.origin.afterAll (pre ++ ['\n'])⟩) hmove
  rw [hrun, deriveFrom_of_word hread hpush] at hd'
  obtain ⟨ws, hws, -⟩ := words_of_deriveFrom hd'
  rw [hws, Stack.words_push? hpush]
  simp [Derivation.words]

variable {source : List Char} {a : Lookahead}

/-- What has been read can be followed by any text that begins with white space and a line feed. -/
theorem outcome_behind_blank {ss : List Segment} (hs : s.Sound source ss)
    (h : (start g source).after? n = some s) (sep : List Char) (hsep : IsBlank sep)
    (post : List Char) :
    derive g (Segment.join ss ++ (sep ++ ['\n'] ++ post)) =
      deriveFrom s.stack s.last ⟨s.cursor.place.afterAll (sep ++ ['\n']), post⟩ := by
  have hblank : IsBlank (sep ++ ['\n']) :=
    List.forall_mem_append.2 ⟨hsep, List.forall_mem_singleton.2 rfl⟩
  have hreplaceable : Replaceable s.cursor.rest (sep ++ ['\n'] ++ post) := by
    rw [List.append_assoc]
    refine ⟨.inr ?_, fun _ => (beginsBlank_of_head? (.inr rfl)).blank_append hsep⟩
    cases sep with
    | nil => exact ⟨'\n', _, rfl, .inl (by decide)⟩
    | cons y ys => exact ⟨y, _, rfl, .inl (hsep y List.mem_cons_self)⟩
  have hrun : derive g (Segment.join ss ++ (sep ++ ['\n'] ++ post)) =
      deriveFrom s.stack s.last ⟨s.cursor.place, sep ++ ['\n'] ++ post⟩ :=
    outcome_replaced h hs.rest hreplaceable
  rw [hrun]
  refine deriveFrom_congr ?_
  rw [NextWord.read_of_isBlank hblank rfl, Cursor.advance, List.take_left, List.drop_left]

/-- What the stack takes can come. -/
theorem Sound.canCome {ss : List Segment} (hs : s.Sound source ss)
    (h : (start g source).after? n = some s) (ha : s.stack.Takes a) :
    CanCome g (Segment.join ss) a := by
  have hline : IsBlank ['\n'] := by decide
  cases a with
  | finish =>
    obtain ⟨d, hd⟩ := Option.isSome_iff_exists.1 ha
    refine ⟨['\n'], d, hline, ?_⟩
    have hrun := outcome_behind_blank hs h [] (by simp [IsBlank]) []
    rw [List.append_nil, List.nil_append] at hrun
    rw [hrun]
    exact deriveFrom_of_finish (NextWord.read_of_nil rfl) hd
  | word t =>
    obtain ⟨q, hmove⟩ := Option.isSome_iff_exists.1 ha
    have hreserves : t = .name → s.stack.state.reserves t.sample = false := by
      rintro rfl
      rw [Bool.eq_false_iff]
      intro hreserves
      obtain ⟨t, -, ht⟩ := List.any_eq_true.1 hreserves
      simp only [Bool.and_eq_true, beq_iff_eq] at ht
      exact t.sample_name_ne_chars? ht.2
    -- the word is pushed, and what lies on the stack then is completed
    have hpush := Stack.push?_of_move?
      (.leaf t ⟨t.sample, s.cursor.place.afterAll ['\n']⟩) hmove
    have hlinked := (hs.linked.settles (Stack.settles_settle _ _)).push? hpush
    obtain ⟨cs, hcs⟩ := exists_deriveFrom_eq_ok hlinked (by rintro f ⟨⟩; exact ⟨t, rfl⟩)
    obtain ⟨d, ws, hd, hwords, -⟩ := hcs (s.cursor.place.afterAll ['\n'])
      ((s.cursor.place.afterAll ['\n']).afterAll t.sample)
    have hread : NextWord.read s.stack.state
        ⟨s.cursor.place.afterAll ['\n'], t.sample ++ '\n' :: cs⟩ =
          .word t ⟨t.sample, s.cursor.place.afterAll ['\n']⟩
            ⟨(s.cursor.place.afterAll ['\n']).afterAll t.sample, '\n' :: cs⟩ := by
      refine NextWord.read_of_matches (g := []) rfl (by simp [IsBlank]) ha.admits t.matches_sample
        hreserves ?_
      rintro y ⟨⟩
      exact Terminal.continues_of_separates (by decide)
    have hplace : Position.origin.afterAll (Segment.join ss ++ ['\n']) =
        s.cursor.place.afterAll ['\n'] := by
      rw [Position.afterAll_append, hs.place]
    refine ⟨['\n'], t.sample, ['\n'], cs, d, hline, by simp, t.matches_sample, hline, by simp, ?_,
      ?_⟩
    · have hrun := outcome_behind_blank hs h [] (by simp [IsBlank])
        (t.sample ++ ('\n' :: cs))
      rw [List.append_assoc]
      rw [List.nil_append] at hrun
      exact hrun.trans ((deriveFrom_of_word hread hpush).trans hd)
    · rw [hwords, Stack.words_push? hpush, hplace]
      simp [Derivation.words]

/-- What can come the stack takes. -/
theorem Sound.takes {ss : List Segment} (hs : s.Sound source ss)
    (h : (start g source).after? n = some s) (ha : CanCome g (Segment.join ss) a) :
    s.stack.Takes a := by
  cases a with
  | finish =>
    obtain ⟨sep, d, hsep, hd⟩ := ha
    obtain ⟨m, s', hm, hrest, -⟩ := exists_finish_of_derive hd
    rw [← List.append_nil (Segment.join ss ++ sep)] at hd hm
    obtain ⟨d', hd'⟩ := exists_derive_lineFeed hd ⟨m, by rw [hm]; exact congrArg some hrest⟩
    rw [List.append_assoc, List.append_assoc, ← List.append_assoc sep,
      outcome_behind_blank hs h sep hsep, deriveFrom_eq, NextWord.read_of_nil rfl] at hd'
    dsimp only at hd'
    split at hd'
    · next hresult => exact Option.isSome_iff_exists.2 ⟨_, hresult⟩
    · exact absurd hd' (by simp)
  | word t =>
    obtain ⟨sep, x, sep', more, d, hsep, -, -, -, -, hd, hx⟩ := ha
    obtain ⟨d', hd', hx'⟩ := exists_derive_of_mem_words hd hx
    have hplace : Position.origin.afterAll (Segment.join ss ++ sep ++ ['\n']) =
        s.cursor.place.afterAll (sep ++ ['\n']) := by
      rw [List.append_assoc, Position.afterAll_append, hs.place]
    rw [hplace] at hx'
    rw [List.append_assoc, List.append_assoc, ← List.append_assoc sep,
      outcome_behind_blank hs h sep hsep] at hd'
    refine takes_of_mem_words hd' (fun w hw => ?_) hx' rfl
    -- the words on the stack stand in the text that has been read
    rw [hs.words] at hw
    have hin := ((Segment.stand_words hs.valid).stands w hw).isIn_start.offset
    show w.2.start.offset < (s.cursor.place.afterAll (sep ++ ['\n'])).offset
    rw [hs.place, Position.offset_afterAll, Position.offset_afterAll]
    omega

/-- Behind what has been read the lookaheads can come that the stack takes. -/
theorem canCome_iff_takes (h : (start g source).after? n = some s) :
    CanCome g (source.take s.cursor.place.offset) a ↔ s.stack.Takes a := by
  obtain ⟨ss, hs⟩ := (sound_start g source).after h
  rw [hs.take_eq]
  exact ⟨hs.takes h, hs.canCome h⟩

end Progress

end Source

end CadenceEntry
