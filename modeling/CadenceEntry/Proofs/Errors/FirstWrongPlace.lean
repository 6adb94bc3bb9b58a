import CadenceEntry.Proofs.Layout.Boundary
import CadenceEntry.Proofs.Nodes.Standing
import CadenceEntry.Proofs.Source.Completing

/-!
# Errors point at the first wrong place

Reading goes on as long as the text up to there can be continued to one that is derived. So what
stands before the place of an error can be continued, and if the text ends too early, all of it can.
`Progress.Sound` is what holds all along: what lies on the stack are the words of the pieces that
have been read, and there is a continuation for it.
-/

set_option autoImplicit false

namespace CadenceEntry

open Grammar

namespace Source

/-- The place where the last of some words starts, or the place before all text. -/
def lastStart (ws : List (Terminal × Lexeme)) : Position :=
  (ws.getLast?.map fun x => x.2.start).getD .origin

/-- The last word of a text starts within it. -/
theorem lastStart_isIn {ss : List Segment} (hvalid : ∀ s ∈ ss, s.Valid) :
    (lastStart (Segment.words .origin ss)).IsIn (Segment.join ss) ∨
      lastStart (Segment.words .origin ss) = .origin := by
  unfold lastStart
  cases hlast : (Segment.words .origin ss).getLast? with
  | none => exact .inr rfl
  | some x =>
    have hx := (Segment.stand_words hvalid).stands x (List.mem_of_getLast? hlast)
    exact .inl hx.isIn_start

/-- The text has the words `ws`, and some text behind it makes it one that is derived. It has these
words first, and no integer literal behind them is without a value. -/
def Continues (g : Goal) (cs : List Char) (ws : List (Terminal × Lexeme)) : Prop :=
  ∃ (ss : List Segment) (more : List Char) (d : Derivation (.phrase g.phrase))
    (ws' : List (Terminal × Lexeme)),
    Segment.join ss = cs ∧ (∀ s ∈ ss, s.Valid) ∧ Segment.words .origin ss = ws ∧
      derive g (cs ++ more) = .ok d ∧ d.words = ws ++ ws' ∧
      ∀ x ∈ ws', x.1 = .integer → (Number.IntegerLiteral.value? x.2.text).isSome = true

namespace Progress

variable {g : Goal} {s s' : Progress g}

/-- Reading one more piece does not change what becomes of the text. -/
theorem Step.outcome_eq (h : Step s s') : s.outcome = s'.outcome := by
  cases h with
  | gap hnext => exact deriveFrom_congr (NextWord.read_of_gap hnext)
  | word hnext hpush => exact deriveFrom_of_word (NextWord.read_of_word hnext) hpush

/-- Reading comes to an end, and this decides what becomes of the text. -/
theorem exists_last (s : Progress g) :
    ∃ n s', s.after? n = some s' ∧ s'.next? = none ∧ s'.outcome = s.outcome := by
  induction hlength : s.cursor.rest.length using Nat.strong_induction_on generalizing s with
  | _ m ih =>
    cases hnext : s.next? with
    | none => exact ⟨0, s, rfl, hnext, rfl⟩
    | some s₁ =>
      have hstep := step_of_next? hnext
      obtain ⟨w, hne, hrest, -⟩ := hstep.advances
      have hpos := List.length_pos_iff.2 hne
      have hlt : s₁.cursor.rest.length < m := by
        rw [← hlength, hrest, List.length_append]
        omega
      obtain ⟨n, s', hafter, hnone, houtcome⟩ := ih _ hlt s₁ rfl
      refine ⟨n + 1, s', ?_, hnone, houtcome.trans hstep.outcome_eq.symm⟩
      rw [after?, hnext]
      exact hafter

/-- Reading has been where the last word starts, unless there is no word. -/
theorem last_eq_or_exists {n : Nat} (h : s.after? n = some s') :
    s'.last = s.last ∨ ∃ m s₁, s.after? m = some s₁ ∧ s₁.cursor.place = s'.last := by
  induction n generalizing s with
  | zero =>
    obtain rfl := Option.some.inj h
    exact .inl rfl
  | succ n ih =>
    obtain ⟨s₁, hnext, hafter⟩ := Option.bind_eq_some_iff.1 h
    rcases ih hafter with hlast | ⟨m, s₂, hafter₂, hplace⟩
    · cases step_of_next? hnext with
      | gap => exact .inl hlast
      | word => exact .inr ⟨0, s, rfl, hlast.symm⟩
    · refine .inr ⟨m + 1, s₂, ?_, hplace⟩
      rw [after?, hnext]
      exact hafter₂

/-- The pieces `ss` of the text have been read, their words lie on the stack, and there is a way on
from there. -/
structure Sound (source : List Char) (ss : List Segment) (s : Progress g) : Prop where
  valid : ∀ x ∈ ss, x.Valid
  rest : source = Segment.join ss ++ s.cursor.rest
  place : s.cursor.place = Position.origin.afterAll (Segment.join ss)
  words : s.stack.words = Segment.words .origin ss
  last : s.last = lastStart (Segment.words .origin ss)
  linked : Stack.Linked g s.stack.frames
  top : ∀ f ∈ s.stack.frames.head?, ∃ t, f.symbol = .token t

variable {source : List Char}

/-- In the beginning no piece has been read. -/
theorem sound_start (g : Goal) (source : List Char) : Sound source [] (start g source) :=
  ⟨by simp, rfl, rfl, rfl, rfl, trivial, by simp [start, Stack.empty]⟩

/-- One more piece is read soundly. -/
theorem Sound.step {ss : List Segment} (hs : Sound source ss s) (h : Step s s') :
    ∃ x, Sound source (ss ++ [x]) s' := by
  have hjoin : ∀ x : Segment, Segment.join (ss ++ [x]) = Segment.join ss ++ x.text := by
    intro x
    rw [Segment.join_append]
    congr 1
    exact List.append_nil _
  have hsplit : ∀ n, source =
      Segment.join ss ++ s.cursor.rest.take n ++ (s.cursor.advance n).rest := by
    intro n
    rw [List.append_assoc, Cursor.advance, List.take_append_drop]
    exact hs.rest
  have hplace : ∀ n, (s.cursor.advance n).place =
      Position.origin.afterAll (Segment.join ss ++ s.cursor.rest.take n) := by
    intro n
    rw [Position.afterAll_append, ← hs.place]
    rfl
  have hvalid : ∀ x : Segment, x.Valid → ∀ y ∈ ss ++ [x], y.Valid := by
    intro x hx
    exact List.forall_mem_append.2 ⟨hs.valid, by simpa using hx⟩
  cases h with
  | @gap n hnext =>
    obtain ⟨hle, c, hc, hlength⟩ := Piece.isGap_of_next? hnext
    have hgap : (Segment.gap (s.cursor.rest.take n)).Valid :=
      ⟨c, hc, by rw [hlength, List.length_take_of_le hle]⟩
    have hwords : Segment.words .origin (ss ++ [.gap (s.cursor.rest.take n)]) =
        Segment.words .origin ss := by
      rw [Segment.words_append]
      exact List.append_nil _
    refine ⟨_, hvalid _ hgap, ?_, ?_, ?_, ?_, hs.linked, hs.top⟩
    · rw [hjoin]
      exact hsplit n
    · rw [hjoin]
      exact hplace n
    · rw [hwords]
      exact hs.words
    · rw [hwords]
      exact hs.last
  | @word t n k hnext hpush =>
    have hmatches := (Piece.matches_of_next? hnext).2.1
    have hwords : Segment.words .origin (ss ++ [.word t (s.cursor.rest.take n)]) =
        Segment.words .origin ss ++ [(t, s.cursor.lexeme n)] := by
      rw [Segment.words_append, ← hs.place]
      rfl
    have hsettles := Stack.settles_settle s.stack (.word t)
    obtain ⟨q, -, hframes⟩ := Stack.push?_eq_some hpush
    refine ⟨_, hvalid (.word t (s.cursor.rest.take n)) hmatches, ?_, ?_, ?_, ?_,
      (hs.linked.settles hsettles).push? hpush, ?_⟩
    · rw [hjoin]
      exact hsplit n
    · rw [hjoin]
      exact hplace n
    · rw [hwords, Stack.words_push? hpush, Stack.words_settles hsettles, hs.words]
      rfl
    · rw [hwords, lastStart, List.getLast?_concat]
      rfl
    · rw [hframes]
      rintro f ⟨⟩
      exact ⟨t, rfl⟩

/-- All pieces are read soundly. -/
theorem Sound.after {ss : List Segment} (hs : Sound source ss s) {n : Nat}
    (h : s.after? n = some s') : ∃ ss', Sound source ss' s' := by
  induction n generalizing s ss with
  | zero =>
    obtain rfl := Option.some.inj h
    exact ⟨ss, hs⟩
  | succ n ih =>
    obtain ⟨s₁, hnext, hafter⟩ := Option.bind_eq_some_iff.1 h
    obtain ⟨x, hs₁⟩ := hs.step (step_of_next? hnext)
    exact ih hs₁ hafter

/-- What has been read is the text before the cursor. -/
theorem Sound.take_eq {ss : List Segment} (hs : Sound source ss s) :
    source.take s.cursor.place.offset = Segment.join ss := by
  have hoffset : s.cursor.place.offset = (Segment.join ss).length := by
    rw [hs.place, Position.offset_afterAll]
    exact Nat.zero_add _
  rw [hoffset, hs.rest, List.take_left]

/-- What has not been read is the text behind the cursor. -/
theorem Sound.drop_eq {ss : List Segment} (hs : Sound source ss s) :
    source.drop s.cursor.place.offset = s.cursor.rest := by
  have hsplit := List.take_append_drop s.cursor.place.offset source
  rw [hs.take_eq] at hsplit
  exact List.append_cancel_left (hsplit.trans hs.rest)

/-- Unless the text ends at the cursor, the cursor is within it. -/
theorem Sound.isIn {ss : List Segment} (hs : Sound source ss s) (hne : s.cursor.rest ≠ []) :
    s.cursor.place.IsIn source := by
  rw [hs.place, hs.rest]
  exact Position.isIn_afterAll _ hne

/-- What has been read can be continued. -/
theorem Sound.continues {ss : List Segment} (hs : Sound source ss s) {n : Nat}
    (h : (start g source).after? n = some s) :
    Continues g (Segment.join ss) (Segment.words .origin ss) := by
  obtain ⟨cs, hcs⟩ := exists_deriveFrom_eq_ok hs.linked hs.top
  obtain ⟨d, ws, hd, hwords, hsamples⟩ := hcs s.last s.cursor.place
  have hreplaceable : Replaceable s.cursor.rest ('\n' :: cs) :=
    ⟨.inr ⟨'\n', cs, rfl, .inl (by decide)⟩, fun _ => beginsBlank_of_head? (.inr rfl)⟩
  have hderive : derive g (Segment.join ss ++ '\n' :: cs) = .ok d :=
    (outcome_replaced h hs.rest hreplaceable).trans hd
  refine ⟨ss, '\n' :: cs, d, ws, rfl, hs.valid, rfl, hderive, ?_, fun x hx hinteger => ?_⟩
  · rw [hwords, hs.words]
  · rw [hsamples x hx, hinteger]
    rfl

/-- The text before the cursor can be continued. -/
theorem exists_continues_take {n : Nat} (h : (start g source).after? n = some s) :
    ∃ ws, Continues g (source.take s.cursor.place.offset) ws := by
  obtain ⟨ss, hs⟩ := (sound_start g source).after h
  have hcontinues := hs.continues h
  rw [← hs.take_eq] at hcontinues
  exact ⟨_, hcontinues⟩

/-- The text before the last word can be continued. -/
theorem exists_continues_last {n : Nat} (h : (start g source).after? n = some s) :
    ∃ ws, Continues g (source.take s.last.offset) ws := by
  rcases last_eq_or_exists h with hlast | ⟨m, s₁, h₁, hplace⟩
  · rw [hlast]
    exact exists_continues_take (s := start g source) (n := 0) rfl
  · rw [← hplace]
    exact exists_continues_take h₁

end Progress

end Source

/-- What is found when every word is looked for is not empty. -/
theorem Piece.anywhere?_pos {cs : List Char} {n : Nat} (h : anywhere? cs = some n) : 0 < n := by
  unfold anywhere? at h
  split at h
  · next m hm =>
    obtain rfl := Option.some.inj h
    obtain ⟨c, -, hc⟩ := List.exists_of_findSome?_eq_some hm
    exact WordClass.length?_pos hc
  · obtain ⟨x, hx, rfl⟩ := Option.map_eq_some_iff.1 h
    obtain ⟨t, -, ht⟩ := List.exists_of_findSome?_eq_some hx
    obtain ⟨w, -, hw⟩ := Option.bind_eq_some_iff.1 ht
    split at hw
    · next hprefix =>
      obtain rfl := Option.some.inj hw
      simp only [Bool.and_eq_true, decide_eq_true_eq] at hprefix
      exact hprefix.2
    · exact absurd hw (by simp)

namespace SyntaxError

open Source

/-- What an error says of a text: where a word or a character is refused, it stands at the place of
the error, and the text before can be continued; and where more should come, the error points at the
last word, all of the text can be continued, and so can what stands before the last word. -/
def Locates (g : Goal) (source : List Char) : SyntaxError → Prop
  | unexpectedWord w _ p =>
    p.IsIn source ∧ w ≠ [] ∧ w <+: source.drop p.offset ∧
      ∃ ws, Continues g (source.take p.offset) ws
  | unexpectedCharacter c _ p =>
    p.IsIn source ∧ source[p.offset]? = some c ∧ ∃ ws, Continues g (source.take p.offset) ws
  | unexpectedEnd _ p =>
    (p.IsIn source ∨ p = .origin) ∧ (∃ ws, Continues g (source.take p.offset) ws) ∧
      ∃ ws, Continues g source ws ∧ p = lastStart ws
  | invalidInteger _ => True

variable {g : Goal} {source : List Char}

/-- A word that is refused at the cursor. -/
theorem locates_unexpectedWord {s : Progress g} {ss : List Segment} (hs : s.Sound source ss)
    {k : Nat} (hafter : (Progress.start g source).after? k = some s) {n : Nat} (hpos : 0 < n)
    (hne : s.cursor.rest ≠ []) (expected : List Lookahead) :
    (unexpectedWord (s.cursor.rest.take n) expected s.cursor.place).Locates g source := by
  have htake : s.cursor.rest.take n ≠ [] := by
    intro hnil
    rcases List.take_eq_nil_iff.1 hnil with hzero | hrest
    · omega
    · exact hne hrest
  refine ⟨hs.isIn hne, htake, ?_, Progress.exists_continues_take hafter⟩
  rw [hs.drop_eq]
  exact List.take_prefix n _

/-- A character that is refused at the cursor. -/
theorem locates_unexpectedCharacter {s : Progress g} {ss : List Segment} (hs : s.Sound source ss)
    {k : Nat} (hafter : (Progress.start g source).after? k = some s) {c : Char} {cs : List Char}
    (hrest : s.cursor.rest = c :: cs) (expected : List Lookahead) :
    (unexpectedCharacter c expected s.cursor.place).Locates g source := by
  refine ⟨hs.isIn (by simp [hrest]), ?_, Progress.exists_continues_take hafter⟩
  rw [← List.head?_drop, hs.drop_eq, hrest, List.head?_cons]

/-- The end of the text, where more should come. -/
theorem locates_unexpectedEnd {s : Progress g} {ss : List Segment} (hs : s.Sound source ss)
    {k : Nat} (hafter : (Progress.start g source).after? k = some s) (hnil : s.cursor.rest = [])
    (expected : List Lookahead) : (unexpectedEnd expected s.last).Locates g source := by
  have hjoin : Segment.join ss = source := by rw [hs.rest, hnil, List.append_nil]
  have hcontinues := hs.continues hafter
  have hlast := lastStart_isIn hs.valid
  rw [← hs.last, hjoin] at hlast
  rw [hjoin] at hcontinues
  exact ⟨hlast, Progress.exists_continues_last hafter, _, hcontinues, hs.last⟩

/-- The error with which reading ends, which is that of the text, says what it should. -/
theorem locates_of_outcome {s : Progress g} {ss : List Segment} (hs : s.Sound source ss) {n : Nat}
    (hafter : (Progress.start g source).after? n = some s) (hnone : s.next? = none)
    {e : SyntaxError} (he : s.outcome = .error e) : e.Locates g source := by
  unfold Progress.outcome at he
  unfold Progress.next? at hnone
  split at hnone
  · exact absurd hnone (by simp)
  · next t n hnext =>
    -- a word that cannot come next
    rw [Option.map_eq_none_iff] at hnone
    rw [deriveFrom_eq, NextWord.read_of_word hnext] at he
    dsimp only at he
    rw [hnone] at he
    obtain rfl := Except.error.inj he
    have hne : s.cursor.rest ≠ [] := by
      have hle := (Piece.matches_of_next? hnext).1
      exact List.ne_nil_of_length_pos ((Piece.length_pos_of_next? hnext).trans_le hle)
    exact locates_unexpectedWord hs hafter (Piece.length_pos_of_next? hnext) hne _
  · next hnext =>
    by_cases hne : s.cursor.rest = []
    · -- the end of the text
      rw [deriveFrom_eq, NextWord.read_of_nil hne] at he
      dsimp only at he
      split at he
      · exact absurd he (by simp)
      · obtain rfl := Except.error.inj he
        exact locates_unexpectedEnd hs hafter hne _
    · -- something that no state looks for, or not this one
      rw [deriveFrom_eq, NextWord.read_of_next?_eq_none hne hnext] at he
      obtain rfl := Except.error.inj he
      unfold stuckError
      cases hanywhere : Piece.anywhere? s.cursor.rest with
      | some n => exact locates_unexpectedWord hs hafter (Piece.anywhere?_pos hanywhere) hne _
      | none =>
        obtain ⟨c, cs, hcs⟩ := List.exists_cons_of_ne_nil hne
        rw [hcs]
        exact locates_unexpectedCharacter hs hafter hcs _

/-- The error with which a text is refused says what it should. -/
theorem locates_of_derive {e : SyntaxError} (he : derive g source = .error e) :
    e.Locates g source := by
  obtain ⟨n, s, hafter, hnone, houtcome⟩ := (Progress.start g source).exists_last
  obtain ⟨ss, hs⟩ := (Progress.sound_start g source).after hafter
  exact locates_of_outcome hs hafter hnone (houtcome.trans he)

/-- A text is refused because it is not derived, or because of an integer literal. -/
theorem derive_or_invalidInteger_of_evaluate {e : SyntaxError}
    (he : (derive g source).bind (·.evaluate source) = .error e) :
    derive g source = .error e ∨ ∃ s, e = .invalidInteger s := by
  cases hderive : derive g source with
  | error e' =>
    rw [hderive] at he
    obtain rfl := Except.error.inj he
    exact .inl rfl
  | ok d =>
    rw [hderive] at he
    have hevaluate : d.evaluate source = .error e := he
    unfold Derivation.evaluate at hevaluate
    split at hevaluate
    · exact .inr ⟨_, (Except.error.inj hevaluate).symm⟩
    · exact absurd hevaluate (by simp)

/-- A text that is no type is refused when it is derived and evaluated. -/
theorem evaluate_of_parseType {text : String} {e : SyntaxError}
    (he : TypeExpr.parse text = .error e) :
    (derive .typeText text.toList).bind (·.evaluate text.toList) = .error e := by
  unfold TypeExpr.parse at he
  cases hparse : AnnotatedType.parse text with
  | error e' =>
    rw [hparse] at he
    obtain rfl := Except.error.inj he
    exact hparse
  | ok a =>
    rw [hparse] at he
    exact absurd he (by simp [Except.map])

/-- The error with which a text is refused, if it is derived or not, says what it should. -/
theorem locates_of_evaluate {e : SyntaxError}
    (he : (derive g source).bind (·.evaluate source) = .error e) : e.Locates g source := by
  rcases derive_or_invalidInteger_of_evaluate he with hderive | ⟨s, rfl⟩
  · exact locates_of_derive hderive
  · trivial

/-- An error of a text that is no program, or no type, points at the first wrong place. -/
theorem locates_of_parse {text : String} {e : SyntaxError} :
    (Program.parse text = .error e → e.Locates .program text.toList) ∧
      (TypeExpr.parse text = .error e → e.Locates .typeText text.toList) := by
  constructor
  · exact locates_of_evaluate
  · intro he
    exact locates_of_evaluate (g := .typeText) (evaluate_of_parseType he)

/-- A word and a character that are refused, and a text that ends too early. -/
theorem locates_of_parse_refused :
    (∃ e, Program.parse "import /* a */\n ) fun" = .error e ∧
      e.place? = some ⟨16, 2, 1⟩ ∧ e.Locates .program "import /* a */\n ) fun".toList) ∧
    (∃ e, Program.parse "fun f(a: Int$)" = .error e ∧
      e.place? = some ⟨12, 1, 12⟩ ∧ e.Locates .program "fun f(a: Int$)".toList) ∧
    ∃ e, TypeExpr.parse "[Int; 09 // ]" = .error e ∧
      e.place? = some ⟨6, 1, 6⟩ ∧ e.Locates .typeText "[Int; 09 // ]".toList := by
  have hplace : ∀ {α : Type} {r : Except SyntaxError α} {p : Position},
      (match r with
      | .ok _ => none
      | .error e => e.place?) = some p → ∃ e, r = .error e ∧ e.place? = some p := by
    intro α r p h
    cases r with
    | ok a => exact absurd h (by simp)
    | error e => exact ⟨e, rfl, h⟩
  refine ⟨?_, ?_, ?_⟩
  · obtain ⟨e, he, hp⟩ := hplace (r := Program.parse "import /* a */\n ) fun")
      (p := ⟨16, 2, 1⟩) (by decide +kernel)
    exact ⟨e, he, hp, locates_of_parse.1 he⟩
  · obtain ⟨e, he, hp⟩ := hplace (r := Program.parse "fun f(a: Int$)")
      (p := ⟨12, 1, 12⟩) (by decide +kernel)
    exact ⟨e, he, hp, locates_of_parse.1 he⟩
  · obtain ⟨e, he, hp⟩ := hplace (r := TypeExpr.parse "[Int; 09 // ]")
      (p := ⟨6, 1, 6⟩) (by decide +kernel)
    exact ⟨e, he, hp, locates_of_parse.2 he⟩

end SyntaxError

end CadenceEntry
