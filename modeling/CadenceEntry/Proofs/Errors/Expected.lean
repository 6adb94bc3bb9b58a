import CadenceEntry.Proofs.Errors.Coming

/-!
# What an error says was expected

An error lists what the state admits in which a word, a character or the end of the text is refused.
All that leads on from this state can come. A lookahead can also be listed because it completes a
production, and the lookaheads of a production are merged from all places where the state can be
reached; such a one can come if the stack takes it, and otherwise not.
-/

set_option autoImplicit false

namespace CadenceEntry

open Grammar
open Source (CanCome Progress)

namespace SyntaxError

/-- What could have come instead, as an error says. -/
def expected : SyntaxError → List Lookahead
  | unexpectedWord _ as _ | unexpectedCharacter _ as _ | unexpectedEnd as _ => as
  | invalidInteger _ => []

/-- The text before the place of an error; all of it, if more should come. -/
def before (source : List Char) : SyntaxError → List Char
  | unexpectedWord _ _ p | unexpectedCharacter _ _ p => source.take p.offset
  | unexpectedEnd _ _ | invalidInteger _ => source

end SyntaxError

namespace Source.Progress

variable {g : Goal} {s s' : Progress g}

/-- Reading that begins with `s` comes to its end with `s'`. -/
def StopsAt (s s' : Progress g) : Prop := ∃ n, s.after? n = some s' ∧ s'.next? = none

/-- What becomes of the text is decided where reading stops. -/
theorem StopsAt.outcome_eq (h : s.StopsAt s') : s'.outcome = s.outcome := by
  obtain ⟨n, hafter, -⟩ := h
  induction n generalizing s with
  | zero =>
    obtain rfl := Option.some.inj hafter
    rfl
  | succ n ih =>
    obtain ⟨s₁, hnext, hafter⟩ := Option.bind_eq_some_iff.1 hafter
    rw [ih hafter, (step_of_next? hnext).outcome_eq]

/-- What lies on the stack when the next word or the end of the text is refused. If nothing is found
that the state looks for, nothing has been put together for it. -/
def refused (s : Progress g) : Stack g :=
  match NextWord.read s.stack.state s.cursor with
  | .word t _ _ => s.stack.settle (.word t)
  | .finish => s.stack.settle .finish
  | .stuck _ => s.stack

/-- What is put together before something is refused was on the stack. -/
theorem exists_settles_refused (s : Progress g) : ∃ b, Stack.Settles b s.stack s.refused := by
  unfold refused
  split
  · next t _ _ _ => exact ⟨.word t, Stack.settles_settle _ _⟩
  · exact ⟨.finish, Stack.settles_settle _ _⟩
  · exact ⟨.finish, .refl⟩

/-- The state in which something is refused admits what the error lists, and the error tells how far
the text has been read. -/
theorem StopsAt.admits {source : List Char} (hstops : (start g source).StopsAt s)
    {e : SyntaxError} (he : derive g source = .error e) :
    (∀ a ∈ e.expected, s.refused.state.admits a = true) ∧
      e.before source = source.take s.cursor.place.offset := by
  have houtcome : s.outcome = .error e := hstops.outcome_eq.trans he
  obtain ⟨n, hafter, hnone⟩ := hstops
  have hlookaheads : ∀ (q : State), ∀ a ∈ q.lookaheads, q.admits a = true :=
    fun q a ha => (List.mem_filter.1 ha).2
  unfold outcome at houtcome
  unfold next? at hnone
  unfold refused
  split at hnone
  · exact absurd hnone (by simp)
  · next t n hnext =>
    -- a word that cannot come next
    rw [Option.map_eq_none_iff] at hnone
    rw [deriveFrom_eq, NextWord.read_of_word hnext] at houtcome
    rw [NextWord.read_of_word hnext]
    dsimp only at houtcome ⊢
    rw [hnone] at houtcome
    obtain rfl := Except.error.inj houtcome
    exact ⟨hlookaheads _, rfl⟩
  · next hnext =>
    by_cases hrest : s.cursor.rest = []
    · -- the end of the text
      rw [deriveFrom_eq, NextWord.read_of_nil hrest] at houtcome
      rw [NextWord.read_of_nil hrest]
      dsimp only at houtcome ⊢
      split at houtcome
      · exact absurd houtcome (by simp)
      · obtain rfl := Except.error.inj houtcome
        obtain ⟨ss, hs⟩ := (sound_start g source).after hafter
        have hsource : source = Segment.join ss := by
          rw [hs.rest, hrest, List.append_nil]
        exact ⟨hlookaheads _, by rw [hs.take_eq]; exact hsource⟩
    · -- something that the state does not look for
      rw [deriveFrom_eq, NextWord.read_of_next?_eq_none hrest hnext] at houtcome
      rw [NextWord.read_of_next?_eq_none hrest hnext]
      dsimp only at houtcome ⊢
      have hsought : ∀ a ∈ s.stack.state.sought, s.stack.state.admits a = true :=
        fun a ha => hlookaheads _ a (List.mem_filter.1 ha).1
      obtain rfl := Except.error.inj houtcome
      unfold stuckError
      split
      · exact ⟨hsought, rfl⟩
      · exact ⟨hsought, rfl⟩

end Source.Progress

namespace SyntaxError

variable {g : Goal} {source : List Char} {e : SyntaxError}

/-- What an error lists because the state admits it where something is refused: it can come exactly
if the stack behind the text before the error takes it, and so it can if it leads on from there. -/
structure Lists (g : Goal) (source : List Char) (e : SyntaxError) (s : Progress g) (a : Lookahead) :
    Prop where
  admits : s.refused.state.admits a = true
  canCome_iff : CanCome g (e.before source) a ↔ s.stack.Takes a
  canCome_of_ready : s.refused.Ready a → CanCome g (e.before source) a

/-- What the error with which a text is refused says was expected. -/
theorem lists_of_stopsAt (he : Source.derive g source = .error e) {s : Progress g}
    (hstops : (Progress.start g source).StopsAt s) {a : Lookahead} (ha : a ∈ e.expected) :
    e.Lists g source s a := by
  obtain ⟨hadmits, hbefore⟩ := hstops.admits he
  obtain ⟨n, hafter, -⟩ := hstops
  obtain ⟨ss, hs⟩ := (Progress.sound_start g source).after hafter
  have hiff : CanCome g (e.before source) a ↔ s.stack.Takes a := by
    rw [hbefore]
    exact Progress.canCome_iff_takes hafter
  refine ⟨hadmits a ha, hiff, fun hready => hiff.2 ?_⟩
  obtain ⟨b, hsettles⟩ := s.exists_settles_refused
  have htakes : s.refused.Takes a := Stack.takes_of_ready (hs.linked.settles hsettles) .refl hready
  exact Stack.takes_of_settles hs.linked hsettles htakes

/-- A text that is derived and refused all the same is refused without a list. -/
theorem lists_of_evaluate
    (he : (Source.derive g source).bind (·.evaluate source) = .error e) :
    ∃ s, (Progress.start g source).StopsAt s ∧ ∀ a ∈ e.expected, e.Lists g source s a := by
  obtain ⟨n, s, hafter, hnone, -⟩ := (Progress.start g source).exists_last
  refine ⟨s, ⟨n, hafter, hnone⟩, fun a ha => ?_⟩
  rcases derive_or_invalidInteger_of_evaluate he with hderive | ⟨literal, rfl⟩
  · exact lists_of_stopsAt hderive ⟨n, hafter, hnone⟩ ha
  · exact absurd ha (by simp [expected])

/-- What the errors of texts that are no program, or no type, say was expected. -/
theorem lists_of_parse {text : String} {e : SyntaxError} :
    (Program.parse text = .error e →
      ∃ s, (Progress.start .program text.toList).StopsAt s ∧
        ∀ a ∈ e.expected, e.Lists .program text.toList s a) ∧
    (TypeExpr.parse text = .error e →
      ∃ s, (Progress.start .typeText text.toList).StopsAt s ∧
        ∀ a ∈ e.expected, e.Lists .typeText text.toList s a) := by
  constructor
  · exact lists_of_evaluate
  · intro he
    exact lists_of_evaluate (g := .typeText) (evaluate_of_parseType he)

/-- The error of a text, if it has one and this lists the lookahead. -/
def listing? {α : Type} (r : Except SyntaxError α) (a : Lookahead) : Option SyntaxError :=
  match r with
  | .ok _ => none
  | .error e => if a ∈ e.expected then some e else none

/-- An error that lists the lookahead is an error of the text. -/
theorem eq_error_of_listing? {α : Type} {r : Except SyntaxError α} {a : Lookahead}
    (h : (listing? r a).isSome = true) : ∃ e, r = .error e ∧ a ∈ e.expected := by
  unfold listing? at h
  split at h
  · exact absurd h (by simp)
  · next e =>
    split at h
    · next ha => exact ⟨e, rfl, ha⟩
    · exact absurd h (by simp)

/-- A name is expected behind `import`, and `]` can come where the element type of an array ends. -/
theorem lists_of_parse_refused :
    (∃ e, Program.parse "import )" = .error e ∧ .word .name ∈ e.expected ∧
      ∃ s, (Progress.start .program "import )".toList).StopsAt s ∧
        ∀ a ∈ e.expected, e.Lists .program "import )".toList s a) ∧
    ∃ e, TypeExpr.parse "[A $" = .error e ∧ .word .rightBracket ∈ e.expected ∧
      ∃ s, (Progress.start .typeText "[A $".toList).StopsAt s ∧
        ∀ a ∈ e.expected, e.Lists .typeText "[A $".toList s a := by
  constructor
  · obtain ⟨e, he, ha⟩ := eq_error_of_listing? (r := Program.parse "import )")
      (a := .word .name) (by decide +kernel)
    exact ⟨e, he, ha, lists_of_parse.1 he⟩
  · obtain ⟨e, he, ha⟩ := eq_error_of_listing? (r := TypeExpr.parse "[A $")
      (a := .word .rightBracket) (by decide +kernel)
    exact ⟨e, he, ha, lists_of_parse.2 he⟩

/-- Behind `[A` the error lists the closing parenthesis, with which other types go on. It cannot
come there. -/
theorem not_canCome_of_expected :
    ∃ e, TypeExpr.parse "[A $" = .error e ∧ .word .rightParen ∈ e.expected ∧
      ¬ CanCome .typeText (e.before "[A $".toList) (.word .rightParen) := by
  obtain ⟨e, he, ha⟩ := eq_error_of_listing? (r := TypeExpr.parse "[A $")
    (a := .word .rightParen) (by decide +kernel)
  refine ⟨e, he, ha, ?_⟩
  have hderive : Source.derive .typeText "[A $".toList = .error e := by
    rcases derive_or_invalidInteger_of_evaluate (evaluate_of_parseType he) with h | ⟨s, rfl⟩
    · exact h
    · exact absurd ha (by simp [expected])
  -- the two words and the white space are read, and then the stack does not take it
  have hread : (((Progress.start .typeText "[A $".toList).after? 3).map fun s =>
      (s.next?.isNone, decide (s.stack.Takes (.word .rightParen)))) = some (true, false) := by
    decide +kernel
  obtain ⟨s, hafter, hs⟩ := Option.map_eq_some_iff.1 hread
  obtain ⟨hnone, htakes⟩ := Prod.mk.inj hs
  have hstops : (Progress.start .typeText "[A $".toList).StopsAt s :=
    ⟨3, hafter, Option.isNone_iff_eq_none.1 hnone⟩
  intro hcome
  have htakes' := (lists_of_stopsAt hderive hstops ha).canCome_iff.1 hcome
  exact absurd htakes' (of_decide_eq_false htakes)

end SyntaxError

end CadenceEntry
