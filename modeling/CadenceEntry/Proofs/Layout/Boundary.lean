import CadenceEntry.Proofs.Source.Replacing
import CadenceEntry.Proofs.Source.Shifting
import CadenceEntry.Proofs.Syntax.Places

/-!
# Where pieces of a text end

A text is read piece by piece: words, white space and comments. `Progress.next?` reads one piece,
and `IsBoundary` says that a text can be divided where a piece ends, or where the first one begins.
What has been read up to there does not depend on the text behind it, as long as the two do not run
into each other: `Progress.outcome_replaced`.
-/

set_option autoImplicit false

namespace CadenceEntry

open Grammar

namespace Source

/-- How far a text has been read: what has been put together, the place of the last word, and the
rest of the text. -/
structure Progress (g : Goal) where
  stack : Stack g
  last : Position
  cursor : Cursor

namespace Progress

variable {g : Goal}

/-- Nothing has been read yet. -/
def start (g : Goal) (cs : List Char) : Progress g := ⟨Stack.empty g, .origin, .ofText cs⟩

/-- Reads one more piece. There is none at the end of the text, and none where the text is refused
because of a character or a word that cannot come next. -/
def next? (s : Progress g) : Option (Progress g) :=
  match Piece.next? s.stack.state s.cursor.rest with
  | some (.gap n) => some ⟨s.stack, s.last, s.cursor.advance n⟩
  | some (.word t n) =>
    ((s.stack.settle (.word t)).push? (.leaf t (s.cursor.lexeme n))).map fun k =>
      ⟨k, s.cursor.place, s.cursor.advance n⟩
  | none => none

/-- Reads `n` more pieces. -/
def after? : Nat → Progress g → Option (Progress g)
  | 0, s => some s
  | n + 1, s => s.next?.bind (after? n)

/-- What becomes of the text in the end. -/
def outcome (s : Progress g) : Except SyntaxError (Derivation (.phrase g.phrase)) :=
  deriveFrom s.stack s.last s.cursor

/-- The same with another text that is still to be read. -/
def withRest (s : Progress g) (cs : List Char) : Progress g :=
  ⟨s.stack, s.last, ⟨s.cursor.place, cs⟩⟩

/-- A piece is white space or a comment, or it is a word that can come next. -/
inductive Step (s : Progress g) : Progress g → Prop
  | gap {n : Nat} (hnext : Piece.next? s.stack.state s.cursor.rest = some (.gap n)) :
      Step s ⟨s.stack, s.last, s.cursor.advance n⟩
  | word {t : Terminal} {n : Nat} {k : Stack g}
      (hnext : Piece.next? s.stack.state s.cursor.rest = some (.word t n))
      (hpush : (s.stack.settle (.word t)).push? (.leaf t (s.cursor.lexeme n)) = some k) :
      Step s ⟨k, s.cursor.place, s.cursor.advance n⟩

/-- Reading one more piece is a step. -/
theorem step_of_next? {s s' : Progress g} (h : s.next? = some s') : Step s s' := by
  unfold next? at h
  split at h
  · next n hnext =>
    obtain rfl := Option.some.inj h
    exact .gap hnext
  · next t n hnext =>
    obtain ⟨k, hpush, rfl⟩ := Option.map_eq_some_iff.1 h
    exact .word hnext hpush
  · exact absurd h (by simp)

/-- A piece is a part of the text that is not empty. -/
theorem Step.advances {s s' : Progress g} (h : Step s s') :
    ∃ w, w ≠ [] ∧ s.cursor.rest = w ++ s'.cursor.rest ∧
      s'.cursor.place = s.cursor.place.afterAll w := by
  have hpart : ∀ n, 0 < n → n ≤ s.cursor.rest.length →
      ∃ w, w ≠ [] ∧ s.cursor.rest = w ++ (s.cursor.advance n).rest ∧
        (s.cursor.advance n).place = s.cursor.place.afterAll w := by
    intro n hpos hn
    refine ⟨s.cursor.rest.take n, ?_, (List.take_append_drop n s.cursor.rest).symm, rfl⟩
    intro hnil
    have hlength := List.length_take_of_le hn
    rw [hnil, List.length_nil] at hlength
    omega
  cases h with
  | gap hnext =>
    exact hpart _ (Piece.length_pos_of_next? hnext) (Piece.isGap_of_next? hnext).1
  | word hnext _ =>
    exact hpart _ (Piece.length_pos_of_next? hnext) (Piece.matches_of_next? hnext).1

/-- A piece is also read if the text behind it is another one. -/
theorem Step.outcome_replaced {s s' : Progress g} (h : Step s s') {w y old new : List Char}
    (hw : s.cursor.rest = w ++ (y ++ old)) (hrest : s'.cursor.rest = y ++ old)
    (hnew : Replaceable old new) :
    (s.withRest (w ++ (y ++ new))).outcome = (s'.withRest (y ++ new)).outcome := by
  -- the piece is what the rest of the text lacks
  have hpiece : ∀ n, n ≤ s.cursor.rest.length → (s.cursor.advance n).rest = y ++ old →
      w = s.cursor.rest.take n ∧ n = w.length := by
    intro n hn hdrop
    have hsplit : s.cursor.rest.take n ++ (y ++ old) = w ++ (y ++ old) := by
      rw [← hw, ← hdrop, Cursor.advance, List.take_append_drop]
    have hpart := (List.append_cancel_right hsplit).symm
    exact ⟨hpart, by rw [hpart, List.length_take_of_le hn]⟩
  cases h with
  | @gap n hnext =>
    obtain ⟨htake, rfl⟩ := hpiece n (Piece.isGap_of_next? hnext).1 hrest
    refine deriveFrom_congr ?_
    show NextWord.read s.stack.state ⟨s.cursor.place, w ++ (y ++ new)⟩ = NextWord.read s.stack.state
      ⟨s.cursor.place.afterAll (s.cursor.rest.take w.length), y ++ new⟩
    rw [← htake]
    rw [hw] at hnext
    refine NextWord.read_of_gap_append hnext fun hend => ?_
    cases y with
    | nil => exact hnew.line hend
    | cons x y =>
      refine beginsBlank_of_head? (.inr ?_)
      rcases hend with hend | hend
      · exact absurd hend (by simp)
      · exact hend
  | @word t n k hnext hpush =>
    obtain ⟨htake, rfl⟩ := hpiece n (Piece.matches_of_next? hnext).1 hrest
    rw [hw, ← List.append_assoc] at hnext
    have hnext' := Piece.next?_of_replaceable hnext (by simp) hnew
    rw [List.append_assoc] at hnext'
    have hread : NextWord.read s.stack.state ⟨s.cursor.place, w ++ (y ++ new)⟩ =
        .word t (s.cursor.lexeme w.length) ⟨s.cursor.place.afterAll w, y ++ new⟩ := by
      rw [NextWord.read_of_word (c := ⟨s.cursor.place, w ++ (y ++ new)⟩) hnext', Cursor.lexeme,
        Cursor.lexeme, Cursor.advance, List.take_left, List.drop_left, ← htake]
    show deriveFrom s.stack s.last ⟨s.cursor.place, w ++ (y ++ new)⟩ =
      deriveFrom k s.cursor.place ⟨s.cursor.place.afterAll (s.cursor.rest.take w.length), y ++ new⟩
    rw [deriveFrom_of_word hread hpush, ← htake]
    rfl

/-- What has been read is a part of the text. -/
theorem exists_rest {s s' : Progress g} {n : Nat} (h : s.after? n = some s') :
    ∃ y, s.cursor.rest = y ++ s'.cursor.rest ∧ s'.cursor.place = s.cursor.place.afterAll y := by
  induction n generalizing s with
  | zero =>
    obtain rfl := Option.some.inj h
    exact ⟨[], rfl, rfl⟩
  | succ n ih =>
    obtain ⟨s₁, hnext, hafter⟩ := Option.bind_eq_some_iff.1 h
    obtain ⟨y, hrest, hplace⟩ := ih hafter
    obtain ⟨w, -, hw, hplace'⟩ := (step_of_next? hnext).advances
    refine ⟨w ++ y, ?_, ?_⟩
    · rw [hw, hrest, List.append_assoc]
    · rw [hplace, hplace', Position.afterAll_append]

/-- What has been read does not depend on the text behind it, if this does not run into it. -/
theorem outcome_replaced {s s' : Progress g} {n : Nat} (h : s.after? n = some s')
    {y new : List Char} (hy : s.cursor.rest = y ++ s'.cursor.rest)
    (hnew : Replaceable s'.cursor.rest new) :
    (s.withRest (y ++ new)).outcome = (s'.withRest new).outcome := by
  induction n generalizing s y with
  | zero =>
    obtain rfl := Option.some.inj h
    obtain rfl : y = [] := by simpa using hy
    rfl
  | succ n ih =>
    obtain ⟨s₁, hnext, hafter⟩ := Option.bind_eq_some_iff.1 h
    have hstep := step_of_next? hnext
    obtain ⟨y₁, hrest, -⟩ := exists_rest hafter
    obtain ⟨w, -, hw, -⟩ := hstep.advances
    rw [hrest] at hw
    obtain rfl : y = w ++ y₁ := by
      rw [hy, ← List.append_assoc] at hw
      exact List.append_cancel_right hw
    rw [List.append_assoc, hstep.outcome_replaced hw hrest hnew]
    exact ih hafter hrest

/-- Reading ends with the text or where the text is refused. -/
theorem rest_or_error_of_next? {s : Progress g} (h : s.next? = none) :
    s.cursor.rest = [] ∨ ∃ e, s.outcome = .error e ∧ e.place? = some s.cursor.place := by
  unfold outcome
  unfold next? at h
  split at h
  · exact absurd h (by simp)
  · next t n hnext =>
    rw [Option.map_eq_none_iff] at h
    have hread := NextWord.read_of_word hnext
    refine .inr ?_
    rw [deriveFrom_eq, hread]
    dsimp only
    rw [h]
    exact ⟨_, rfl, rfl⟩
  · next hnext =>
    by_cases hrest : s.cursor.rest = []
    · exact .inl hrest
    · refine .inr ?_
      rw [deriveFrom_eq, NextWord.read_of_next?_eq_none hrest hnext]
      refine ⟨_, rfl, ?_⟩
      unfold stuckError
      split <;> rfl

/-! ## What stays where it is -/

variable {a b : Position}

/-- Words before the text that is moved stay where they are. -/
theorem Step.fixed {s s' : Progress g} (h : Step s s')
    (hstack : Stack.Related (.moved (Position.movedFrom a b)) s.stack s.stack)
    (ha : s'.cursor.place.offset ≤ a.offset) :
    Stack.Related (.moved (Position.movedFrom a b)) s'.stack s'.stack := by
  cases h with
  | gap hnext => exact hstack
  | @word t n k hnext hpush =>
    have hlt : (s.cursor.lexeme n).stop.offset < a.offset := by
      have hpos : 0 < n := Piece.length_pos_of_next? hnext
      have hlength := List.length_take_of_le (Piece.matches_of_next? hnext).1
      have ha' : (s.cursor.place.afterAll (s.cursor.rest.take n)).offset ≤ a.offset := ha
      rw [Position.offset_afterAll, hlength] at ha'
      show (s.cursor.place.afterAll (s.cursor.rest.take n).dropLast).offset < a.offset
      rw [Position.offset_afterAll, List.length_dropLast, hlength]
      omega
    have hleaf : (Congruence.moved (Position.movedFrom a b)).rel (.leaf t (s.cursor.lexeme n))
        (.leaf t (s.cursor.lexeme n)) := ⟨_, rfl, Lexeme.moved_of_lt hlt⟩
    have hrel := (hstack.settle (.word t)).push? hleaf
    rw [hpush] at hrel
    cases hrel with
    | some hk => exact hk

/-- Reading goes forward in the text. -/
theorem offset_le {s s' : Progress g} {n : Nat} (h : s.after? n = some s') :
    s.cursor.place.offset ≤ s'.cursor.place.offset := by
  obtain ⟨y, -, hplace⟩ := exists_rest h
  rw [hplace]
  exact (Position.reaches_afterAll _ y).offset

/-- What has been put together of the text before `a` stays where it is. -/
theorem fixed {s s' : Progress g} {n : Nat} (h : s.after? n = some s')
    (hstack : Stack.Related (.moved (Position.movedFrom a b)) s.stack s.stack)
    (ha : s'.cursor.place.offset ≤ a.offset) :
    Stack.Related (.moved (Position.movedFrom a b)) s'.stack s'.stack := by
  induction n generalizing s with
  | zero =>
    obtain rfl := Option.some.inj h
    exact hstack
  | succ n ih =>
    obtain ⟨s₁, hnext, hafter⟩ := Option.bind_eq_some_iff.1 h
    have hle := offset_le hafter
    exact ih hafter ((step_of_next? hnext).fixed hstack (by omega))

/-- A word comes first, and the last word is before the end of what has been read, or only white
space and comments have been read. -/
theorem last_or_read {s s' : Progress g} {n : Nat} (h : s.after? n = some s') :
    NextWord.read s.stack.state s.cursor ≠ .finish ∧ s'.last.offset < s'.cursor.place.offset ∨
      s'.last = s.last ∧ s'.stack = s.stack ∧
        NextWord.read s.stack.state s.cursor = NextWord.read s.stack.state s'.cursor := by
  induction n generalizing s with
  | zero =>
    obtain rfl := Option.some.inj h
    exact .inr ⟨rfl, rfl, rfl⟩
  | succ n ih =>
    obtain ⟨s₁, hnext, hafter⟩ := Option.bind_eq_some_iff.1 h
    have hle := offset_le hafter
    have hstep := step_of_next? hnext
    obtain ⟨w, hne, -, hplace⟩ := hstep.advances
    have hpos := List.length_pos_iff.2 hne
    cases hstep with
    | gap hgap =>
      rw [NextWord.read_of_gap hgap]
      exact ih hafter
    | word hword =>
      refine .inl ⟨by rw [NextWord.read_of_word hword]; simp, ?_⟩
      rcases ih hafter with ⟨-, hlt⟩ | ⟨hlast, -⟩
      · exact hlt
      · have hlast' : s'.last = s.cursor.place := hlast
        rw [hplace, Position.offset_afterAll] at hle
        rw [hlast']
        omega

end Progress

/-- The text is divided where a piece of it ends or where the first one begins. The pieces are those
that are found before the end of the text or before the place where it is refused. -/
def IsBoundary (g : Goal) (pre post : List Char) : Prop :=
  ∃ n, ((Progress.start g (pre ++ post)).after? n).map (·.cursor.rest) = some post

/-- The text has no words, only white space and comments. -/
def IsWordless (g : Goal) (cs : List Char) : Prop := NextWord.read g.start (.ofText cs) = .finish

instance (g : Goal) (cs : List Char) : Decidable (IsWordless g cs) :=
  match h : NextWord.read g.start (.ofText cs) with
  | .finish => .isTrue h
  | .word _ _ _ | .stuck _ => .isFalse fun h' => NextWord.noConfusion (h.symm.trans h')

end Source

end CadenceEntry
