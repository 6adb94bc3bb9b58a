import CadenceEntry.Proofs.Body.Nesting

/-!
# The extent of a body

A body is read as far as the scan of its text goes. `Ends` says what becomes of reading on within a
body when the scan of the rest of the text has a given outcome; each piece of text that is read adds
its length to the outcome.
-/

set_option autoImplicit false

namespace CadenceEntry.Source

open Grammar Grammar.Stack

variable {g : Goal} {k₀ k₁ : Stack g} {w : Lexeme}

/-- A cursor advances by as many characters as it passes. -/
theorem offset_advance {c : Cursor} {n : Nat} (hn : n ≤ c.rest.length) :
    (c.advance n).place.offset = c.place.offset + n := by
  rw [Cursor.advance, Position.offset_afterAll, List.length_take_of_le hn]

/-- What becomes of reading on within the body that begins with the brace `w` on the stack `k₁`:
without an end the text is refused, otherwise the body has been put on the stack `n` characters
further on. -/
def Ends (k₁ : Stack g) (w : Lexeme) (k : Stack g) (last : Position) (c : Cursor) :
    Option Nat → Prop
  | none => ∃ e, deriveFrom k last c = .error e
  | some n => ∃ (w' : Lexeme) (k' : Stack g), Closed k₁ w w' k' ∧ n ≤ c.rest.length ∧
      w'.stop.offset + 1 = c.place.offset + n ∧
      deriveFrom k last c = deriveFrom k' w'.start (c.advance n)

/-- What is read before adds its length. -/
theorem Ends.of_advance {k k' : Stack g} {last last' : Position} {c : Cursor} {n : Nat}
    {o : Option Nat} (hn : n ≤ c.rest.length)
    (hrun : deriveFrom k last c = deriveFrom k' last' (c.advance n))
    (h : Ends k₁ w k' last' (c.advance n) o) : Ends k₁ w k last c (o.map (· + n)) := by
  cases o with
  | none =>
    obtain ⟨e, he⟩ := h
    exact ⟨e, hrun.trans he⟩
  | some m =>
    obtain ⟨w', k'', hclosed, hm, hstop, hend⟩ := h
    have hlength : (c.advance n).rest.length = c.rest.length - n := List.length_drop
    rw [offset_advance hn, Nat.add_assoc, Nat.add_comm n m] at hstop
    rw [Cursor.advance_advance, Nat.add_comm n m] at hend
    refine ⟨w', k'', hclosed, ?_, hstop, hrun.trans hend⟩
    show m + n ≤ c.rest.length
    omega

/-- A body is read as far as the scan of its text goes, within `n` braces that are open. -/
theorem ends_scanBody (hk₀ : k₀.state = 179) (hopen : k₁.push? (.leaf .leftBrace w) = some k₀)
    {n : Nat} {k : Stack g} (hk : Pending k₀ n k) (last : Position) (c : Cursor) :
    Ends k₁ w k last c (scanBody .code (n + 1) c.rest) := by
  -- by induction on the length of the text: each piece leaves a shorter one
  induction hlength : c.rest.length using Nat.strong_induction_on generalizing n k last c with
  | _ length ih =>
    cases hrest : c.rest with
    | nil =>
      have hread : NextWord.read k.state c = .finish := NextWord.read_of_nil hrest
      have hrun := deriveFrom_eq k last c
      rw [hread] at hrun
      simp only [hk.result?_settle] at hrun
      exact ⟨_, hrun⟩
    | cons x cs =>
      have hne : c.rest ≠ [] := by simp [hrest]
      have hadvance : ∀ m, 0 < m → (c.advance m).rest.length < length := by
        intro m hm
        rw [← hlength]
        exact Cursor.length_advance_lt hm hne
      rw [← hrest]
      rcases bodyPiece_of_cons hk.state_mem x cs with ⟨m, hnext, hscan⟩ |
        ⟨t, m, ht, hnext, hscan⟩ | ⟨cs', hcs, hnext⟩ | ⟨cs', hcs, hnext⟩ | ⟨hnext, hscan⟩
      all_goals rw [← hrest] at *
      · have hpos : 0 < m := Piece.length_pos_of_next? hnext
        have hle : m ≤ c.rest.length := (Piece.isGap_of_next? hnext).1
        rw [hscan]
        refine Ends.of_advance hle (deriveFrom_congr (NextWord.read_of_gap hnext)) ?_
        exact ih _ (hadvance m hpos) hk last _ rfl
      · have hpos : 0 < m := Piece.length_pos_of_next? hnext
        have hle : m ≤ c.rest.length := (Piece.matches_of_next? hnext).1
        obtain ⟨k', hpush, hk'⟩ := hk.item hk₀ (c.lexeme m) ht
        rw [hscan]
        refine Ends.of_advance hle (deriveFrom_of_word (NextWord.read_of_word hnext) hpush) ?_
        exact ih _ (hadvance m hpos) hk' _ _ rfl
      · obtain ⟨k', hpush, hk'⟩ := hk.opening hk₀ (c.lexeme 1)
        have hbehind : (c.advance 1).rest = cs' := Cursor.rest_advance (w := ['\x7b']) hcs
        have hscan : scanBody .code (n + 1) c.rest =
            (scanBody .code (n + 1 + 1) (c.advance 1).rest).map (· + 1) := by
          rw [hcs, hbehind]
          rfl
        rw [hscan]
        refine Ends.of_advance (by simp [hcs])
          (deriveFrom_of_word (NextWord.read_of_word hnext) hpush) ?_
        exact ih _ (hadvance 1 Nat.one_pos) hk' _ _ rfl
      · have hbehind : (c.advance 1).rest = cs' := Cursor.rest_advance (w := ['\x7d']) hcs
        cases n with
        | zero =>
          obtain ⟨k', hpush, hclosed⟩ := hk.closed hk₀ hopen (c.lexeme 1)
          have hscan : scanBody .code 1 c.rest = some 1 := by
            rw [hcs]
            rfl
          have hstop : (c.lexeme 1).stop = c.place := by
            rw [Cursor.lexeme, hcs]
            rfl
          rw [hscan]
          refine ⟨c.lexeme 1, k', hclosed, by simp [hcs], by rw [hstop], ?_⟩
          exact deriveFrom_of_word (NextWord.read_of_word hnext) hpush
        | succ n =>
          obtain ⟨k', hpush, hk'⟩ := hk.closing hk₀ (c.lexeme 1)
          have hscan : scanBody .code (n + 1 + 1) c.rest =
              (scanBody .code (n + 1) (c.advance 1).rest).map (· + 1) := by
            rw [hcs, hbehind]
            rfl
          rw [hscan]
          refine Ends.of_advance (by simp [hcs])
            (deriveFrom_of_word (NextWord.read_of_word hnext) hpush) ?_
          exact ih _ (hadvance 1 Nat.one_pos) hk' _ _ rfl
      · have hread := NextWord.read_of_next?_eq_none hne hnext
        have hrun := deriveFrom_eq k last c
        rw [hread] at hrun
        rw [hscan]
        exact ⟨_, hrun⟩

end CadenceEntry.Source
