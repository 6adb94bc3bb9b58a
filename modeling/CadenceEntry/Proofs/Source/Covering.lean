import CadenceEntry.Proofs.Source.Piece
import CadenceEntry.Proofs.Source.Reading

/-!
# Pieces of a text

What is read of a text are consecutive pieces: words of terminals, and white space and comments
between them. The pieces cover the text without gap or overlap, and the words among them, each at
the place where it stands, are the words of the derivation that was read:
`Derivation.exists_segments`.
-/

set_option autoImplicit false

namespace CadenceEntry

open Grammar
open Source (Head)

/-- A piece of a text: a word of a terminal, or a gap between words. -/
inductive Segment where
  | word (t : Terminal) (text : List Char)
  | gap (text : List Char)

namespace Segment

/-- The text of a piece. -/
def text : Segment → List Char
  | word _ w => w
  | gap w => w

/-- A word is one of its terminal; a gap is white space, a line comment or a block comment from its
first to its last character. -/
def Valid : Segment → Prop
  | word t w => t.Matches w
  | gap w => ∃ c : WordClass, c.terminal? = none ∧ c.length? w = some w.length

/-- The text that consecutive pieces make up. -/
def join (ss : List Segment) : List Char := ss.flatMap text

/-- The words among consecutive pieces of a text, with their places, if the text begins at `p`. -/
def words (p : Position) : List Segment → List (Terminal × Lexeme)
  | [] => []
  | word t w :: ss => (t, ⟨w, p⟩) :: words (p.afterAll w) ss
  | gap w :: ss => words (p.afterAll w) ss

/-- A piece is not empty. -/
theorem Valid.text_ne_nil {s : Segment} (h : s.Valid) : s.text ≠ [] := by
  cases s with
  | word t w =>
    intro hw
    obtain rfl : w = [] := hw
    exact t.not_matches_nil h
  | gap w =>
    intro hw
    obtain rfl : w = [] := hw
    obtain ⟨c, -, hc⟩ := h
    rw [c.length?_nil] at hc
    exact absurd hc (by simp)

/-- The text of pieces in two parts. -/
theorem join_append (ss ss' : List Segment) : join (ss ++ ss') = join ss ++ join ss' :=
  List.flatMap_append

/-- The words of pieces in two parts. -/
theorem words_append (p : Position) (ss ss' : List Segment) :
    words p (ss ++ ss') = words p ss ++ words (p.afterAll (join ss)) ss' := by
  induction ss generalizing p with
  | nil => rfl
  | cons s ss ih =>
    cases s with
    | word t w =>
      rw [List.cons_append, words, words, ih, join, join, List.flatMap_cons,
        Position.afterAll_append]
      rfl
    | gap w =>
      rw [List.cons_append, words, words, ih, join, join, List.flatMap_cons,
        Position.afterAll_append]
      rfl

/-- The pieces `ss` stand between two cursors. -/
def Between (ss : List Segment) (c c' : Cursor) : Prop :=
  c.rest = join ss ++ c'.rest ∧ c'.place = c.place.afterAll (join ss) ∧ ∀ s ∈ ss, s.Valid

/-- Pieces between two cursors and pieces behind them. -/
theorem Between.append {ss ss' : List Segment} {c c₁ c₂ : Cursor} (h : Between ss c c₁)
    (h' : Between ss' c₁ c₂) : Between (ss ++ ss') c c₂ := by
  refine ⟨?_, ?_, ?_⟩
  · rw [h.1, h'.1, join_append, List.append_assoc]
  · rw [h'.2.1, h.2.1, join_append, Position.afterAll_append]
  · intro s hs
    rcases List.mem_append.1 hs with hs | hs
    · exact h.2.2 s hs
    · exact h'.2.2 s hs

/-- The next characters are a piece of their own. -/
theorem between_singleton {s : Segment} {c : Cursor} {n : Nat} (hs : s.Valid)
    (htext : s.text = c.rest.take n) : Between [s] c (c.advance n) := by
  have hjoin : join [s] = c.rest.take n := by
    rw [← htext]
    exact List.append_nil _
  refine ⟨?_, ?_, ?_⟩
  · rw [hjoin]
    exact (List.take_append_drop n c.rest).symm
  · rw [hjoin]
    rfl
  · intro s' hs'
    rw [List.mem_singleton.1 hs']
    exact hs

end Segment

namespace NextWord

variable {q : State} {c c' : Cursor}

/-- What is skipped before a word are gaps, and the word is one of its terminal. -/
theorem exists_segments_of_read {t : Terminal} {w : Lexeme} (h : read q c = .word t w c') :
    ∃ ss : List Segment, Segment.Between ss c c' ∧ Segment.words c.place ss = [(t, w)] := by
  unfold read at h
  fun_induction readBy (Piece.next? q) c with
  | case1 => exact absurd h (by simp)
  | case2 => exact absurd h (by simp)
  | case3 c hc t' n hp hnext =>
    obtain ⟨rfl, rfl, rfl⟩ := NextWord.word.inj h
    have hmatches := (Piece.matches_of_next? hnext).2.1
    exact ⟨[.word t' (c.rest.take n)], Segment.between_singleton hmatches rfl, rfl⟩
  | case4 c hc n _ hnext _ ih =>
    obtain ⟨ss, hbetween, hwords⟩ := ih h
    obtain ⟨hle, k, hk, hlength⟩ := Piece.isGap_of_next? hnext
    have hgap : (Segment.gap (c.rest.take n)).Valid :=
      ⟨k, hk, by rw [hlength, List.length_take_of_le hle]⟩
    exact ⟨.gap (c.rest.take n) :: ss, (Segment.between_singleton hgap rfl).append hbetween,
      hwords⟩
  | case5 => exact absurd h (by simp)

/-- What is skipped before the end are gaps. -/
theorem exists_segments_of_finish (h : read q c = .finish) :
    ∃ ss : List Segment, Segment.join ss = c.rest ∧ (∀ s ∈ ss, s.Valid) ∧
      Segment.words c.place ss = [] := by
  unfold read at h
  fun_induction readBy (Piece.next? q) c with
  | case1 c hc => exact ⟨[], hc.symm, by simp, rfl⟩
  | case2 => exact absurd h (by simp)
  | case3 => exact absurd h (by simp)
  | case4 c hc n _ hnext _ ih =>
    obtain ⟨ss, hjoin, hvalid, hwords⟩ := ih h
    obtain ⟨hle, k, hk, hlength⟩ := Piece.isGap_of_next? hnext
    have hgap : (Segment.gap (c.rest.take n)).Valid :=
      ⟨k, hk, by rw [hlength, List.length_take_of_le hle]⟩
    refine ⟨.gap (c.rest.take n) :: ss, ?_, ?_, hwords⟩
    · rw [Segment.join, List.flatMap_cons, ← Segment.join, hjoin]
      exact List.take_append_drop n c.rest
    · intro s hs
      rcases List.mem_cons.1 hs with rfl | hs
      · exact hgap
      · exact hvalid s hs
  | case5 => exact absurd h (by simp)

end NextWord

mutual

/-- What has been read of a text are pieces of it, and the words among them are the words of the
derivation. -/
theorem Grammar.Derivation.exists_segments {s : Symbol} (d : Derivation s) {q : State}
    {h h' : Head} (hd : d.Reads q h h') :
    ∃ ss : List Segment, Segment.Between ss h.cursor h'.cursor ∧
      Segment.words h.cursor.place ss = d.words :=
  match d with
  | .leaf t w => NextWord.exists_segments_of_read hd.1
  | .node p ds => ds.exists_segments hd

/-- What has been read of a text for a list of derivations are pieces of it. -/
theorem Grammar.Derivations.exists_segments {ss : List Symbol} (ds : Derivations ss) {q : State}
    {h h' : Head} (hds : ds.Reads q h h') :
    ∃ ss : List Segment, Segment.Between ss h.cursor h'.cursor ∧
      Segment.words h.cursor.place ss = ds.words :=
  match ds with
  | .nil => by
    obtain rfl := hds
    exact ⟨[], ⟨rfl, rfl, by simp⟩, rfl⟩
  | .cons d ds => by
    obtain ⟨h₁, q', hd, -, hds⟩ := hds
    obtain ⟨ss, hbetween, hwords⟩ := d.exists_segments hd
    obtain ⟨ss', hbetween', hwords'⟩ := ds.exists_segments hds
    refine ⟨ss ++ ss', hbetween.append hbetween', ?_⟩
    rw [Segment.words_append, hwords, ← hbetween.2.1, hwords']
    rfl

end

/-- A text that is derived is covered by pieces, and the words among them are the words of the
derivation. -/
theorem Source.exists_segments_of_derive {g : Goal} {cs : List Char}
    {d : Derivation (.phrase g.phrase)} (h : derive g cs = .ok d) :
    ∃ ss : List Segment, Segment.join ss = cs ∧ (∀ s ∈ ss, s.Valid) ∧
      Segment.words .origin ss = d.words := by
  obtain ⟨h', hreads, hfinish⟩ := derive_eq_ok_iff.1 h
  obtain ⟨ss, ⟨hrest, hplace, hvalid⟩, hwords⟩ := d.exists_segments hreads
  obtain ⟨ss', hjoin, hvalid', hwords'⟩ := NextWord.exists_segments_of_finish hfinish
  refine ⟨ss ++ ss', ?_, ?_, ?_⟩
  · rw [Segment.join_append, hjoin]
    exact hrest.symm
  · intro s hs
    rcases List.mem_append.1 hs with hs | hs
    · exact hvalid s hs
    · exact hvalid' s hs
  · have hplace' : h'.cursor.place = Position.origin.afterAll (Segment.join ss) := hplace
    rw [Segment.words_append, ← hplace', hwords', List.append_nil]
    exact hwords

/-- The words of valid pieces are words of their terminals. -/
theorem Segment.matches_of_mem_words {ss : List Segment} (h : ∀ s ∈ ss, s.Valid) {p : Position}
    {x : Terminal × Lexeme} (hx : x ∈ words p ss) : x.1.Matches x.2.text := by
  induction ss generalizing p with
  | nil => exact absurd hx (by simp [words])
  | cons s ss ih =>
    have htail := fun s hs => h s (List.mem_cons_of_mem _ hs)
    cases s with
    | word t w =>
      rcases List.mem_cons.1 hx with rfl | hx
      · exact h _ List.mem_cons_self
      · exact ih htail hx
    | gap w => exact ih htail hx

end CadenceEntry
