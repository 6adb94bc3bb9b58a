import CadenceEntry.Proofs.Syntax.Places

/-!
# Words where they stand

A place of a text has the line and the column that the characters before it give. The words among
the pieces of a text stand in it, in order, each at its place: `Segment.stand_words`.
-/

set_option autoImplicit false

namespace CadenceEntry

open Grammar

/-- The place `p` is that of a character of the text: its line is one more than the number of line
feeds before it, its column the number of characters since the last of them. -/
structure Position.IsIn (source : List Char) (p : Position) : Prop where
  offset : p.offset < source.length
  line : p.line = 1 + (source.take p.offset).count '\n'
  column : p.column = ((source.take p.offset).reverse.takeWhile (· ≠ '\n')).length

/-- The place behind a text from its beginning on. -/
theorem Position.afterAll_origin (cs : List Char) :
    origin.afterAll cs =
      ⟨cs.length, 1 + cs.count '\n', (cs.reverse.takeWhile (· ≠ '\n')).length⟩ := by
  induction cs using List.reverseRecOn with
  | nil => rfl
  | append_singleton cs c ih =>
    rw [afterAll_append, ih, afterAll_cons, afterAll_nil, after]
    by_cases hc : c = '\n'
    · subst hc
      simp [Nat.add_assoc]
    · simp [hc]

/-- The place behind the first part of a text is in it if there is more. -/
theorem Position.isIn_afterAll (us : List Char) {vs : List Char} (h : vs ≠ []) :
    (origin.afterAll us).IsIn (us ++ vs) := by
  have hpos := List.length_pos_iff.2 h
  rw [afterAll_origin]
  refine ⟨?_, ?_, ?_⟩
  · rw [List.length_append]
    show us.length < us.length + vs.length
    omega
  · rw [List.take_left]
  · rw [List.take_left]

/-- The text from the first to the last character of a span. -/
def Span.text (source : List Char) (s : Span) : List Char :=
  (source.drop s.start.offset).take (s.stop.offset + 1 - s.start.offset)

namespace Lexeme

/-- The word stands in the text at its place. -/
def StandsIn (source : List Char) (w : Lexeme) : Prop :=
  w.text ≠ [] ∧
    ∃ us vs, source = us ++ (w.text ++ vs) ∧ w.start = Position.origin.afterAll us

variable {source : List Char} {w a z : Lexeme}

/-- A word that stands in a text begins in it. -/
theorem StandsIn.isIn_start (h : w.StandsIn source) : w.start.IsIn source := by
  obtain ⟨hne, us, vs, rfl, hstart⟩ := h
  rw [hstart]
  exact Position.isIn_afterAll us (by simp [hne])

/-- A word that stands in a text ends in it. -/
theorem StandsIn.isIn_stop (h : w.StandsIn source) : w.stop.IsIn source := by
  obtain ⟨hne, us, vs, rfl, hstart⟩ := h
  have hsplit : us ++ (w.text ++ vs) =
      (us ++ w.text.dropLast) ++ ([w.text.getLast hne] ++ vs) := by
    conv_lhs => rw [← List.dropLast_concat_getLast hne]
    simp
  rw [stop, hstart, ← Position.afterAll_append, hsplit]
  exact Position.isIn_afterAll _ (by simp)

/-- The length of a word from the places of its first and of its last character. -/
theorem StandsIn.length_text (h : w.StandsIn source) :
    w.start.offset + w.text.length = w.stop.offset + 1 := by
  have hpos := List.length_pos_iff.2 h.1
  rw [stop, Position.offset_afterAll, List.length_dropLast]
  omega

/-- What begins with a word. -/
theorem StandsIn.text_isPrefix (h : a.StandsIn source) (hle : a.stop.offset ≤ z.stop.offset) :
    a.text <+: Span.text source ⟨a.start, z.stop⟩ := by
  have hlength := h.length_text
  obtain ⟨-, us, vs, rfl, hstart⟩ := h
  have hoffset : a.start.offset = us.length := by
    rw [hstart, Position.offset_afterAll]
    exact Nat.zero_add _
  rw [Span.text]
  show a.text <+: ((us ++ (a.text ++ vs)).drop a.start.offset).take _
  rw [hoffset, List.drop_left, List.prefix_take_iff]
  refine ⟨List.prefix_append _ _, ?_⟩
  show a.text.length ≤ z.stop.offset + 1 - us.length
  omega

/-- What ends with a word. -/
theorem StandsIn.text_isSuffix (h : z.StandsIn source) (hle : a.start.offset ≤ z.start.offset) :
    z.text <:+ Span.text source ⟨a.start, z.stop⟩ := by
  have hlength := h.length_text
  obtain ⟨-, us, vs, rfl, hstart⟩ := h
  have hoffset : z.start.offset = us.length := by
    rw [hstart, Position.offset_afterAll]
    exact Nat.zero_add _
  have hle' : a.start.offset ≤ us.length := by omega
  have hcount : z.stop.offset + 1 - a.start.offset =
      (us.drop a.start.offset).length + z.text.length := by
    rw [List.length_drop]
    omega
  rw [Span.text]
  show z.text <:+ ((us ++ (z.text ++ vs)).drop a.start.offset).take
    (z.stop.offset + 1 - a.start.offset)
  rw [List.drop_append_of_le_length hle', hcount, List.take_length_add_append, List.take_left]
  exact List.suffix_append _ _

/-- A word is the text at its span. -/
theorem StandsIn.text_span (h : w.StandsIn source) : Span.text source w.span = w.text := by
  have hlength := h.length_text
  refine ((h.text_isPrefix (Nat.le_refl _)).eq_of_length ?_).symm
  have hin := h.isIn_stop.offset
  rw [Span.text, List.length_take, List.length_drop]
  show w.text.length = min (w.stop.offset + 1 - w.start.offset) (source.length - w.start.offset)
  omega

end Lexeme

/-- Some words, each one of its terminal, stand in a text in order and without overlap. -/
structure WordsStand (source : List Char) (ws : List (Terminal × Lexeme)) : Prop where
  fits : ∀ x ∈ ws, x.1.Matches x.2.text
  stands : ∀ x ∈ ws, x.2.StandsIn source
  order : ws.Pairwise fun x y => x.2.stop.offset < y.2.start.offset

namespace WordsStand

variable {source : List Char} {ws ws' : List (Terminal × Lexeme)}

/-- The first of some words that stand in a text stand in it. -/
theorem left (h : WordsStand source (ws ++ ws')) : WordsStand source ws :=
  ⟨fun x hx => h.fits x (List.mem_append_left _ hx),
    fun x hx => h.stands x (List.mem_append_left _ hx), (List.pairwise_append.1 h.order).1⟩

/-- The last of some words that stand in a text stand in it. -/
theorem right (h : WordsStand source (ws ++ ws')) : WordsStand source ws' :=
  ⟨fun x hx => h.fits x (List.mem_append_right _ hx),
    fun x hx => h.stands x (List.mem_append_right _ hx), (List.pairwise_append.1 h.order).2.1⟩

/-- No word starts before the first one or stops behind the last one. -/
theorem bounds {x y z : Terminal × Lexeme} (h : WordsStand source ws) (hx : ws.head? = some x)
    (hz : ws.getLast? = some z) (hy : y ∈ ws) :
    x.2.start.offset ≤ y.2.start.offset ∧ y.2.stop.offset ≤ z.2.stop.offset := by
  have hyy := (h.stands y hy).length_text
  have hpos := List.length_pos_iff.2 (h.stands y hy).1
  constructor
  · obtain ⟨ws', rfl⟩ := List.head?_eq_some_iff.1 hx
    rcases List.mem_cons.1 hy with rfl | htail
    · exact Nat.le_refl _
    · have hlt := List.rel_of_pairwise_cons h.order htail
      have hxx := (h.stands x List.mem_cons_self).length_text
      have hpos' := List.length_pos_iff.2 (h.stands x List.mem_cons_self).1
      omega
  · obtain ⟨ws', rfl⟩ := List.getLast?_eq_some_iff.1 hz
    rcases List.mem_append.1 hy with hinit | hlast
    · have hlt := (List.pairwise_append.1 h.order).2.2 y hinit z List.mem_cons_self
      have hmem : z ∈ ws' ++ [z] := List.mem_append_right _ List.mem_cons_self
      have hzz := (h.stands z hmem).length_text
      have hpos' := List.length_pos_iff.2 (h.stands z hmem).1
      omega
    · rw [List.mem_singleton.1 hlast]

end WordsStand

namespace Segment

/-- No word of some pieces starts before them. -/
theorem offset_le_of_mem_words {ss : List Segment} {p : Position} {x : Terminal × Lexeme}
    (hx : x ∈ words p ss) : p.offset ≤ x.2.start.offset := by
  induction ss generalizing p with
  | nil => exact absurd hx (by simp [words])
  | cons s ss ih =>
    cases s with
    | word t w =>
      rcases List.mem_cons.1 hx with rfl | hx
      · exact Nat.le_refl _
      · have hle := ih hx
        rw [Position.offset_afterAll] at hle
        omega
    | gap w =>
      have hle := ih hx
      rw [Position.offset_afterAll] at hle
      omega

/-- The words among the pieces of the second part of a text stand in it. -/
theorem stand_words_of_append (us : List Char) {ss : List Segment} (h : ∀ s ∈ ss, s.Valid) :
    WordsStand (us ++ join ss) (words (Position.origin.afterAll us) ss) := by
  refine ⟨fun x hx => matches_of_mem_words h hx, ?_, ?_⟩
  · intro x hx
    induction ss generalizing us with
    | nil => exact absurd hx (by simp [words])
    | cons s ss ih =>
      have htail := fun s hs => h s (List.mem_cons_of_mem _ hs)
      have hjoin : us ++ join (s :: ss) = (us ++ s.text) ++ join ss := by
        rw [join, List.flatMap_cons, List.append_assoc]
        rfl
      cases s with
      | word t w =>
        rcases List.mem_cons.1 hx with rfl | hx
        · exact ⟨(h _ List.mem_cons_self).text_ne_nil, us, join ss, rfl, rfl⟩
        · rw [← Position.afterAll_append] at hx
          rw [hjoin]
          exact ih (us ++ w) htail hx
      | gap w =>
        rw [words, ← Position.afterAll_append] at hx
        rw [hjoin]
        exact ih (us ++ w) htail hx
  · induction ss generalizing us with
    | nil => exact .nil
    | cons s ss ih =>
      have htail := fun s hs => h s (List.mem_cons_of_mem _ hs)
      cases s with
      | word t w =>
        have hne : w ≠ [] := (h _ List.mem_cons_self).text_ne_nil
        have hpos := List.length_pos_iff.2 hne
        rw [words, ← Position.afterAll_append]
        refine List.pairwise_cons.2 ⟨fun x hx => ?_, ih (us ++ w) htail⟩
        have hle := offset_le_of_mem_words hx
        rw [Position.afterAll_append, Position.offset_afterAll] at hle
        show ((Position.origin.afterAll us).afterAll w.dropLast).offset < x.2.start.offset
        rw [Position.offset_afterAll, List.length_dropLast]
        omega
      | gap w =>
        rw [words, ← Position.afterAll_append]
        exact ih (us ++ w) htail

/-- The words among the pieces of a text stand in it. -/
theorem stand_words {ss : List Segment} (h : ∀ s ∈ ss, s.Valid) :
    WordsStand (join ss) (words .origin ss) :=
  stand_words_of_append [] h

end Segment

end CadenceEntry
