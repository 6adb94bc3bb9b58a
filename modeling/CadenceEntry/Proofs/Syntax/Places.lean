import CadenceEntry.Proofs.Source.Replacing
import CadenceEntry.Proofs.Syntax.Moved

/-!
# Where words and bodies stand

What is read off a text stands between the place where reading begins and the place where it ends,
in order and without overlap. This holds of the words of a derivation and of its bodies, each from
its first word to its last.
-/

set_option autoImplicit false

namespace CadenceEntry

open Grammar
open Source (Head)

/-- The place `p'` is the place `p` or one further on in the text. -/
structure Position.Reaches (p p' : Position) : Prop where
  offset : p.offset ≤ p'.offset
  line : p.line ≤ p'.line

/-- The place behind a text is further on. -/
theorem Position.reaches_afterAll (p : Position) (cs : List Char) : p.Reaches (p.afterAll cs) := by
  have hoffset := offset_afterAll p cs
  exact ⟨by omega, (le_afterAll p cs).1⟩

/-- What is further on than something further on is further on. -/
theorem Position.Reaches.trans {p p₁ p₂ : Position} (h : p.Reaches p₁) (h' : p₁.Reaches p₂) :
    p.Reaches p₂ :=
  ⟨Nat.le_trans h.offset h'.offset, Nat.le_trans h.line h'.line⟩

namespace Span

/-- A piece of text that is not empty stands between two places. -/
structure Within (p p' : Position) (s : Span) : Prop where
  start : p.Reaches s.start
  stop : p.Reaches s.stop
  order : s.start.offset ≤ s.stop.offset
  lt : s.stop.offset < p'.offset

/-- Pieces of text stand between two places, one after the other. -/
structure Ordered (p p' : Position) (ss : List Span) : Prop where
  reaches : p.Reaches p'
  within : ∀ s ∈ ss, s.Within p p'
  pairwise : ss.Pairwise fun s s' => s.stop.offset < s'.start.offset

/-- What stands between two places stands between places further apart. -/
theorem Within.mono {p p' p₁ p₁' : Position} {s : Span} (h : s.Within p₁ p₁') (hp : p.Reaches p₁)
    (hp' : p₁'.Reaches p') : s.Within p p' :=
  ⟨hp.trans h.start, hp.trans h.stop, h.order, Nat.lt_of_lt_of_le h.lt hp'.offset⟩

/-- Spans in order and spans in order behind them. -/
theorem Ordered.append {p p₁ p₂ : Position} {ss ss' : List Span} (h : Ordered p p₁ ss)
    (h' : Ordered p₁ p₂ ss') : Ordered p p₂ (ss ++ ss') := by
  refine ⟨h.reaches.trans h'.reaches, fun s hs => ?_, ?_⟩
  · rcases List.mem_append.1 hs with hs | hs
    · exact (h.within s hs).mono ⟨Nat.le_refl _, Nat.le_refl _⟩ h'.reaches
    · exact (h'.within s hs).mono h.reaches ⟨Nat.le_refl _, Nat.le_refl _⟩
  · refine List.pairwise_append.2 ⟨h.pairwise, h'.pairwise, fun s hs s' hs' => ?_⟩
    have hlt := (h.within s hs).lt
    have hle := (h'.within s' hs').start.offset
    omega

/-- From the first to the last of some pieces. -/
theorem Ordered.hull {p p' : Position} {ss : List Span} (h : Ordered p p' ss) {a z : Span}
    (ha : ss.head? = some a) (hz : ss.getLast? = some z) : Within p p' ⟨a.start, z.stop⟩ := by
  have hwithin_a := h.within a (List.mem_of_mem_head? ha)
  have hwithin_z := h.within z (List.mem_of_getLast? hz)
  refine ⟨hwithin_a.start, hwithin_z.stop, ?_, hwithin_z.lt⟩
  cases ss with
  | nil => exact absurd ha (by simp)
  | cons s ss =>
    obtain rfl : s = a := Option.some.inj ha
    rcases List.mem_cons.1 (List.mem_of_getLast? hz) with rfl | hmem
    · exact hwithin_z.order
    · have hlt := List.rel_of_pairwise_cons h.pairwise hmem
      have hle := hwithin_a.order
      have hle' := hwithin_z.order
      show s.start.offset ≤ z.stop.offset
      omega

/-- Two of the pieces are the same, or one of them comes before the other. -/
theorem Ordered.cases {p p' : Position} {ss : List Span} (h : Ordered p p' ss) {s s' : Span}
    (hs : s ∈ ss) (hs' : s' ∈ ss) :
    s = s' ∨ s.stop.offset < s'.start.offset ∨ s'.stop.offset < s.start.offset := by
  have hpairwise := h.pairwise
  clear h
  induction hpairwise with
  | nil => exact absurd hs (by simp)
  | cons hlt _ ih =>
    rcases List.mem_cons.1 hs with rfl | htail
    · rcases List.mem_cons.1 hs' with rfl | htail'
      · exact .inl rfl
      · exact .inr (.inl (hlt s' htail'))
    · rcases List.mem_cons.1 hs' with rfl | htail'
      · exact .inr (.inr (hlt s htail))
      · exact ih htail htail'

end Span

namespace Block

variable {us us' vs vs' : List Char} {s s' : Span}

/-- What stands in the first part of a text has nothing to do with the second part. -/
theorem source_congr_left (h : s.stop.offset < us.length) :
    (ofSpan (us ++ vs') s).source = (ofSpan (us ++ vs) s).source := by
  have hslice : ∀ ws, ((us ++ ws).drop s.start.offset).take (s.stop.offset + 1 - s.start.offset) =
      (us.drop s.start.offset).take (s.stop.offset + 1 - s.start.offset) := by
    intro ws
    by_cases hle : s.start.offset ≤ us.length
    · rw [List.drop_append_of_le_length hle, List.take_append_of_le_length]
      rw [List.length_drop]
      omega
    · rw [show s.stop.offset + 1 - s.start.offset = 0 by omega, List.take_zero, List.take_zero]
  rw [ofSpan, ofSpan, hslice, hslice]

/-- What stands in the second part of a text is still there if the first part is replaced. -/
theorem source_congr_right (h : us.length ≤ s.start.offset)
    (hstart : s'.start.offset + us.length = s.start.offset + us'.length)
    (hstop : s'.stop.offset + us.length = s.stop.offset + us'.length) :
    (ofSpan (us' ++ vs) s').source = (ofSpan (us ++ vs) s).source := by
  obtain ⟨i, hi⟩ := Nat.exists_eq_add_of_le h
  have hi' : s'.start.offset = us'.length + i := by omega
  have hlength : s'.stop.offset + 1 - s'.start.offset = s.stop.offset + 1 - s.start.offset := by
    omega
  rw [ofSpan, ofSpan, hlength, hi, hi', List.drop_length_add_append, List.drop_length_add_append]

end Block

/-- From the first to the last character of a word. -/
def Lexeme.span (w : Lexeme) : Span := ⟨w.start, w.stop⟩

/-- A word that ends before the text that is moved stays where it is. -/
theorem Lexeme.moved_of_lt {a b : Position} {w : Lexeme} (h : w.stop.offset < a.offset) :
    w.Moved (Position.movedFrom a b) w := by
  have hle := (Position.reaches_afterAll w.start w.text.dropLast).offset
  have hstart : w.start.offset < a.offset := Nat.lt_of_le_of_lt hle h
  exact ⟨rfl, (Position.movedFrom_of_lt hstart).symm, (Position.movedFrom_of_lt h).symm⟩

/-- A word that is read stands between the places before and behind it. -/
theorem NextWord.within_of_read {q : State} {c c' : Cursor} {t : Terminal} {w : Lexeme}
    (h : read q c = .word t w c') : w.span.Within c.place c'.place := by
  obtain ⟨hskips, hnext, hplace⟩ := exists_skips_of_word h
  obtain ⟨y, -, hstart⟩ := hskips.exists_rest
  have hstart' : w.start = c.place.afterAll y := hstart
  have hreaches : c.place.Reaches w.start := by
    rw [hstart']
    exact Position.reaches_afterAll c.place y
  have hstop := Position.reaches_afterAll w.start w.text.dropLast
  refine ⟨hreaches, hreaches.trans hstop, hstop.offset, ?_⟩
  have hpos : 0 < w.text.length := Piece.length_pos_of_next? hnext
  show (w.start.afterAll w.text.dropLast).offset < c'.place.offset
  rw [hplace, Position.offset_afterAll, Position.offset_afterAll, List.length_dropLast]
  omega

namespace Grammar

mutual

/-- The first word of a derivation is the first of its words. -/
theorem Derivation.first?_eq {s : Symbol} (d : Derivation s) :
    d.first? = d.words.head?.map Prod.snd :=
  match d with
  | .leaf t w => rfl
  | .node p ds => ds.first?_eq

/-- The first word of derivations is the first of their words. -/
theorem Derivations.first?_eq {ss : List Symbol} (ds : Derivations ss) :
    ds.first? = ds.words.head?.map Prod.snd :=
  match ds with
  | .nil => rfl
  | .cons d ds => by
    rw [Derivations.first?, Derivations.words, d.first?_eq, ds.first?_eq]
    cases d.words <;> rfl

end

mutual

/-- The last word of a derivation is the last of its words. -/
theorem Derivation.last?_eq {s : Symbol} (d : Derivation s) :
    d.last? = d.words.getLast?.map Prod.snd :=
  match d with
  | .leaf t w => rfl
  | .node p ds => ds.last?_eq

/-- The last word of derivations is the last of their words. -/
theorem Derivations.last?_eq {ss : List Symbol} (ds : Derivations ss) :
    ds.last? = ds.words.getLast?.map Prod.snd :=
  match ds with
  | .nil => rfl
  | .cons d ds => by
    rw [Derivations.last?, Derivations.words, d.last?_eq, ds.last?_eq, List.getLast?_append]
    cases ds.words.getLast? <;> rfl

end

mutual

/-- The words of a derivation stand in order where they are read. -/
theorem Derivation.ordered_words {s : Symbol} (d : Derivation s) {q : State} {h h' : Head}
    (hd : d.Reads q h h') :
    Span.Ordered h.cursor.place h'.cursor.place (d.words.map fun x => x.2.span) :=
  match d with
  | .leaf t w => by
    have hwithin := NextWord.within_of_read hd.1
    refine ⟨⟨?_, ?_⟩, fun s hs => ?_, List.pairwise_singleton _ _⟩
    · have hle := hwithin.stop.offset
      have hlt := hwithin.lt
      omega
    · obtain ⟨ss, ⟨-, hplace, -⟩, -⟩ := (Derivation.leaf t w).exists_segments hd
      rw [hplace]
      exact (Position.reaches_afterAll _ _).line
    · rw [List.mem_singleton.1 hs]
      exact hwithin
  | .node p ds => ds.ordered_words hd

/-- The words of derivations that are read stand in order. -/
theorem Derivations.ordered_words {ss : List Symbol} (ds : Derivations ss) {q : State}
    {h h' : Head} (hds : ds.Reads q h h') :
    Span.Ordered h.cursor.place h'.cursor.place (ds.words.map fun x => x.2.span) :=
  match ds with
  | .nil => by
    rw [show h' = h from hds]
    exact ⟨⟨Nat.le_refl _, Nat.le_refl _⟩, by simp [Derivations.words], .nil⟩
  | .cons d ds => by
    obtain ⟨h₁, q', hd, -, hds⟩ := hds
    rw [Derivations.words, List.map_append]
    exact (d.ordered_words hd).append (ds.ordered_words hds)

end

/-- What has words runs from the first to the last of them. -/
theorem Derivations.span_within {ss : List Symbol} (ds : Derivations ss) {q : State} {h h' : Head}
    (hds : ds.Reads q h h') (hne : ds.words ≠ []) :
    ds.span.Within h.cursor.place h'.cursor.place := by
  have hordered := ds.ordered_words hds
  cases hfirst : ds.words.head? with
  | none => exact absurd (List.head?_eq_none_iff.1 hfirst) hne
  | some x =>
    cases hlast : ds.words.getLast? with
    | none => exact absurd (List.getLast?_eq_none_iff.1 hlast) hne
    | some y =>
      have hspan : ds.span = ⟨x.2.start, y.2.stop⟩ := by
        rw [Derivations.span, ds.first?_eq, ds.last?_eq, hfirst, hlast]
        rfl
      rw [hspan]
      refine hordered.hull (a := x.2.span) (z := y.2.span) ?_ ?_
      · rw [List.head?_map, hfirst]
        rfl
      · rw [List.getLast?_map, hlast]
        rfl

mutual

/-- The bodies of a derivation stand in order where they are read. -/
theorem Derivation.ordered_bodies {s : Symbol} (d : Derivation s) {q : State} {h h' : Head}
    (hd : d.Reads q h h') : Span.Ordered h.cursor.place h'.cursor.place d.bodies :=
  match d with
  | .leaf t w =>
    ⟨((Derivation.leaf t w).ordered_words hd).reaches, by simp [Derivation.bodies], .nil⟩
  | .node p ds => by
    rw [Derivation.bodies]
    split
    · next hp =>
      have hne : ds.words ≠ [] := by
        obtain ⟨t, w, ws, hws, -⟩ := (Derivation.node p ds).exists_first (by rw [hp]; simp)
        have hws' : ds.words = (t, w) :: ws := hws
        rw [hws']
        simp
      refine ⟨(ds.ordered_words hd).reaches, fun s hs => ?_, List.pairwise_singleton _ _⟩
      rw [List.mem_singleton.1 hs]
      exact ds.span_within hd hne
    · exact ds.ordered_bodies hd

/-- The bodies of derivations that are read stand in order. -/
theorem Derivations.ordered_bodies {ss : List Symbol} (ds : Derivations ss) {q : State}
    {h h' : Head} (hds : ds.Reads q h h') :
    Span.Ordered h.cursor.place h'.cursor.place ds.bodies :=
  match ds with
  | .nil => ⟨(Derivations.nil.ordered_words hds).reaches, by simp [Derivations.bodies], .nil⟩
  | .cons d ds => by
    obtain ⟨h₁, q', hd, -, hds⟩ := hds
    rw [Derivations.bodies]
    exact (d.ordered_bodies hd).append (ds.ordered_bodies hds)

end

/-- What is read before the text that is moved stays where it is. -/
theorem Derivation.moved_of_reads {s : Symbol} (d : Derivation s) {q : State} {h h' : Head}
    (hd : d.Reads q h h') {a : Position} (b : Position)
    (ha : h'.cursor.place.offset ≤ a.offset) : d.Moved (Position.movedFrom a b) d := by
  refine d.moved_self fun x hx => Lexeme.moved_of_lt ?_
  have hwithin := (d.ordered_words hd).within x.2.span (List.mem_map_of_mem hx)
  exact Nat.lt_of_lt_of_le hwithin.lt ha

end Grammar

end CadenceEntry
