import CadenceEntry.Proofs.Nodes.Standing
import CadenceEntry.Proofs.Syntax.Evaluation

/-!
# Words with white space between them

A text in which words stand one after the other, with white space between two of them and around
them, can be cut into these words in one way only: its pieces are the words and white space, so each
word is where it was written (`Segment.setOut`). From the first to the last of some of the words
that stand side by side, the text consists of these words with white space between them
(`SetOut.spaced_text`).
-/

set_option autoImplicit false

namespace CadenceEntry

open Grammar

/-- The text consists of the words `ws` in order, with white space between two words and around
them. -/
inductive Spaced : List (List Char) → List Char → Prop
  | nil {g : List Char} (hg : IsBlank g) : Spaced [] g
  | cons {g w g' cs : List Char} {ws : List (List Char)} (hg : IsBlank g) (hg' : IsBlank g')
      (hne : ws ≠ [] → g' ≠ []) (hws : Spaced ws cs) : Spaced (w :: ws) (g ++ (w ++ (g' ++ cs)))

/-- The text, which begins at the place `p`, consists of the words `ws`, each at its place, with
white space around them and, unless the text ends there, right behind each of them. -/
inductive SetOut : Position → List (Terminal × Lexeme) → List Char → Prop
  | nil {p : Position} {g : List Char} (hg : IsBlank g) : SetOut p [] g
  | cons {p : Position} {t : Terminal} {g w rest : List Char} {ws : List (Terminal × Lexeme)}
      (hg : IsBlank g) (hrest : ∀ x ∈ rest.head?, WordClass.separates x = true)
      (hws : SetOut (p.afterAll (g ++ w)) ws rest) :
      SetOut p ((t, ⟨w, p.afterAll g⟩) :: ws) (g ++ (w ++ rest))

/-- No word begins with white space. -/
theorem Grammar.Terminal.exists_cons_of_matches {t : Terminal} {w : List Char} (h : t.Matches w) :
    ∃ x v, w = x :: v ∧ WordClass.separates x = false := by
  obtain ⟨x, v, rfl⟩ := List.exists_cons_of_ne_nil fun hnil => t.not_matches_nil (hnil ▸ h)
  refine ⟨x, v, rfl, ?_⟩
  cases hclass : t.class? with
  | none =>
    have hchars : t.chars? = some (x :: v) := by simpa [Matches, hclass] using h
    obtain ⟨y, u, hu, hbegins⟩ := exists_chars?_of_mem_fixed (class?_eq_none_iff.1 hclass)
    obtain ⟨rfl, -⟩ := List.cons.inj (Option.some.inj (hchars.symm.trans hu))
    rw [Bool.eq_false_iff]
    intro hx
    have hcovers : WordClass.blanks.covers t = true := (hbegins .blanks).symm.trans hx
    exact absurd (eq_name_of_covers hcovers) (by simp)
  | some c =>
    have hlength : c.length? (x :: v) = some (x :: v).length := by
      simpa [Matches, hclass] using h
    have hcode := WordClass.code_of_begins (WordClass.begins_of_length? hlength)
    have hterminal := class?_eq_some_iff.1 hclass
    cases c
    case blanks => exact absurd hterminal (by simp [WordClass.terminal?])
    case statement => exact hcode.2
    all_goals
      rw [Bool.eq_false_iff, ne_eq, WordClass.separates_iff]
      simp only at hcode
      omega

/-! ## The ink of a text -/

/-- The number of characters of a text that are not white space. -/
def ink (cs : List Char) : Nat := cs.countP fun x => !WordClass.separates x

/-- The ink of two texts adds up. -/
@[simp] theorem ink_append (cs cs' : List Char) : ink (cs ++ cs') = ink cs + ink cs' :=
  List.countP_append

/-- White space is what has no ink. -/
theorem ink_eq_zero_iff {cs : List Char} : ink cs = 0 ↔ IsBlank cs := by
  simp [ink, IsBlank, List.countP_eq_zero]

/-- All ink of words with white space between them is in the words. -/
theorem Spaced.ink_eq {ws : List (List Char)} {cs : List Char} (h : Spaced ws cs) :
    ink cs = (ws.map ink).sum := by
  induction h with
  | nil hg => exact ink_eq_zero_iff.2 hg
  | cons hg hg' _ _ ih =>
    rw [ink_append, ink_append, ink_append, ink_eq_zero_iff.2 hg, ink_eq_zero_iff.2 hg', ih,
      List.map_cons, List.sum_cons, Nat.zero_add, Nat.zero_add]

namespace Segment

/-- The words among some pieces have no more ink than the pieces. -/
theorem sum_ink_words_le (p : Position) (ss : List Segment) :
    ((words p ss).map fun x => ink x.2.text).sum ≤ ink (join ss) := by
  induction ss generalizing p with
  | nil => exact Nat.le_refl _
  | cons s ss ih =>
    cases s with
    | word t w =>
      have hle := ih (p.afterAll w)
      rw [words, join, List.flatMap_cons, ← join, ink_append, List.map_cons, List.sum_cons]
      exact Nat.add_le_add_left hle _
    | gap u =>
      have hle := ih (p.afterAll u)
      rw [words, join, List.flatMap_cons, ← join, ink_append]
      omega

/-- If all ink of some pieces is in the words among them, there is white space between the words
only. -/
theorem isBlank_of_ink_le {p : Position} {ss : List Segment}
    (h : ink (join ss) ≤ ((words p ss).map fun x => ink x.2.text).sum) :
    ∀ u, gap u ∈ ss → IsBlank u := by
  induction ss generalizing p with
  | nil => simp
  | cons s ss ih =>
    intro u hu
    cases s with
    | word t w =>
      rw [words, join, List.flatMap_cons, ← join, ink_append, List.map_cons, List.sum_cons] at h
      exact ih (Nat.le_of_add_le_add_left h) u ((List.mem_cons.1 hu).resolve_left (by simp))
    | gap v =>
      rw [words, join, List.flatMap_cons, ← join, ink_append] at h
      have hle := sum_ink_words_le (p.afterAll v) ss
      have hv : ink v + ink (join ss) ≤ _ := h
      rcases List.mem_cons.1 hu with hu | hu
      · obtain rfl := gap.inj hu
        exact ink_eq_zero_iff.1 (by omega)
      · exact ih (p := p.afterAll v) (by omega) u hu

end Segment

/-! ## One way to cut a text -/

/-- White space in front of words with white space between them. -/
theorem Spaced.blank_append {ws : List (List Char)} {g cs : List Char} (h : Spaced ws cs)
    (hg : IsBlank g) : Spaced ws (g ++ cs) := by
  cases h with
  | nil hg' => exact .nil (List.forall_mem_append.2 ⟨hg, hg'⟩)
  | cons hg' hg'' hne hws =>
    rw [← List.append_assoc]
    exact .cons (List.forall_mem_append.2 ⟨hg, hg'⟩) hg'' hne hws

/-- What begins with something else is no white space. -/
theorem not_isBlank_cons {x : Char} {v : List Char} (hx : WordClass.separates x = false) :
    ¬ IsBlank (x :: v) := by
  intro h
  have hx' := h x List.mem_cons_self
  rw [hx] at hx'
  cases hx'

/-- White space in front of a text ends before the first character that is none. -/
theorem IsBlank.isPrefix_of_append_eq {g u cs : List Char} {x : Char} {v : List Char}
    (hu : IsBlank u) (hx : WordClass.separates x = false) (h : g ++ x :: v = u ++ cs) :
    ∃ g', g = u ++ g' ∧ cs = g' ++ x :: v := by
  rcases List.append_eq_append_iff.1 h with ⟨u', rfl, hv⟩ | ⟨g', rfl, hcs⟩
  · cases u' with
    | nil => exact ⟨[], by simp, by simpa using hv.symm⟩
    | cons y u' =>
      obtain ⟨rfl, -⟩ := List.cons.inj hv
      exact absurd (List.forall_mem_append.1 hu).2 (not_isBlank_cons hx)
  · exact ⟨g', rfl, hcs⟩

/-- White space in front of words can be left out. -/
theorem Spaced.of_blank_append {ws : List (Terminal × Lexeme)} {g cs : List Char}
    (h : Spaced (ws.map fun x => x.2.text) (g ++ cs)) (hws : ∀ x ∈ ws, x.1.Matches x.2.text)
    (hg : IsBlank g) : Spaced (ws.map fun x => x.2.text) cs := by
  generalize hcs : g ++ cs = cs' at h
  cases ws with
  | nil =>
    cases h with
    | nil hg' =>
      subst hcs
      exact .nil (List.forall_mem_append.1 hg').2
  | cons y ws =>
    obtain ⟨x, v, hw, hx⟩ := Terminal.exists_cons_of_matches (hws y List.mem_cons_self)
    cases h with
    | @cons g₁ _ g₂ cs₂ _ hg₁ hg₂ hne hrest =>
      have hcut : g₁ ++ x :: (v ++ (g₂ ++ cs₂)) = g ++ cs := by
        rw [hcs, ← List.cons_append, ← hw]
      obtain ⟨g', rfl, rfl⟩ := hg.isPrefix_of_append_eq hx hcut
      rw [List.map_cons, ← List.cons_append, ← hw]
      exact .cons (List.forall_mem_append.1 hg₁).2 hg₂ hne hrest

/-- White space in front of words that stand in a text. -/
theorem SetOut.blank_append {ws : List (Terminal × Lexeme)} {p : Position} {g cs : List Char}
    (h : SetOut (p.afterAll g) ws cs) (hg : IsBlank g) : SetOut p ws (g ++ cs) := by
  generalize hq : p.afterAll g = q at h
  cases h with
  | nil hg' => exact .nil (List.forall_mem_append.2 ⟨hg, hg'⟩)
  | @cons _ t g' w rest ws hg' hrest hws =>
    subst hq
    rw [← Position.afterAll_append] at hws ⊢
    rw [← List.append_assoc] at hws ⊢
    exact .cons (List.forall_mem_append.2 ⟨hg, hg'⟩) hrest hws

/-- White space stands right behind a word, unless the text ends there. -/
theorem Spaced.separates_head? {ws : List (List Char)} {g cs : List Char} (h : Spaced ws cs)
    (hg : IsBlank g) (hne : ws ≠ [] → g ≠ []) :
    ∀ x ∈ (g ++ cs).head?, WordClass.separates x = true := by
  intro x hx
  cases g with
  | cons y g =>
    obtain rfl := Option.some.inj hx
    exact hg _ List.mem_cons_self
  | nil =>
    obtain rfl : ws = [] := by
      by_contra hws
      exact hne hws rfl
    cases h with
    | nil hcs => exact hcs x (List.mem_of_mem_head? hx)

/-- The first of some words with white space between them, where nothing stands before it. -/
theorem Spaced.of_cons {w cs : List Char} {ws : List (List Char)} {x : Char} {v : List Char}
    (hw : w = x :: v) (hx : WordClass.separates x = false) (h : Spaced (w :: ws) (w ++ cs)) :
    (∀ y ∈ cs.head?, WordClass.separates y = true) ∧ Spaced ws cs := by
  generalize hcs : w ++ cs = cs' at h
  cases h with
  | @cons g _ g' cs₁ _ hg hg' hne hws =>
    obtain rfl : g = [] := by
      cases g with
      | nil => rfl
      | cons y g =>
        rw [hw] at hcs
        obtain ⟨rfl, -⟩ := List.cons.inj hcs
        exact absurd hg (not_isBlank_cons hx)
    obtain rfl := List.append_cancel_left hcs
    exact ⟨hws.separates_head? hg' hne, hws.blank_append hg'⟩

namespace Segment

/-- If there is white space between the words of a text only, and they are spelled like words with
white space between them that make up the text, each of them stands where it was written. -/
theorem setOut_of_blank {ss : List Segment} {p : Position} (hvalid : ∀ s ∈ ss, s.Valid)
    (hblank : ∀ u, gap u ∈ ss → IsBlank u)
    (h : Spaced ((words p ss).map fun x => x.2.text) (join ss)) :
    SetOut p (words p ss) (join ss) := by
  induction ss generalizing p with
  | nil => exact .nil (by simp [IsBlank, join])
  | cons s ss ih =>
    have hvalid' : ∀ s ∈ ss, s.Valid := fun s hs => hvalid s (List.mem_cons_of_mem _ hs)
    have hblank' : ∀ u, gap u ∈ ss → IsBlank u := fun u hu => hblank u (List.mem_cons_of_mem _ hu)
    rw [show join (s :: ss) = s.text ++ join ss from rfl] at h ⊢
    cases s with
    | gap u =>
      have hu := hblank u List.mem_cons_self
      have hrest := h.of_blank_append (fun x hx => matches_of_mem_words hvalid' hx) hu
      exact (ih hvalid' hblank' hrest).blank_append hu
    | word t w =>
      have hw : t.Matches w := hvalid _ List.mem_cons_self
      obtain ⟨x, v, hxv, hx⟩ := Terminal.exists_cons_of_matches hw
      obtain ⟨hhead, hrest⟩ := h.of_cons hxv hx
      exact .cons (g := []) (by simp [IsBlank]) hhead (ih hvalid' hblank' hrest)

/-- If the words of a text are spelled like words with white space between them that make up the
text, each of them stands where it was written. -/
theorem setOut {ss : List Segment} {p : Position} (hvalid : ∀ s ∈ ss, s.Valid)
    (h : Spaced ((words p ss).map fun x => x.2.text) (join ss)) :
    SetOut p (words p ss) (join ss) := by
  -- the words have all ink of the text, so there is none left for a comment between them
  refine setOut_of_blank hvalid (isBlank_of_ink_le (p := p) ?_) h
  rw [h.ink_eq, List.map_map]
  exact Nat.le_refl _

end Segment

/-! ## Words that stand side by side -/

namespace SetOut

variable {p : Position} {us ws vs : List (Terminal × Lexeme)} {x : Terminal × Lexeme}
  {cs : List Char}

/-- Where the rest of the words begins. -/
theorem exists_of_append (h : SetOut p (us ++ ws) cs) :
    ∃ pre rest, cs = pre ++ rest ∧ SetOut (p.afterAll pre) ws rest := by
  induction us generalizing p cs with
  | nil => exact ⟨[], cs, rfl, h⟩
  | cons x us ih =>
    cases h with
    | @cons _ t g w rest _ hg hrest hws =>
      obtain ⟨pre, rest', rfl, h⟩ := ih hws
      refine ⟨g ++ w ++ pre, rest', by simp, ?_⟩
      rwa [Position.afterAll_append]

/-- The first word stands behind white space. -/
theorem exists_of_cons (h : SetOut p (x :: ws) cs) :
    ∃ g rest, cs = g ++ rest ∧ x.2.start = p.afterAll g ∧ SetOut (p.afterAll g) (x :: ws) rest := by
  cases h with
  | @cons _ t g w rest _ hg hrest hws =>
    refine ⟨g, w ++ rest, rfl, rfl, .cons (g := []) (by simp [IsBlank]) hrest ?_⟩
    rwa [List.nil_append, ← Position.afterAll_append]

/-- Up to the last of some words, a text consists of them, with white space between them. -/
theorem exists_spaced {z : Terminal × Lexeme} (h : SetOut p (ws ++ vs) cs)
    (hws : ∀ x ∈ ws, x.1.Matches x.2.text) (hz : ws.getLast? = some z) :
    ∃ mid rest, cs = mid ++ rest ∧ mid ≠ [] ∧ z.2.stop = p.afterAll mid.dropLast ∧
      Spaced (ws.map fun x => x.2.text) mid := by
  induction ws generalizing p cs with
  | nil => exact absurd hz (by simp)
  | cons x ws ih =>
    cases h with
    | @cons _ t g w rest _ hg hrest hset =>
      obtain ⟨y, v, hw, hy⟩ := Terminal.exists_cons_of_matches (hws _ List.mem_cons_self)
      cases ws with
      | nil =>
        -- the last word ends the piece, so its last character is where it stops
        obtain rfl := Option.some.inj hz
        have hne : w ≠ [] := List.ne_nil_of_mem (hw ▸ List.mem_cons_self)
        refine ⟨g ++ w, rest, by simp, by simp [hne], ?_, ?_⟩
        · rw [List.dropLast_append_of_ne_nil hne, Position.afterAll_append]
          rfl
        · have hlast : Spaced [w] (g ++ (w ++ ([] ++ []))) :=
            .cons hg (by simp [IsBlank]) (fun h => absurd rfl h) (.nil (by simp [IsBlank]))
          rwa [List.append_nil, List.append_nil] at hlast
      | cons x' ws =>
        have hws' := fun x hx => hws x (List.mem_cons_of_mem _ hx)
        obtain ⟨mid, rest', rfl, hne, hstop, hspaced⟩ := ih hset hws' hz
        obtain ⟨c, mid, rfl⟩ := List.exists_cons_of_ne_nil hne
        have hc : IsBlank [c] := by simpa [IsBlank] using hrest
        refine ⟨g ++ (w ++ (c :: mid)), rest', by simp, by simp, ?_, ?_⟩
        · rw [hstop, ← Position.afterAll_append, ← List.append_assoc,
            List.dropLast_append_of_ne_nil (by simp)]
        · exact .cons hg hc (fun _ => by simp) (hspaced.of_blank_append (g := [c]) hws' hc)

/-- From the first to the last of some words that stand side by side, a text consists of them, with
white space between them. -/
theorem spaced_text {a z : Terminal × Lexeme} (h : SetOut .origin (us ++ ws ++ vs) cs)
    (hws : ∀ x ∈ ws, x.1.Matches x.2.text) (ha : ws.head? = some a) (hz : ws.getLast? = some z) :
    Spaced (ws.map fun x => x.2.text) (Span.text cs ⟨a.2.start, z.2.stop⟩) := by
  rw [List.append_assoc] at h
  obtain ⟨ws', rfl⟩ := List.head?_eq_some_iff.1 ha
  obtain ⟨pre, rest, rfl, hws'⟩ := h.exists_of_append
  rw [List.cons_append] at hws'
  obtain ⟨g, rest, rfl, hstart, hfirst⟩ := hws'.exists_of_cons
  obtain ⟨mid, rest, rfl, hne, hstop, hspaced⟩ := hfirst.exists_spaced hws hz
  have hpos := List.length_pos_iff.2 hne
  have hoffset : a.2.start.offset = (pre ++ g).length := by
    rw [hstart, ← Position.afterAll_append, Position.offset_afterAll]
    exact Nat.zero_add _
  have hlength : z.2.stop.offset + 1 - (pre ++ g).length = mid.length := by
    rw [hstop, Position.offset_afterAll, Position.offset_afterAll, Position.offset_afterAll,
      List.length_dropLast, List.length_append]
    show 0 + pre.length + g.length + (mid.length - 1) + 1 - (pre.length + g.length) = mid.length
    omega
  rw [Span.text]
  show Spaced _ (((pre ++ (g ++ (mid ++ rest))).drop a.2.start.offset).take
    (z.2.stop.offset + 1 - a.2.start.offset))
  rwa [hoffset, ← List.append_assoc, List.drop_left, hlength, List.take_left]

end SetOut

end CadenceEntry
