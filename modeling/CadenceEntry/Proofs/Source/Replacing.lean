import CadenceEntry.Proofs.Source.Covering
import CadenceEntry.Proofs.Syntax.Evaluation

/-!
# Replacing the end of a text

What is read of a text is not changed when the text behind it is replaced by another one that does
not run into it: `Replaceable` is what the new text must satisfy. A word can depend on the text
behind it by more than the next character (`0x` is no integer literal before a hexadecimal digit,
`import` is a keyword in `importA` where no name is looked for), so it does not suffice that the
word is complete; but it is found again if the text up to the replaced part is kept.
-/

set_option autoImplicit false

namespace CadenceEntry

open Grammar

/-- The first line of a text has no words. -/
def BeginsBlank (cs : List Char) : Prop :=
  ∃ u rest, cs = u ++ rest ∧ (∀ x ∈ u, WordClass.separates x = true ∧ x ≠ '\n') ∧
    (rest = [] ∨ rest.head? = some '\n')

/-- A text that is empty or begins with a line feed has no words in its first line. -/
theorem beginsBlank_of_head? {cs : List Char} (h : cs = [] ∨ cs.head? = some '\n') :
    BeginsBlank cs :=
  ⟨[], cs, rfl, by simp, h⟩

/-- The text `new` can stand in the place of `old`: it begins with white space or with a brace, so
it is not taken for a part of a word before it, nor, if the end of a line stood there, for a part of
a comment. -/
structure Replaceable (old new : List Char) : Prop where
  head : new = old ∨ ∃ x cs, new = x :: cs ∧ (WordClass.separates x = true ∨ x = '\x7b')
  line : old = [] ∨ old.head? = some '\n' → BeginsBlank new

namespace WordClass

/-- White space and opening braces do not continue the words of terminals. -/
theorem stops_of_separates {c : WordClass} {t : Terminal} (hc : c.terminal? = some t) {x : Char}
    (hx : separates x = true ∨ x = '\x7b') (cs : List Char) : c.Stops (x :: cs) := by
  intro y hy
  obtain rfl := Option.some.inj hy
  rcases hx with hx | rfl
  · have hnot := Terminal.continues_of_separates (t := t) hx
    rwa [Terminal.continues, Terminal.class?_eq_some_iff.2 hc] at hnot
  · cases c <;> first | rfl | exact absurd hc (by simp [terminal?])

/-- A line comment is two slashes and the rest of a line. -/
theorem lineComment_length?_iff {w : List Char} :
    lineComment.length? w = some w.length ↔ ∃ v, w = '/' :: '/' :: v ∧ ∀ x ∈ v, x ≠ '\n' := by
  constructor
  · intro h
    obtain ⟨v, rfl, hlength⟩ := lineCommentLength?_eq_some_iff.1 h
    have hrun : run (· != '\n') v = v.length := by
      simp only [List.length_cons] at hlength
      omega
    refine ⟨v, rfl, fun x hx => ?_⟩
    have hx' : x ∈ v.take (run (· != '\n') v) := by
      rw [hrun, List.take_length]
      exact hx
    simpa using of_mem_take_run hx'
  · rintro ⟨v, rfl, hv⟩
    have hrun : run (· != '\n') v = v.length := by
      unfold run
      rw [List.takeWhile_eq_self_iff.2 (by simpa using hv)]
    refine lineCommentLength?_eq_some_iff.2 ⟨v, rfl, ?_⟩
    rw [hrun]
    rfl

/-- A line comment ends where its line does. -/
theorem ends_of_lineComment {w rest : List Char}
    (h : lineComment.length? (w ++ rest) = some w.length) :
    rest = [] ∨ rest.head? = some '\n' := by
  have htake := (length?_take h).2
  rw [List.take_left] at htake
  obtain ⟨v, rfl, hv⟩ := lineComment_length?_iff.1 htake
  simp only [length?, List.cons_append, lineCommentLength?, Option.some.injEq,
    List.length_cons] at h
  cases rest with
  | nil => exact .inl rfl
  | cons x rest =>
    refine .inr ?_
    by_contra hx
    have hx' : x ≠ '\n' := fun heq => hx (congrArg some heq)
    have hrun : run (· != '\n') (v ++ x :: rest) = v.length + run (· != '\n') (x :: rest) := by
      unfold run
      rw [List.takeWhile_append_of_pos (by simpa using hv), List.length_append]
    rw [hrun, run_cons, if_pos (by simpa using hx')] at h
    omega

end WordClass

namespace Grammar.Terminal

/-- Behind its first character a spelling has letters only. -/
theorem continuesName_of_mem_chars? {t : Terminal} (ht : t ∈ fixed) {x : Char} {w : List Char}
    (hw : t.chars? = some (x :: w)) : ∀ y ∈ w, WordClass.continuesName y = true := by
  have hall : ∀ t ∈ fixed, ((t.chars?.getD []).drop 1).all WordClass.continuesName = true := by
    decide
  have h := hall t ht
  rw [hw] at h
  exact List.all_eq_true.1 h

/-- A spelling at the beginning of a text stood there before an end of the text was replaced. -/
theorem prefix_of_replaceable {t : Terminal} (ht : t ∈ fixed) {w v old new : List Char}
    (hw : t.chars? = some w) (hv : v ≠ []) (hnew : Replaceable old new) (h : w <+: v ++ new) :
    w <+: v ++ old := by
  rcases List.prefix_or_prefix_of_prefix h (List.prefix_append v new) with hwv | ⟨z, rfl⟩
  · exact hwv.trans (List.prefix_append v old)
  · rw [List.prefix_append_right_inj] at h
    rcases hnew.head with rfl | ⟨x, cs, rfl, hx⟩
    · exact List.prefix_append_right_inj v |>.2 h
    · cases z with
      | nil =>
        rw [List.append_nil]
        exact List.prefix_append v old
      | cons y z =>
        obtain ⟨z', hz⟩ := h
        obtain ⟨rfl, -⟩ := List.cons.inj hz
        obtain ⟨y', v', rfl⟩ := List.exists_cons_of_ne_nil hv
        have hy := continuesName_of_mem_chars? ht hw y (by simp)
        rcases hx with hx | rfl
        · have hnot := continues_of_separates (t := .name) hx
          have hy' : WordClass.continuesName y = false := hnot
          rw [hy] at hy'
          exact absurd hy' (by simp)
        · exact absurd hy (by decide)

end Grammar.Terminal

namespace Piece

variable {q : State} {v old new : List Char} {t : Terminal} {n : Nat}

/-- A spelling that is found is found again, if no other one is found in its stead. -/
theorem ofSpelling?_congr {ts : List Terminal} {cs cs' : List Char}
    (h : ofSpelling? ts cs = some (word t n))
    (hnot : ∀ s ∈ ts, ∀ w, s.chars? = some w → w <+: cs' → w <+: cs)
    (hyes : ∀ w, t.chars? = some w → w <+: cs → w <+: cs') :
    ofSpelling? ts cs' = some (word t n) := by
  induction ts with
  | nil => exact absurd h (by simp [ofSpelling?])
  | cons s ts ih =>
    unfold ofSpelling? at h ⊢
    rw [List.findSome?_cons] at h ⊢
    cases hs : s.spelling? with
    | none =>
      simp only [hs, Option.bind_none] at h ⊢
      exact ih h fun s hs => hnot s (List.mem_cons_of_mem _ hs)
    | some w =>
      have hw : s.chars? = some w.toList := by rw [Terminal.chars?, hs, Option.map_some]
      simp only [hs, Option.bind_some] at h ⊢
      by_cases hstart : (w.toList.isPrefixOf cs && decide (0 < w.length)) = true
      · -- this is the spelling that is found
        rw [if_pos hstart] at h
        obtain ⟨rfl, rfl⟩ := Piece.word.inj (Option.some.inj h)
        simp only [Bool.and_eq_true, List.isPrefixOf_iff_prefix] at hstart
        rw [if_pos]
        simp only [Bool.and_eq_true, List.isPrefixOf_iff_prefix]
        exact ⟨hyes _ hw hstart.1, hstart.2⟩
      · rw [if_neg hstart] at h
        rw [if_neg]
        · exact ih h fun s hs => hnot s (List.mem_cons_of_mem _ hs)
        · simp only [Bool.and_eq_true, List.isPrefixOf_iff_prefix] at hstart ⊢
          exact fun h' => hstart ⟨hnot s List.mem_cons_self _ hw h'.1, h'.2⟩

/-- A word is found again when the end of the text behind it is replaced. -/
theorem next?_of_replaceable (h : next? q (v ++ old) = some (word t n)) (hn : n ≤ v.length)
    (hnew : Replaceable old new) : next? q (v ++ new) = some (word t n) := by
  have hpos : 0 < n := length_pos_of_next? h
  have hv : v ≠ [] := by
    rintro rfl
    exact absurd hn (by simp; omega)
  have htake : (v ++ new).take n = (v ++ old).take n := by
    rw [List.take_append_of_le_length hn, List.take_append_of_le_length hn]
  rcases next?_cases h with ⟨c, m, hc, hm, heq⟩ | ⟨-, hspelling⟩
  · cases hterminal : c.terminal? with
    | none =>
      rw [ofClass, hterminal] at heq
      exact absurd heq (by simp)
    | some s =>
      have hlength : ((v ++ old).take m).length = m :=
        List.length_take_of_le (WordClass.length?_take hm).1
      obtain rfl : n = m := by
        rw [ofClass, hterminal] at heq
        rw [(Piece.word.inj heq).2, hlength]
      have hkept := (WordClass.length?_take_of_le hm hn).2
      rw [List.take_left] at hkept
      have hlength' : c.length? (v ++ new) = some n := by
        rcases hnew.head with rfl | ⟨x, cs, rfl, hx⟩
        · exact hm
        · exact WordClass.length?_append hkept (WordClass.stops_of_separates hterminal hx cs)
      rw [next?_of_class hc hlength', htake, heq]
  · obtain ⟨s, hs, w, hw, hstart, heq⟩ := exists_of_ofSpelling? hspelling
    obtain ⟨rfl, rfl⟩ := Piece.word.inj heq
    obtain ⟨hfixed, hprop⟩ := List.mem_filter.1 hs
    simp only [Bool.and_eq_true, Bool.not_eq_true'] at hprop
    have hwv : w <+: v := List.prefix_of_prefix_length_le hstart (List.prefix_append v old) hn
    have hnone : ∀ c ∈ q.wordClasses, c.length? (v ++ new) = none := by
      obtain ⟨z, rfl⟩ := hwv
      rw [List.append_assoc]
      exact no_class_of_not_absorbs hfixed hw hprop.2 (z ++ new)
    rw [next?_of_no_class hnone]
    refine ofSpelling?_congr hspelling (fun s hs w hw => ?_) (fun w' hw' _ => ?_)
    · exact Terminal.prefix_of_replaceable (List.mem_filter.1 hs).1 hw hv hnew
    · rw [hw] at hw'
      rw [← Option.some.inj hw']
      exact hwv.trans (List.prefix_append v new)

end Piece

namespace NextWord

variable {q : State} {p : Position} {w z z' : List Char}

/-- A gap is skipped whatever comes behind it, unless it is a comment that goes on. -/
theorem read_of_gap_append (h : Piece.next? q (w ++ z) = some (.gap w.length))
    (hline : z = [] ∨ z.head? = some '\n' → BeginsBlank z') :
    read q ⟨p, w ++ z'⟩ = read q ⟨p.afterAll w, z'⟩ := by
  have hskip : ∀ v rest, IsBlank v →
      read q ⟨p.afterAll w, v ++ rest⟩ = read q ⟨(p.afterAll w).afterAll v, rest⟩ := by
    intro v rest hv
    rw [read_of_isBlank (c := ⟨p.afterAll w, v ++ rest⟩) hv rfl, Cursor.advance, List.take_left,
      List.drop_left]
  have hfound : ∀ {c : WordClass} {v rest : List Char}, c ∈ q.wordClasses →
      c.terminal? = none → c.length? (v ++ rest) = some v.length →
      read q ⟨p, v ++ rest⟩ = read q ⟨p.afterAll v, rest⟩ := by
    intro c v rest hc hterminal hlength
    have hnext := Piece.next?_of_class hc hlength
    rw [List.take_left, Piece.ofClass, hterminal] at hnext
    rw [read_of_gap (c := ⟨p, v ++ rest⟩) hnext, Cursor.advance, List.take_left, List.drop_left]
  obtain ⟨c, hterminal, hc, hlength⟩ := Piece.exists_class_of_gap h
  have hself := (WordClass.length?_take hlength).2
  rw [List.take_left] at hself
  cases c with
  | blockComment =>
    exact hfound hc hterminal (WordClass.length?_append hself fun _ _ => rfl)
  | blanks =>
    have hw : IsBlank w := by
      intro x hx
      obtain ⟨hrun, -⟩ := WordClass.run?_eq_some_iff.1 hself
      have hx' : x ∈ w.take (WordClass.run WordClass.separates w) := by
        rw [hrun, List.take_length]
        exact hx
      exact WordClass.of_mem_take_run hx'
    rw [read_of_isBlank (c := ⟨p, w ++ z'⟩) hw rfl, Cursor.advance, List.take_left, List.drop_left]
  | lineComment =>
    obtain ⟨u, rest, rfl, hu, hrest⟩ := hline (WordClass.ends_of_lineComment hlength)
    obtain ⟨v, rfl, hv⟩ := WordClass.lineComment_length?_iff.1 hself
    have hlonger : WordClass.lineComment.length? (('/' :: '/' :: v) ++ u) =
        some (('/' :: '/' :: v) ++ u).length := by
      refine WordClass.lineComment_length?_iff.2 ⟨v ++ u, rfl, fun x hx => ?_⟩
      rcases List.mem_append.1 hx with hx | hx
      · exact hv x hx
      · exact (hu x hx).2
    have hstops : WordClass.lineComment.Stops rest := by
      intro x hx
      rcases hrest with rfl | hrest
      · exact absurd hx (by simp)
      · rw [hrest] at hx
        obtain rfl := Option.some.inj hx
        rfl
    rw [hskip u rest fun x hx => (hu x hx).1, ← List.append_assoc,
      hfound hc hterminal (WordClass.length?_append hlonger hstops), Position.afterAll_append]
  | integer => exact absurd hterminal (by simp [WordClass.terminal?])
  | statement => exact absurd hterminal (by simp [WordClass.terminal?])
  | name => exact absurd hterminal (by simp [WordClass.terminal?])
  | string => exact absurd hterminal (by simp [WordClass.terminal?])
  | address => exact absurd hterminal (by simp [WordClass.terminal?])

/-- The next piece is white space or a comment, and `c'` is behind it. -/
def SkipsOne (q : State) (c c' : Cursor) : Prop :=
  ∃ n, Piece.next? q c.rest = some (.gap n) ∧ c' = c.advance n

/-- Between the two cursors there is only white space, and comments. -/
def Skips (q : State) : Cursor → Cursor → Prop := Relation.ReflTransGen (SkipsOne q)

/-- What is read behind white space and comments is what is read before them. -/
theorem Skips.read_eq {c c' : Cursor} (h : Skips q c c') : read q c = read q c' := by
  induction h with
  | refl => rfl
  | tail _ hstep ih =>
    obtain ⟨n, hnext, rfl⟩ := hstep
    exact ih.trans (read_of_gap hnext)

/-- What is skipped is a part of the text. -/
theorem Skips.exists_rest {c c' : Cursor} (h : Skips q c c') :
    ∃ y, c.rest = y ++ c'.rest ∧ c'.place = c.place.afterAll y := by
  induction h with
  | refl => exact ⟨[], rfl, rfl⟩
  | @tail c₁ c₂ _ hstep ih =>
    obtain ⟨y, hrest, hplace⟩ := ih
    obtain ⟨n, -, rfl⟩ := hstep
    refine ⟨y ++ c₁.rest.take n, ?_, ?_⟩
    · rw [hrest, List.append_assoc, Cursor.advance, List.take_append_drop]
    · rw [Cursor.advance, hplace, Position.afterAll_append]

/-- Before a word what is no word is skipped. -/
theorem exists_skips_of_word {c c' : Cursor} {t : Terminal} {w : Lexeme}
    (h : read q c = .word t w c') :
    Skips q c ⟨w.start, w.text ++ c'.rest⟩ ∧
      Piece.next? q (w.text ++ c'.rest) = some (.word t w.text.length) ∧
      c'.place = w.start.afterAll w.text := by
  unfold read at h
  fun_induction readBy (Piece.next? q) c with
  | case1 => exact absurd h (by simp)
  | case2 => exact absurd h (by simp)
  | case3 c hc t' n hp hnext =>
    obtain ⟨rfl, rfl, rfl⟩ := NextWord.word.inj h
    have hle := (Piece.matches_of_next? hnext).1
    have hsplit : (c.lexeme n).text ++ (c.advance n).rest = c.rest := List.take_append_drop n c.rest
    refine ⟨?_, ?_, rfl⟩
    · rw [hsplit]
      exact .refl
    · rw [hsplit, hnext, Cursor.lexeme, List.length_take_of_le hle]
  | case4 c hc n _ hnext _ ih =>
    obtain ⟨hskips, hfound⟩ := ih h
    exact ⟨.head ⟨n, hnext, rfl⟩ hskips, hfound⟩
  | case5 => exact absurd h (by simp)

/-- Before the end of a text what is no word is skipped. -/
theorem exists_skips_of_finish {c : Cursor} (h : read q c = .finish) :
    ∃ p, Skips q c ⟨p, []⟩ := by
  unfold read at h
  fun_induction readBy (Piece.next? q) c with
  | case1 c hc =>
    refine ⟨c.place, ?_⟩
    rw [← hc]
    exact .refl
  | case2 => exact absurd h (by simp)
  | case3 => exact absurd h (by simp)
  | case4 c hc n _ hnext _ ih =>
    obtain ⟨p, hskips⟩ := ih h
    exact ⟨p, .head ⟨n, hnext, rfl⟩ hskips⟩
  | case5 => exact absurd h (by simp)

/-- What is skipped is still skipped when the text behind it is replaced. -/
theorem Skips.read_of_replaced {c c' : Cursor} (h : Skips q c c') {y new : List Char}
    (hy : c.rest = y ++ c'.rest)
    (hline : c'.rest = [] ∨ c'.rest.head? = some '\n' → BeginsBlank new) :
    read q ⟨c.place, y ++ new⟩ = read q ⟨c'.place, new⟩ := by
  induction h using Relation.ReflTransGen.head_induction_on generalizing y with
  | refl =>
    obtain rfl : y = [] := by simpa using hy
    rfl
  | @head c c₁ hstep hskips ih =>
    obtain ⟨n, hnext, rfl⟩ := hstep
    have hle := (Piece.isGap_of_next? hnext).1
    obtain ⟨y₁, hrest, -⟩ := Skips.exists_rest hskips
    have hsplit : c.rest = c.rest.take n ++ (y₁ ++ c'.rest) := by
      rw [← hrest]
      exact (List.take_append_drop n c.rest).symm
    obtain rfl : y = c.rest.take n ++ y₁ := by
      rw [← List.append_assoc, hy] at hsplit
      exact List.append_cancel_right (hsplit.trans (by rw [hy]))
    have hlength : (c.rest.take n).length = n := List.length_take_of_le hle
    have hgap : Piece.next? q (c.rest.take n ++ (y₁ ++ c'.rest)) =
        some (.gap (c.rest.take n).length) := by
      rw [← hsplit, hlength]
      exact hnext
    rw [List.append_assoc, read_of_gap_append hgap, ← ih hrest]
    · rfl
    · intro hend
      cases y₁ with
      | nil => exact hline hend
      | cons x y₁ =>
        refine beginsBlank_of_head? (.inr ?_)
        rcases hend with hend | hend
        · exact absurd hend (by simp)
        · exact hend

/-- A word is read again when the end of the text behind it is replaced, if it is found again where
it stands. -/
theorem read_of_next? {p' : Position} {y y' old new : List Char} {t : Terminal} {w : Lexeme}
    (h : read q ⟨p, y ++ old⟩ = .word t w ⟨p', y' ++ old⟩)
    (hnext : Piece.next? q ((w.text ++ y') ++ old) = some (.word t w.text.length) →
      Piece.next? q ((w.text ++ y') ++ new) = some (.word t w.text.length)) :
    read q ⟨p, y ++ new⟩ = .word t w ⟨p', y' ++ new⟩ := by
  obtain ⟨hskips, hfound, hplace⟩ := exists_skips_of_word h
  obtain ⟨z, hz, -⟩ := hskips.exists_rest
  have hne : w.text ≠ [] := by
    intro hnil
    have hpos := Piece.length_pos_of_next? hfound
    rw [hnil] at hpos
    exact absurd hpos (by simp [Piece.length])
  obtain rfl : y = z ++ w.text ++ y' := by
    have hy : y ++ old = (z ++ w.text ++ y') ++ old := by simpa using hz
    exact List.append_cancel_right hy
  have hskipped : read q ⟨p, z ++ (w.text ++ (y' ++ new))⟩ =
      read q ⟨w.start, w.text ++ (y' ++ new)⟩ := by
    refine hskips.read_of_replaced hz ?_
    rintro (hend | hend)
    · exact absurd (List.append_eq_nil_iff.1 hend).1 hne
    · obtain ⟨x, v, hv⟩ := List.exists_cons_of_ne_nil hne
      rw [hv] at hend ⊢
      exact beginsBlank_of_head? (.inr hend)
  rw [← List.append_assoc] at hfound
  have hfound' := hnext hfound
  rw [List.append_assoc] at hfound'
  rw [List.append_assoc, List.append_assoc, hskipped,
    read_of_word (c := ⟨w.start, w.text ++ (y' ++ new)⟩) hfound', Cursor.lexeme, Cursor.advance,
    List.take_left, List.drop_left, ← hplace]

/-- A word is read again when the end of the text behind it is replaced. -/
theorem read_of_replaced {p' : Position} {y y' old new : List Char} {t : Terminal} {w : Lexeme}
    (h : read q ⟨p, y ++ old⟩ = .word t w ⟨p', y' ++ old⟩) (hnew : Replaceable old new) :
    read q ⟨p, y ++ new⟩ = .word t w ⟨p', y' ++ new⟩ :=
  read_of_next? h fun hnext => Piece.next?_of_replaceable hnext (by simp) hnew

end NextWord

mutual

/-- A derivation is read again when the end of the text behind it is replaced. -/
theorem Grammar.Derivation.reads_of_replaced {s : Symbol} (d : Derivation s) {q q₁ q₂ : State}
    {p₁ p₂ : Position} {y y' old new : List Char}
    (hd : d.Reads q ⟨q₁, p₁, y ++ old⟩ ⟨q₂, p₂, y' ++ old⟩) (hnew : Replaceable old new) :
    d.Reads q ⟨q₁, p₁, y ++ new⟩ ⟨q₂, p₂, y' ++ new⟩ :=
  match d with
  | .leaf t w => ⟨NextWord.read_of_replaced hd.1 hnew, hd.2⟩
  | .node p ds => ds.reads_of_replaced hd hnew

/-- Derivations are read again when the end of the text behind them is replaced. -/
theorem Grammar.Derivations.reads_of_replaced {ss : List Symbol} (ds : Derivations ss)
    {q q₁ q₂ : State} {p₁ p₂ : Position} {y y' old new : List Char}
    (hds : ds.Reads q ⟨q₁, p₁, y ++ old⟩ ⟨q₂, p₂, y' ++ old⟩) (hnew : Replaceable old new) :
    ds.Reads q ⟨q₁, p₁, y ++ new⟩ ⟨q₂, p₂, y' ++ new⟩ :=
  match ds with
  | .nil => by
    obtain ⟨rfl, hcursor⟩ := Source.Head.mk.inj hds
    obtain ⟨rfl, hrest⟩ := Cursor.mk.inj hcursor
    rw [List.append_cancel_right hrest]
    rfl
  | .cons d ds => by
    obtain ⟨⟨q', p, cs⟩, q'', hd, hmove, hds⟩ := hds
    obtain ⟨ss, ⟨hrest, -, -⟩, -⟩ := ds.exists_segments hds
    obtain ⟨z, rfl⟩ : ∃ z, cs = z ++ old := by
      refine ⟨Segment.join ss ++ y', ?_⟩
      rw [List.append_assoc]
      exact hrest
    exact ⟨⟨q', p, z ++ new⟩, q'', d.reads_of_replaced hd hnew, hmove,
      ds.reads_of_replaced hds hnew⟩

end

/-! ## Before a line feed -/

/-- Behind a line feed it does not matter what ended before it. -/
theorem NextWord.read_of_finish_append {q : State} {p : Position} {y : List Char}
    (h : read q ⟨p, y⟩ = .finish) (cs : List Char) :
    read q ⟨p, y ++ '\n' :: cs⟩ = read q ⟨p.afterAll (y ++ ['\n']), cs⟩ := by
  obtain ⟨p', hskips⟩ := exists_skips_of_finish h
  obtain ⟨z, hz, hplace⟩ := hskips.exists_rest
  obtain rfl : y = z := by simpa using hz
  have hplace' : p' = p.afterAll y := hplace
  have hskipped : read q ⟨p, y ++ '\n' :: cs⟩ = read q ⟨p', '\n' :: cs⟩ :=
    hskips.read_of_replaced hz fun _ => beginsBlank_of_head? (.inr rfl)
  have hblank : IsBlank ['\n'] := by decide
  rw [hskipped, hplace', read_of_isBlank (c := ⟨p.afterAll y, '\n' :: cs⟩) hblank rfl,
    Position.afterAll_append]
  rfl

/-- A derivation is read again when a line feed and more text come behind the text. -/
theorem Grammar.Derivation.reads_before_lineFeed {s : Symbol} (d : Derivation s) {q q₁ q₂ : State}
    {p₁ p₂ : Position} {cs y : List Char} (hd : d.Reads q ⟨q₁, p₁, cs⟩ ⟨q₂, p₂, y⟩)
    (ds : List Char) :
    d.Reads q ⟨q₁, p₁, cs ++ '\n' :: ds⟩ ⟨q₂, p₂, y ++ '\n' :: ds⟩ := by
  have hreplaceable : Replaceable [] ('\n' :: ds) :=
    ⟨.inr ⟨_, _, rfl, .inl (by decide)⟩, fun _ => beginsBlank_of_head? (.inr rfl)⟩
  rw [← List.append_nil cs, ← List.append_nil y] at hd
  exact d.reads_of_replaced hd hreplaceable

end CadenceEntry
