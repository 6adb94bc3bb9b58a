import CadenceEntry.Proofs.Grammar.Reduction
import CadenceEntry.Proofs.Source.Spelling
import CadenceEntry.Source.NextWord

/-!
# Finding a word

In every state at most one word class has a word at the beginning of a text. So a word that the
state admits is found where it stands, if nothing that could continue it comes behind it and, for a
name, if the state does not admit a keyword of the same spelling: `next?_of_matches`. What is found
is conversely always a word of its terminal, or white space, or a comment: `matches_of_next?` and
`isGap_of_next?`.
-/

set_option autoImplicit false

namespace CadenceEntry

open Grammar

namespace WordClass

/-- Text of a body begins no comment. -/
theorem not_comment_of_statement {cs : List Char} {n : Nat}
    (h : statement.length? cs = some n) :
    blockComment.length? cs = none ∧ lineComment.length? cs = none := by
  have hmark : ∀ x ds, cs = '/' :: x :: ds → x ≠ '*' ∧ x ≠ '/' := by
    rintro x ds rfl
    replace h : statementLength? ('/' :: x :: ds) = some n := h
    rcases statementLength?_eq_some_iff.1 h with ⟨ds', heq, hline, hblock, -⟩ | hrun
    · obtain ⟨-, rfl⟩ := List.cons.inj heq
      exact ⟨fun hx => hblock (congrArg some hx), fun hx => hline (congrArg some hx)⟩
    · exact absurd (of_run?_cons hrun) (by decide)
  simp only [Option.eq_none_iff_forall_ne_some]
  constructor
  · intro k hk
    obtain ⟨ds, -, heq, -⟩ := blockCommentLength?_eq_some_iff.1 hk
    exact (hmark _ ds heq).1 rfl
  · intro k hk
    obtain ⟨ds, heq, -⟩ := lineCommentLength?_eq_some_iff.1 hk
    exact (hmark _ ds heq).2 rfl

/-- A block comment is no line comment. -/
theorem not_lineComment_of_blockComment {cs : List Char} {n : Nat}
    (h : blockComment.length? cs = some n) : lineComment.length? cs = none := by
  obtain ⟨ds, k, rfl, -⟩ := blockCommentLength?_eq_some_iff.1 h
  rfl

/-- Two classes of which no state looks for both terminals: a text can begin with words of both. -/
def clashes : WordClass → WordClass → Bool
  | integer, statement | statement, integer | integer, address | address, integer
  | name, statement | statement, name | address, statement | statement, address => true
  | _, _ => false

/-- What the code of a character says if a word of the class can begin with it. -/
theorem code_of_begins {c : WordClass} {x : Char} (h : c.begins x = true) :
    match c with
    | integer => 48 ≤ x.toNat ∧ x.toNat ≤ 57
    | statement => x.toNat ≠ 34 ∧ separates x = false
    | name => 65 ≤ x.toNat
    | string => x.toNat = 34
    | address => x.toNat = 48
    | blanks => separates x = true ∧ x.toNat ≤ 32
    | blockComment | lineComment => x.toNat = 47 := by
  cases c <;> simp only [begins, beq_iff_eq, ← Char.toNat_inj, Bool.or_eq_true] at h ⊢
  case integer => exact isDigit_iff.1 h
  case name =>
    rw [beginsName_iff] at h
    omega
  case blanks =>
    refine ⟨h, ?_⟩
    rw [separates_iff] at h
    omega
  case statement =>
    rcases h with h | h
    · obtain ⟨-, -, hquote, -, hblank⟩ := isOrdinary_iff.1 h
      refine ⟨hquote, ?_⟩
      rw [Bool.eq_false_iff, ne_eq, separates_iff]
      rintro (hx | hx | hx | hx | hx) <;> simp [Text.isBlank, hx] at hblank
    · refine ⟨by rw [h]; decide, ?_⟩
      rw [Bool.eq_false_iff, ne_eq, separates_iff, h]
      decide
  all_goals exact h

/-- Two classes with words at the beginning of a text are the same or clash. -/
theorem eq_or_clashes {c c' : WordClass} {cs : List Char} {n n' : Nat} (h : c.length? cs = some n)
    (h' : c'.length? cs = some n') : c = c' ∨ c.clashes c' = true := by
  cases cs with
  | nil => exact absurd h (by simp [length?_nil])
  | cons x cs =>
    have hx := code_of_begins (begins_of_length? h)
    have hx' := code_of_begins (begins_of_length? h')
    cases c <;> cases c' <;> first
      | exact .inl rfl
      | exact .inr rfl
      | exfalso
        simp only at hx hx'
        first
          | omega
          | simp [not_comment_of_statement h] at h'
          | simp [not_comment_of_statement h'] at h
          | simp [not_lineComment_of_blockComment h] at h'
          | simp [not_lineComment_of_blockComment h'] at h
          | simp [hx] at hx'

end WordClass

namespace Grammar.State

/-- Whether the row looks for words of bodies only among words and braces, and not for integer
literals and addresses at once. -/
def tellsClassesApart (r : Row) : Bool :=
  (!r.admits (.word .statement) || Terminal.all.all fun t =>
    [Terminal.statement, .string, .leftBrace, .rightBrace].contains t ||
      !r.admits (.word t)) &&
  !(r.admits (.word .integer) && r.admits (.word .address))

/-- Every state tells the word classes apart. -/
theorem tellsClassesApart_row (q : State) : tellsClassesApart q.row = true := by
  have hall : Table.rows.all tellsClassesApart = true := by decide +kernel
  rcases q.row_mem with h | h
  · exact List.all_eq_true.1 hall _ h
  · rw [h]
    decide

/-- Where text of a body is looked for, other words are not. -/
theorem not_admits_of_statement {q : State} (h : q.admits (.word .statement) = true) {t : Terminal}
    (ht : [Terminal.statement, .string, .leftBrace, .rightBrace].contains t = false) :
    q.admits (.word t) = false := by
  have hrow := tellsClassesApart_row q
  simp only [tellsClassesApart, Bool.and_eq_true, Bool.or_eq_true, Bool.not_eq_true',
    List.all_eq_true] at hrow
  unfold admits at h ⊢
  rcases hrow.1 with hnot | hall
  · rw [h] at hnot
    exact absurd hnot (by simp)
  · exact (hall t t.mem_all).resolve_left (by rw [ht]; simp)

/-- A class is tried if the state looks for its terminal, or if it has none. -/
theorem mem_wordClasses_iff {q : State} {c : WordClass} :
    c ∈ q.wordClasses ↔ ∀ t, c.terminal? = some t → q.admits (.word t) = true := by
  have hall : c ∈ WordClass.all := by cases c <;> decide
  unfold wordClasses
  rw [List.mem_filter]
  cases hc : c.terminal? with
  | none => simp [hall]
  | some t => simp [hall]

/-- Classes that clash are not tried in the same state. -/
theorem not_clashes {q : State} {c c' : WordClass} (hc : c ∈ q.wordClasses)
    (hc' : c' ∈ q.wordClasses) : c.clashes c' = false := by
  have hrow := tellsClassesApart_row q
  simp only [tellsClassesApart, Bool.and_eq_true, Bool.not_eq_true'] at hrow
  have hnumber := hrow.2
  have hstatement : ∀ t : Terminal,
      [Terminal.statement, .string, .leftBrace, .rightBrace].contains t = false →
      q.admits (.word t) = true → q.admits (.word .statement) = true → False := by
    intro t ht h h'
    rw [not_admits_of_statement h' ht] at h
    exact absurd h (by simp)
  rw [mem_wordClasses_iff] at hc hc'
  rw [Bool.eq_false_iff]
  intro hclash
  cases c <;> cases c' <;> simp only [WordClass.clashes, reduceCtorEq] at hclash
  all_goals
    have h := hc _ rfl
    have h' := hc' _ rfl
    first
      | exact hstatement _ rfl h h'
      | exact hstatement _ rfl h' h
      | unfold admits at h h'
        simp [h, h'] at hnumber

/-- Whether the state admits a terminal with the fixed spelling `w`. -/
def reserves (q : State) (w : List Char) : Bool :=
  Terminal.fixed.any fun k => q.admits (.word k) && k.chars? == some w

/-- Only names can have a spelling that a state reserves. -/
theorem reserves_of_class {q : State} {t : Terminal} {c : WordClass} {w : List Char}
    (hclass : t.class? = some c) (ht : t ≠ .name) (hadmits : q.admits (.word t) = true)
    (hw : c.length? w = some w.length) : q.reserves w = false := by
  rw [Bool.eq_false_iff]
  intro h
  obtain ⟨k, hk, hprop⟩ := List.any_eq_true.1 h
  simp only [Bool.and_eq_true, beq_iff_eq] at hprop
  rcases Terminal.eq_name_of_covers ((Terminal.covers_iff hprop.2).2 hw) with rfl | ⟨rfl, hk'⟩
  · exact ht (Option.some.inj (Terminal.class?_eq_some_iff.1 hclass)).symm
  · obtain rfl := Option.some.inj (Terminal.class?_eq_some_iff.1 hclass)
    rw [not_admits_of_statement hadmits hk'] at hprop
    exact absurd hprop.1 (by simp)

/-- A word stands for the class it is found in, unless the state reserves its spelling. -/
theorem classify_of_not_reserves {q : State} {t : Terminal} {w : List Char}
    (h : q.reserves w = false) : q.classify t w = t := by
  unfold classify
  rw [List.find?_eq_none.2, Option.getD_none]
  intro k hk
  have hnot := List.any_eq_false.1 h k hk
  exact hnot

/-- A word is taken for the terminal that the state reserves its spelling for. -/
theorem classify_of_chars? {q : State} {s t : Terminal} {w : List Char} (ht : t.chars? = some w)
    (hfixed : t ∈ Terminal.fixed) (hadmits : q.admits (.word t) = true) : q.classify s w = t := by
  unfold classify
  cases hfind : Terminal.fixed.find? fun k =>
      q.admits (.word k) && k.spelling?.map String.toList == some w with
  | none =>
    have hnot := List.find?_eq_none.1 hfind t hfixed
    rw [Terminal.chars?] at ht
    simp [hadmits, ht] at hnot
  | some k =>
    have hk := List.find?_some hfind
    simp only [Bool.and_eq_true, beq_iff_eq] at hk
    exact Terminal.chars?_injective hk.2 ht

/-- What a word is taken for is its class, if the state does not reserve its spelling, or a terminal
with its spelling that the state admits. -/
theorem classify_cases (q : State) (t : Terminal) (w : List Char) :
    q.classify t w = t ∧ q.reserves w = false ∨
      q.admits (.word (q.classify t w)) = true ∧ (q.classify t w).chars? = some w ∧
        q.classify t w ∈ Terminal.fixed := by
  by_cases hreserves : q.reserves w = true
  · obtain ⟨k, hk, hprop⟩ := List.any_eq_true.1 hreserves
    simp only [Bool.and_eq_true, beq_iff_eq] at hprop
    rw [classify_of_chars? hprop.2 hk hprop.1]
    exact .inr ⟨hprop.1, hprop.2, hk⟩
  · rw [Bool.not_eq_true] at hreserves
    exact .inl ⟨classify_of_not_reserves hreserves, hreserves⟩

end Grammar.State

namespace Piece

variable {q : State} {cs : List Char} {n : Nat}

/-- The piece that a word of the class `c` is in the state `q`. -/
def ofClass (q : State) (c : WordClass) (w : List Char) : Piece :=
  match c.terminal? with
  | some t => word (q.classify t w) w.length
  | none => gap w.length

/-- A word of a class that is tried is found, whatever the order of the classes. -/
theorem next?_of_class {c : WordClass} (hc : c ∈ q.wordClasses) (h : c.length? cs = some n) :
    next? q cs = some (ofClass q c (cs.take n)) := by
  have hfind : (q.wordClasses.findSome? fun c => (c.length? cs).map (c, ·)) = some (c, n) := by
    cases hfind : q.wordClasses.findSome? fun c => (c.length? cs).map (c, ·) with
    | none =>
      have hnone := List.findSome?_eq_none_iff.1 hfind c hc
      simp [h] at hnone
    | some x =>
      obtain ⟨c', hc', hx⟩ := List.exists_of_findSome?_eq_some hfind
      obtain ⟨n', hn', rfl⟩ := Option.map_eq_some_iff.1 hx
      rcases WordClass.eq_or_clashes h hn' with rfl | hclash
      · rw [h] at hn'
        rw [Option.some.inj hn']
      · rw [State.not_clashes hc hc'] at hclash
        exact absurd hclash (by simp)
  have hlength : (cs.take n).length = n := List.length_take_of_le (WordClass.length?_take h).1
  unfold next? ofClass
  rw [hfind, hlength]
  dsimp only
  cases c.terminal? <;> rfl

/-- Spellings are looked for where no class has a word. -/
theorem next?_of_no_class (h : ∀ c ∈ q.wordClasses, c.length? cs = none) :
    next? q cs = ofSpelling? q.fixedWords cs := by
  have hfind : (q.wordClasses.findSome? fun c => (c.length? cs).map (c, ·)) = none := by
    rw [List.findSome?_eq_none_iff]
    intro c hc
    rw [h c hc]
    rfl
  unfold next?
  rw [hfind]

/-- What comes next was found by its class, or no class has a word and it was found by its
spelling. -/
theorem next?_cases {p : Piece} (h : next? q cs = some p) :
    (∃ c n, c ∈ q.wordClasses ∧ c.length? cs = some n ∧ p = ofClass q c (cs.take n)) ∨
      (∀ c ∈ q.wordClasses, c.length? cs = none) ∧ ofSpelling? q.fixedWords cs = some p := by
  by_cases hnone : ∀ c ∈ q.wordClasses, c.length? cs = none
  · rw [next?_of_no_class hnone] at h
    exact .inr ⟨hnone, h⟩
  · rw [not_forall] at hnone
    obtain ⟨c, hc⟩ := hnone
    rw [Classical.not_imp] at hc
    obtain ⟨n, hn⟩ := Option.ne_none_iff_exists'.1 hc.2
    rw [next?_of_class hc.1 hn] at h
    exact .inl ⟨c, n, hc.1, hn, (Option.some.inj h).symm⟩

/-- Where a spelling is not left to a class no class has a word. -/
theorem no_class_of_not_absorbs {t : Terminal} {w : List Char} (hfixed : t ∈ Terminal.fixed)
    (hw : t.chars? = some w) (h : q.absorbs t = false) (rest : List Char) :
    ∀ c ∈ q.wordClasses, c.length? (w ++ rest) = none := by
  obtain ⟨x, w', hchars, hbegins⟩ := Terminal.exists_chars?_of_mem_fixed hfixed
  rw [hw] at hchars
  obtain rfl := Option.some.inj hchars
  intro c hc
  rw [Option.eq_none_iff_forall_ne_some]
  intro n hn
  have hx := WordClass.begins_of_length? hn
  rw [hbegins] at hx
  have hnot := List.any_eq_false.1 h c hc
  exact hnot hx

/-- A spelling is found if the ones that are looked for before it stand apart from it. -/
theorem ofSpelling?_of_chars? {ts : List Terminal} {t : Terminal} {w rest : List Char}
    (hts : ts.Pairwise fun s t => s.standsApart t = true) (ht : t ∈ ts) (hw : t.chars? = some w)
    (hpos : 0 < w.length) (hrest : t.Stops rest) :
    ofSpelling? ts (w ++ rest) = some (word t w.length) := by
  obtain ⟨s, hs, rfl⟩ := Option.map_eq_some_iff.1 hw
  obtain ⟨before, behind, rfl⟩ := List.append_of_mem ht
  unfold ofSpelling?
  rw [List.findSome?_append, List.findSome?_cons]
  have hbefore : (before.findSome? fun t => t.spelling?.bind fun s' =>
      if s'.toList.isPrefixOf (s.toList ++ rest) && 0 < s'.length then some (word t s'.length)
      else none) = none := by
    rw [List.findSome?_eq_none_iff]
    intro t' ht'
    cases hs' : t'.spelling? with
    | none => rfl
    | some s' =>
      have hapart := (List.pairwise_append.1 hts).2.2 t' ht' t List.mem_cons_self
      have hnot := Terminal.not_isPrefixOf_of_standsApart hapart
        (by rw [Terminal.chars?, hs', Option.map_some]) hw hrest
      simp only [Option.bind_some, hnot, Bool.false_and, Bool.false_eq_true, if_false]
  rw [hbefore, hs]
  rw [String.length_toList] at hpos ⊢
  simp [hpos]

/-- A word that the state admits is found where it stands, if nothing that could continue it comes
behind it and its spelling is not reserved for a keyword. -/
theorem next?_of_matches {t : Terminal} {w rest : List Char} (hadmits : q.admits (.word t) = true)
    (hw : t.Matches w) (hname : t = .name → q.reserves w = false) (hrest : t.Stops rest) :
    next? q (w ++ rest) = some (word t w.length) := by
  cases hclass : t.class? with
  | some c =>
    rw [Terminal.Matches, hclass] at hw
    rw [Terminal.Stops] at hrest
    simp only [Terminal.continues, hclass] at hrest
    have hterminal := Terminal.class?_eq_some_iff.1 hclass
    have hc : c ∈ q.wordClasses := by
      rw [State.mem_wordClasses_iff, hterminal]
      rintro t' heq
      rw [← Option.some.inj heq]
      exact hadmits
    have hreserves : q.reserves w = false := by
      by_cases hisName : t = .name
      · exact hname hisName
      · exact State.reserves_of_class hclass hisName hadmits hw
    rw [next?_of_class hc (WordClass.length?_append hw hrest), List.take_left, ofClass, hterminal]
    dsimp only
    rw [State.classify_of_not_reserves hreserves]
  | none =>
    rw [Terminal.Matches, hclass] at hw
    have hfixed := Terminal.class?_eq_none_iff.1 hclass
    by_cases habsorbs : q.absorbs t = true
    · obtain ⟨c, hc, hcovers⟩ := List.any_eq_true.1 habsorbs
      have hc' : c = .name := by
        rcases Terminal.eq_name_of_covers hcovers with h | ⟨rfl, ht⟩
        · exact h
        · have hstatement := State.mem_wordClasses_iff.1 hc _ rfl
          rw [State.not_admits_of_statement hstatement ht] at hadmits
          exact absurd hadmits (by simp)
      subst hc'
      have hstops : WordClass.name.Stops rest := by
        intro y hy
        have hy' := hrest y hy
        rw [Terminal.continues, hclass] at hy'
        dsimp only at hy'
        rw [hcovers, Bool.true_and] at hy'
        exact hy'
      have hlength := (Terminal.covers_iff hw).1 hcovers
      rw [next?_of_class hc (WordClass.length?_append hlength hstops), List.take_left, ofClass]
      dsimp only [WordClass.terminal?]
      rw [State.classify_of_chars? hw hfixed hadmits]
    · have hpos : 0 < w.length := by
        refine List.length_pos_iff.2 ?_
        rintro rfl
        exact t.not_matches_nil (by rw [Terminal.Matches, hclass]; exact hw)
      rw [next?_of_no_class (no_class_of_not_absorbs hfixed hw (by simpa using habsorbs) rest)]
      refine ofSpelling?_of_chars? ?_ ?_ hw hpos hrest
      · exact Terminal.pairwise_standsApart.filter _
      · exact List.mem_filter.2 ⟨hfixed, by simp [hadmits, habsorbs]⟩

/-- A spelling that is found stands at the beginning of the text. -/
theorem exists_of_ofSpelling? {ts : List Terminal} {p : Piece}
    (h : ofSpelling? ts cs = some p) :
    ∃ t ∈ ts, ∃ w, t.chars? = some w ∧ w <+: cs ∧ p = word t w.length := by
  obtain ⟨t, ht, hp⟩ := List.exists_of_findSome?_eq_some h
  obtain ⟨s, hs, hp⟩ := Option.bind_eq_some_iff.1 hp
  split at hp
  · next hstart =>
    simp only [Bool.and_eq_true, List.isPrefixOf_iff_prefix] at hstart
    refine ⟨t, ht, s.toList, by rw [Terminal.chars?, hs, Option.map_some], hstart.1, ?_⟩
    rw [String.length_toList]
    exact (Option.some.inj hp).symm
  · exact absurd hp (by simp)

/-- What is found as a word is a word that the state admits, and a name is not reserved. -/
theorem matches_of_next? {t : Terminal} (h : next? q cs = some (word t n)) :
    n ≤ cs.length ∧ t.Matches (cs.take n) ∧ q.admits (.word t) = true ∧
      (t = .name → q.reserves (cs.take n) = false) := by
  rcases next?_cases h with ⟨c, m, hc, hm, heq⟩ | ⟨-, hspelling⟩
  · obtain ⟨hle, htake⟩ := WordClass.length?_take hm
    have hlength : (cs.take m).length = m := List.length_take_of_le hle
    unfold ofClass at heq
    split at heq
    · next s hs =>
      rw [hlength] at heq
      obtain ⟨rfl, rfl⟩ := Piece.word.inj heq
      refine ⟨hle, ?_⟩
      rcases q.classify_cases s (cs.take n) with ⟨heq, hreserves⟩ | ⟨hadmits, hchars, hfixed⟩
      · rw [heq]
        refine ⟨?_, State.mem_wordClasses_iff.1 hc s hs, fun _ => hreserves⟩
        rw [Terminal.Matches, Terminal.class?_eq_some_iff.2 hs]
        dsimp only
        rw [hlength, htake]
      · refine ⟨?_, hadmits, ?_⟩
        · rw [Terminal.Matches, Terminal.class?_eq_none_iff.2 hfixed]
          exact hchars
        · intro hname
          rw [hname] at hfixed
          exact absurd hfixed (by decide)
    · exact absurd heq (by simp)
  · obtain ⟨t', ht', w, hw, hstart, heq⟩ := exists_of_ofSpelling? hspelling
    obtain ⟨rfl, rfl⟩ := Piece.word.inj heq
    obtain ⟨hfixed, hprop⟩ := List.mem_filter.1 ht'
    simp only [Bool.and_eq_true] at hprop
    refine ⟨hstart.length_le, ?_, hprop.1, ?_⟩
    · rw [Terminal.Matches, Terminal.class?_eq_none_iff.2 hfixed,
        ← List.prefix_iff_eq_take.1 hstart]
      exact hw
    · intro hname
      rw [hname] at hfixed
      exact absurd hfixed (by decide)

/-- What is found as a gap is found by a class without a terminal. -/
theorem exists_class_of_gap (h : next? q cs = some (gap n)) :
    ∃ c : WordClass, c.terminal? = none ∧ c ∈ q.wordClasses ∧ c.length? cs = some n := by
  rcases next?_cases h with ⟨c, m, hc, hm, heq⟩ | ⟨-, hspelling⟩
  · obtain ⟨hle, -⟩ := WordClass.length?_take hm
    unfold ofClass at heq
    split at heq
    · exact absurd heq (by simp)
    · next hnone =>
      rw [List.length_take_of_le hle] at heq
      obtain rfl := Piece.gap.inj heq
      exact ⟨c, hnone, hc, hm⟩
  · obtain ⟨t, -, w, -, -, heq⟩ := exists_of_ofSpelling? hspelling
    exact absurd heq (by simp)

/-- What is found as a gap is white space or a comment. -/
theorem isGap_of_next? (h : next? q cs = some (gap n)) :
    n ≤ cs.length ∧ ∃ c : WordClass, c.terminal? = none ∧ c.length? (cs.take n) = some n := by
  obtain ⟨c, hnone, -, hn⟩ := exists_class_of_gap h
  obtain ⟨hle, htake⟩ := WordClass.length?_take hn
  exact ⟨hle, c, hnone, htake⟩

/-- States that admit the same words look for the same words. -/
theorem next?_congr {q q' : State} (h : ∀ t, q.admits (.word t) = q'.admits (.word t)) :
    next? q = next? q' := by
  have hclasses : q.wordClasses = q'.wordClasses := by
    unfold State.wordClasses
    simp only [h]
  have hfixed : q.fixedWords = q'.fixedWords := by
    unfold State.fixedWords State.absorbs
    simp only [h, hclasses]
  have hclassify : q.classify = q'.classify := by
    funext t w
    unfold State.classify
    simp only [h]
  funext cs
  unfold next?
  rw [hclasses, hfixed, hclassify]

end Piece

end CadenceEntry
