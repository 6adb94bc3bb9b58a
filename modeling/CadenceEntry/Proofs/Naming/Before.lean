import CadenceEntry.Proofs.Body.Replacement

/-!
# What comes before a name

A word right before a name can depend on the name: `0` is an integer literal before `g1` and a part
of `0x1` before `x1`, `pre` is a keyword before `view` and a part of another one before `pare`. The
states rule this out. Behind the words that look further than one character no name is looked for,
so what is read before a name is read before any other name in its place:
`Derivation.reads_before_name`.
-/

set_option autoImplicit false

namespace CadenceEntry

open Grammar
open Source (Head)

/-- The first character of a text can begin a name. -/
def BeginsName (cs : List Char) : Prop := ∃ x xs, cs = x :: xs ∧ WordClass.beginsName x = true

/-- A text that begins with a name does so with more text behind it. -/
theorem BeginsName.append {cs : List Char} (h : BeginsName cs) (cs' : List Char) :
    BeginsName (cs ++ cs') := by
  obtain ⟨x, xs, rfl, hx⟩ := h
  exact ⟨x, xs ++ cs', rfl, hx⟩

/-- A name begins like a name. -/
theorem beginsName_of_matches {w : List Char} (h : Terminal.name.Matches w) : BeginsName w := by
  cases w with
  | nil => exact absurd h (Terminal.not_matches_nil _)
  | cons x xs => exact ⟨x, xs, rfl, WordClass.begins_of_length? h⟩

namespace WordClass

/-- Only something else than a name stops a name. -/
theorem ne_nil_of_stops {y old : List Char} (h : name.Stops (y ++ old)) (hold : BeginsName old) :
    y ≠ [] := by
  obtain ⟨x, xs, rfl, hx⟩ := hold
  rintro rfl
  have hnot : continuesName x = false := h x rfl
  rw [continuesName_of_beginsName hx] at hnot
  exact absurd hnot (by simp)

/-- A run that ends before a character ends there whatever comes behind the character. -/
theorem run?_congr_behind {p : Char → Bool} {w : List Char} {x : Char} {cs : List Char}
    (h : run? p (w ++ x :: cs) = some w.length) (cs' : List Char) :
    run? p (w ++ x :: cs') = some w.length := by
  have hx : ∀ ds, ∀ y ∈ (x :: ds).head?, p y = false := fun _ y hy =>
    not_of_run (run?_eq_some_iff.1 h).1 y hy
  rw [run?_append (hx cs)] at h
  rw [run?_append (hx cs'), h]

/-- An address and text of a body end where the next character says so, whatever comes behind. -/
theorem length?_congr_behind {c : WordClass} (hc : c = .address ∨ c = .statement) {w : List Char}
    {x : Char} {cs : List Char} (h : c.length? (w ++ x :: cs) = some w.length) (cs' : List Char) :
    c.length? (w ++ x :: cs') = some w.length := by
  rcases hc with rfl | rfl
  · obtain ⟨ds, k, heq, hk, hlength⟩ := addressLength?_eq_some_iff.1 h
    match w with
    | [] | [_] => exact absurd hlength (by simp)
    | a :: b :: u =>
      obtain ⟨rfl, hrest⟩ := List.cons.inj heq
      obtain ⟨rfl, rfl⟩ := List.cons.inj hrest
      obtain rfl : u.length = k := by simpa using hlength
      exact addressLength?_eq_some_iff.2 ⟨_, _, rfl, run?_congr_behind hk cs', rfl⟩
  · rcases statementLength?_eq_some_iff.1 h with ⟨ds, heq, hline, hblock, hlength⟩ | hrun
    · -- a slash by itself
      obtain ⟨a, rfl⟩ := List.length_eq_one_iff.1 hlength
      obtain ⟨rfl, rfl⟩ := List.cons.inj heq
      exact statementLength?_eq_some_iff.2 (.inl ⟨x :: cs', rfl, hline, hblock, rfl⟩)
    · exact statementLength?_eq_some_iff.2 (.inr (run?_congr_behind hrun cs'))

end WordClass

namespace Grammar

/-- Of two spellings one begins like the other only if that is `pre`. -/
theorem Terminal.eq_preWord_of_prefix {s t : Terminal} (hs : s ∈ fixed) (ht : t ∈ fixed)
    {v w : List Char} (hv : s.chars? = some v) (hw : t.chars? = some w) (hbegins : w <+: v)
    (hne : v ≠ w) : t = .preWord := by
  have hall : (fixed.all fun s => fixed.all fun t =>
      s.chars?.all fun v => t.chars?.all fun w =>
        !w.isPrefixOf v || v == w || t == .preWord) = true := by
    decide +kernel
  have h := List.all_eq_true.1 (List.all_eq_true.1 hall s hs) t ht
  simpa [hv, hw, List.isPrefixOf_iff_prefix.2 hbegins, hne] using h

/-- Behind an integer literal a bracket is closed, and behind the keyword `pre` a body begins. -/
theorem State.admits_behind_integer {q q' : State} {t s : Terminal}
    (ht : t = .integer ∨ t = .preWord) (hmove : q.row.move? (.token t) = some q')
    (hs : q'.admits (.word s) = true) : s = .rightBracket ∨ s = .leftBrace := by
  have hall : (Table.rows.all fun r => [Terminal.integer, .preWord].all fun t =>
      match r.move? (.token t) with
      | some q' => Terminal.all.all fun s =>
          !State.admits q' (.word s) || s == .rightBracket || s == .leftBrace
      | none => true) = true := by
    decide +kernel
  have hrow := List.all_eq_true.1 hall _ (row_mem_of_move? hmove)
  have hbehind := List.all_eq_true.1 hrow t (by simpa using ht)
  rw [hmove] at hbehind
  have hword := List.all_eq_true.1 hbehind s s.mem_all
  simpa [hs] using hword

/-- No name comes behind an address or text of a body. -/
theorem State.not_admits_name_behind {q q' : State} {t : Terminal}
    (ht : t = .address ∨ t = .statement) (hmove : q.row.move? (.token t) = some q') :
    q'.admits (.word .name) = false := by
  have hall : (Table.rows.all fun r => [Terminal.address, .statement].all fun t =>
      match r.move? (.token t) with
      | some q' => !State.admits q' (.word .name)
      | none => true) = true := by
    decide +kernel
  have hrow := List.all_eq_true.1 hall _ (row_mem_of_move? hmove)
  have hbehind := List.all_eq_true.1 hrow t (by simpa using ht)
  rw [hmove] at hbehind
  simpa using hbehind

end Grammar

/-- A text that goes on with a bracket or a brace goes on with no name. -/
theorem NextWord.stops_of_read {q : State} {c c' : Cursor} {t : Terminal} {w : Lexeme}
    (h : read q c = .word t w c') (ht : t = .rightBracket ∨ t = .leftBrace) :
    WordClass.name.Stops c.rest := by
  obtain ⟨hskips, -, -⟩ := exists_skips_of_word h
  rcases Relation.ReflTransGen.cases_head hskips with rfl | ⟨c₁, ⟨n, hnext, rfl⟩, -⟩
  · -- the word stands right here
    have htext : w.text = [']'] ∨ w.text = ['\x7b'] := by
      rcases ht with rfl | rfl
      · exact .inl (text_of_read h (by decide) rfl)
      · exact .inr (text_of_read h (by decide) rfl)
    intro x hx
    rcases htext with htext | htext <;> rw [htext] at hx <;> cases hx <;> rfl
  · obtain ⟨c₂, hterminal, -, hlength⟩ := Piece.exists_class_of_gap hnext
    intro x hx
    obtain ⟨xs, hxs⟩ := List.head?_eq_some_iff.1 hx
    rw [hxs] at hlength
    have hbegins := WordClass.begins_of_length? hlength
    have hslash : WordClass.continuesName '/' = false := by decide
    cases c₂ with
    | blanks => exact Terminal.continues_of_separates (t := .name) hbegins
    | blockComment =>
      rw [show x = '/' by simpa [WordClass.begins] using hbegins]
      exact hslash
    | lineComment =>
      rw [show x = '/' by simpa [WordClass.begins] using hbegins]
      exact hslash
    | integer => exact absurd hterminal (by simp [WordClass.terminal?])
    | statement => exact absurd hterminal (by simp [WordClass.terminal?])
    | name => exact absurd hterminal (by simp [WordClass.terminal?])
    | string => exact absurd hterminal (by simp [WordClass.terminal?])
    | address => exact absurd hterminal (by simp [WordClass.terminal?])

/-- A word of a class before a name is found before another name, if the class does not look further
than the next character. -/
theorem WordClass.length?_before_name {c : WordClass} {s : Terminal} {w y old new : List Char}
    (hterminal : c.terminal? = some s) (h : c.length? (w ++ (y ++ old)) = some w.length)
    (hold : BeginsName old) (hstops : c = .integer → WordClass.name.Stops (y ++ old))
    (hne : c = .address ∨ c = .statement → y ≠ []) :
    c.length? (w ++ (y ++ new)) = some w.length := by
  have hself := (WordClass.length?_take h).2
  rw [List.take_left] at hself
  have hname : c.Stops (y ++ old) → y ≠ [] → c.length? (w ++ (y ++ new)) = some w.length := by
    intro hcs hy
    obtain ⟨x, y, rfl⟩ := List.exists_cons_of_ne_nil hy
    exact WordClass.length?_append hself hcs
  have hbehind : c = .address ∨ c = .statement →
      c.length? (w ++ (y ++ new)) = some w.length := by
    intro hc
    obtain ⟨x, y, rfl⟩ := List.exists_cons_of_ne_nil (hne hc)
    exact WordClass.length?_congr_behind hc h (y ++ new)
  cases c with
  | integer => exact hname (hstops rfl) (WordClass.ne_nil_of_stops (hstops rfl) hold)
  | name =>
    have hcs := WordClass.stops_of_name h
    exact hname hcs (WordClass.ne_nil_of_stops hcs hold)
  | string => exact WordClass.length?_append hself fun _ _ => rfl
  | address => exact hbehind (.inl rfl)
  | statement => exact hbehind (.inr rfl)
  | blanks => exact absurd hterminal (by simp [WordClass.terminal?])
  | blockComment => exact absurd hterminal (by simp [WordClass.terminal?])
  | lineComment => exact absurd hterminal (by simp [WordClass.terminal?])

namespace Piece

variable {q : State} {w y old new : List Char} {t : Terminal}

/-- A keyword before a name is found before another name, if it is not the beginning of another
keyword. -/
theorem ofSpelling?_before_name {ts : List Terminal} (hts : ∀ s ∈ ts, s ∈ Terminal.fixed)
    (ht : t ∈ Terminal.fixed) (hw : t.chars? = some w)
    (h : ofSpelling? ts (w ++ (y ++ old)) = some (word t w.length)) (hold : BeginsName old)
    (hstops : t = .preWord → WordClass.name.Stops (y ++ old)) :
    ofSpelling? ts (w ++ (y ++ new)) = some (word t w.length) := by
  refine ofSpelling?_congr h (fun s hs v hv hbegins => ?_) fun v hv _ => ?_
  · rcases List.prefix_or_prefix_of_prefix hbegins (List.prefix_append w _) with hvw | hwv
    · exact hvw.trans (List.prefix_append w _)
    by_cases heq : v = w
    · rw [heq]
      exact List.prefix_append w _
    -- a longer spelling would go on with a letter
    exfalso
    have hcs := hstops (Terminal.eq_preWord_of_prefix (hts s hs) ht hv hw hwv heq)
    obtain ⟨x, y, rfl⟩ := List.exists_cons_of_ne_nil (WordClass.ne_nil_of_stops hcs hold)
    obtain ⟨z, rfl⟩ := hwv
    rw [List.prefix_append_right_inj] at hbegins
    obtain ⟨x', z, rfl⟩ := List.exists_cons_of_ne_nil fun hz : z = [] => heq (by simp [hz])
    obtain ⟨-, hx⟩ := List.cons_prefix_cons.1 hbegins |>.symm
    obtain ⟨a, u, rfl⟩ : ∃ a u, w = a :: u := by
      refine List.exists_cons_of_ne_nil fun hnil => t.not_matches_nil ?_
      rw [Terminal.Matches, Terminal.class?_eq_none_iff.2 ht, ← hnil]
      exact hw
    have hcontinues := Terminal.continuesName_of_mem_chars? (hts s hs) hv x' (by simp)
    have hnot : WordClass.continuesName x = false := hcs x rfl
    rw [← hx, hcontinues] at hnot
    exact absurd hnot (by simp)
  · rw [hw] at hv
    rw [← Option.some.inj hv]
    exact List.prefix_append w _

/-- A word before a name is found before another name, if it is not one of those that look further
than the next character. -/
theorem next?_before_name (h : next? q (w ++ (y ++ old)) = some (word t w.length))
    (hold : BeginsName old)
    (hstops : t = .integer ∨ t = .preWord → WordClass.name.Stops (y ++ old))
    (hne : t = .address ∨ t = .statement → y ≠ []) :
    next? q (w ++ (y ++ new)) = some (word t w.length) := by
  rcases next?_cases h with ⟨c, n, hc, hn, heq⟩ | ⟨-, hspelling⟩
  · cases hterminal : c.terminal? with
    | none =>
      rw [ofClass, hterminal] at heq
      exact absurd heq (by simp)
    | some s =>
      have hclassify := heq
      rw [ofClass, hterminal] at hclassify
      obtain ⟨ht, hn'⟩ := Piece.word.inj hclassify
      rw [List.length_take_of_le (WordClass.length?_take hn).1] at hn'
      subst hn'
      -- only a name is spelled like a keyword, so the others are what their classes say
      have hclass : c ≠ .name → t = s := by
        intro hname
        rw [ht]
        refine State.classify_of_not_reserves (State.reserves_of_class
          (Terminal.class?_eq_some_iff.2 hterminal) ?_ (State.mem_wordClasses_iff.1 hc s hterminal)
          ?_)
        · rintro rfl
          cases c <;> simp [WordClass.terminal?] at hterminal hname
        · have hself := (WordClass.length?_take hn).2
          rwa [List.length_take_of_le (WordClass.length?_take hn).1]
      have hkept : c.length? (w ++ (y ++ new)) = some w.length := by
        refine WordClass.length?_before_name hterminal hn hold ?_ ?_
        · rintro rfl
          exact hstops (.inl ((hclass (by simp)).trans (Option.some.inj hterminal).symm))
        · rintro (rfl | rfl)
          · exact hne (.inl ((hclass (by simp)).trans (Option.some.inj hterminal).symm))
          · exact hne (.inr ((hclass (by simp)).trans (Option.some.inj hterminal).symm))
      rw [next?_of_class hc hkept, List.take_left, heq, List.take_left]
  · obtain ⟨s, hs, v, hv, hstart, heq⟩ := exists_of_ofSpelling? hspelling
    obtain ⟨rfl, hlength⟩ := Piece.word.inj heq
    obtain ⟨hfixed, hprop⟩ := List.mem_filter.1 hs
    simp only [Bool.and_eq_true, Bool.not_eq_true'] at hprop
    obtain rfl : v = w :=
      (List.prefix_of_prefix_length_le hstart (List.prefix_append w _) hlength.ge).eq_of_length
        hlength.symm
    rw [next?_of_no_class (no_class_of_not_absorbs hfixed hv hprop.2 (y ++ new))]
    exact ofSpelling?_before_name (fun s hs => (List.mem_filter.1 hs).1) hfixed hv hspelling hold
      fun ht => hstops (.inr ht)

end Piece

/-- What stands before the text `old` goes on with a word, which is a name if it is the text
itself. -/
def NameAhead (old : List Char) (q : State) (p : Position) (y : List Char) : Prop :=
  ∃ t w c, NextWord.read q ⟨p, y ++ old⟩ = .word t w c ∧ (y = [] → t = .name)

mutual

/-- A derivation that is read before a name is read before any other name. -/
theorem Grammar.Derivation.reads_before_name {s : Symbol} (d : Derivation s) {q q₁ q₂ : State}
    {p₁ p₂ : Position} {y y' old : List Char}
    (hd : d.Reads q ⟨q₁, p₁, y ++ old⟩ ⟨q₂, p₂, y' ++ old⟩) (hold : BeginsName old)
    (hname : NameAhead old q₂ p₂ y') :
    NameAhead old q₁ p₁ y ∧
      ∀ new, d.Reads q ⟨q₁, p₁, y ++ new⟩ ⟨q₂, p₂, y' ++ new⟩ :=
  match d with
  | .leaf t w => by
    obtain ⟨hread, hmove⟩ := hd
    obtain ⟨s, u, c, hnext, hs⟩ := hname
    have hadmits : State.admits q₂ (.word s) = true := by
      obtain ⟨-, hfound, -⟩ := NextWord.exists_skips_of_word hnext
      exact (Piece.matches_of_next? hfound).2.2.1
    refine ⟨⟨t, w, _, hread, ?_⟩, fun new => ⟨NextWord.read_of_next? hread fun hfound => ?_, hmove⟩⟩
    · rintro rfl
      have hlt := NextWord.length_lt_of_readBy hread
      exact absurd hlt (by simp only [List.length_append, List.nil_append]; omega)
    · rw [List.append_assoc] at hfound ⊢
      refine Piece.next?_before_name hfound hold (fun ht => ?_) fun ht => ?_
      · exact NextWord.stops_of_read hnext (State.admits_behind_integer ht hmove hadmits)
      · rintro rfl
        rw [hs rfl, State.not_admits_name_behind ht hmove] at hadmits
        exact absurd hadmits (by simp)
  | .node p ds => ds.reads_before_name hd hold hname

/-- Derivations that are read before a name are read before any other name. -/
theorem Grammar.Derivations.reads_before_name {ss : List Symbol} (ds : Derivations ss)
    {q q₁ q₂ : State} {p₁ p₂ : Position} {y y' old : List Char}
    (hds : ds.Reads q ⟨q₁, p₁, y ++ old⟩ ⟨q₂, p₂, y' ++ old⟩) (hold : BeginsName old)
    (hname : NameAhead old q₂ p₂ y') :
    NameAhead old q₁ p₁ y ∧
      ∀ new, ds.Reads q ⟨q₁, p₁, y ++ new⟩ ⟨q₂, p₂, y' ++ new⟩ :=
  match ds with
  | .nil => by
    obtain ⟨rfl, hcursor⟩ := Source.Head.mk.inj hds
    obtain ⟨rfl, hrest⟩ := Cursor.mk.inj hcursor
    obtain rfl := List.append_cancel_right hrest
    exact ⟨hname, fun _ => rfl⟩
  | .cons d ds => by
    obtain ⟨⟨q', p, cs⟩, q'', hd, hmove, hds⟩ := hds
    obtain ⟨ss, ⟨hrest, -, -⟩, -⟩ := ds.exists_segments hds
    obtain ⟨z, rfl⟩ : ∃ z, cs = z ++ old := by
      refine ⟨Segment.join ss ++ y', ?_⟩
      rw [List.append_assoc]
      exact hrest
    obtain ⟨hname', hds'⟩ := ds.reads_before_name hds hold hname
    obtain ⟨hname'', hd'⟩ := d.reads_before_name hd hold hname'
    exact ⟨hname'', fun new => ⟨⟨q', p, z ++ new⟩, q'', hd' new, hmove, hds' new⟩⟩

end

end CadenceEntry
