import CadenceEntry.Proofs.Body.Closing
import CadenceEntry.Proofs.Body.Reading
import CadenceEntry.Proofs.Source.Shifting
import CadenceEntry.Proofs.Syntax.Places

/-!
# Replacing a body

Where a derivation is read off a text, one of its bodies can be replaced by any other text that is a
body: a block is read there as well, what comes before it is read at the same place, and what comes
behind it at another one.
-/

set_option autoImplicit false

namespace CadenceEntry

open Grammar
open Source (Head)

/-- The text is a body: a scan of what follows its opening brace ends with its last character. -/
def IsBody (cs : List Char) : Prop :=
  ∃ r, cs = '\x7b' :: r ∧ scanBody .code 1 r = some r.length

namespace Grammar

/-- Where a block is awaited a brace opens it. -/
theorem State.move?_leftBrace_of_block {q q' : State}
    (h : q.row.move? (.phrase .block) = some q') : q.row.move? (.token .leftBrace) = some 179 := by
  have hall : (Table.rows.all fun r => (r.move? (.phrase .block)).isNone ||
      r.move? (.token .leftBrace) == some 179) = true := by
    decide +kernel
  have hr := List.all_eq_true.1 hall _ (State.row_mem_of_move? h)
  simpa [h] using hr

/-- Behind a closing brace the same words are looked for, whether the body has items or not. -/
theorem State.read_behind_body {q q' : State} (hq : q = 181 ∨ q = 182) (hq' : q' = 181 ∨ q' = 182)
    (c : Cursor) : NextWord.read q c = NextWord.read q' c := by
  have hsame : Piece.next? 181 = Piece.next? 182 := Piece.next?_congr State.admits_behind_body
  have hread : NextWord.read 181 c = NextWord.read 182 c := by
    unfold NextWord.read
    rw [hsame]
  rcases hq with rfl | rfl <;> rcases hq' with rfl | rfl
  · rfl
  · exact hread
  · exact hread.symm
  · rfl

end Grammar

/-- A word with a fixed spelling is spelled so. -/
theorem NextWord.text_of_read {q : State} {c c' : Cursor} {t : Terminal} {w : Lexeme}
    {v : List Char} (h : read q c = .word t w c') (hfixed : t ∈ Terminal.fixed)
    (hv : t.chars? = some v) : w.text = v := by
  obtain ⟨-, hnext, -⟩ := exists_skips_of_word h
  have hmatches := (Piece.matches_of_next? hnext).2.1
  rw [List.take_left, Terminal.Matches, Terminal.class?_eq_none_iff.2 hfixed] at hmatches
  exact Option.some.inj (hmatches.symm.trans hv)

namespace NextWord

/-- An opening brace is read whatever comes behind it. -/
theorem exists_read_leftBrace {q : State} {c c' : Cursor} {w : Lexeme}
    (h : read q c = .word .leftBrace w c') :
    ∃ y, c.rest = y ++ '\x7b' :: c'.rest ∧ w.start = c.place.afterAll y ∧
      c'.place = w.start.afterAll ['\x7b'] ∧
      ∀ cs, read q ⟨c.place, y ++ '\x7b' :: cs⟩ =
        .word .leftBrace ⟨['\x7b'], w.start⟩ ⟨c'.place, cs⟩ := by
  have htext : w.text = ['\x7b'] := text_of_read h (by decide) rfl
  obtain ⟨hskips, hnext, hplace⟩ := exists_skips_of_word h
  obtain ⟨y, hy, hstart⟩ := hskips.exists_rest
  rw [htext] at hskips hnext hplace hy
  refine ⟨y, hy, hstart, hplace, fun cs => ?_⟩
  have hfound : Piece.next? q ('\x7b' :: cs) = some (.word .leftBrace 1) :=
    Piece.next?_of_matches (w := ['\x7b']) (Piece.matches_of_next? hnext).2.2.1 (by decide)
      (fun hname => absurd hname (by decide)) fun x _ => rfl
  rw [hskips.read_of_replaced hy (by simp), read_of_word (c := ⟨w.start, '\x7b' :: cs⟩) hfound,
    hplace]
  rfl

/-- A closing brace is one character. -/
theorem stop_of_read_rightBrace {q : State} {c c' : Cursor} {w : Lexeme}
    (h : read q c = .word .rightBrace w c') :
    w.stop = w.start ∧ c'.place = w.start.afterAll ['\x7d'] := by
  have htext : w.text = ['\x7d'] := text_of_read h (by decide) rfl
  obtain ⟨-, -, hplace⟩ := exists_skips_of_word h
  rw [htext] at hplace
  refine ⟨?_, hplace⟩
  rw [Lexeme.stop, htext]
  rfl

end NextWord

/-- The body that is read between the heads begins with the brace `w` and ends with the brace `w'`;
behind the opening brace it is the text `z`. -/
structure ReadsBody (h h' : Head) (w w' : Lexeme) (z : List Char) : Prop where
  first : ∃ c, NextWord.read h.state h.cursor = .word .leftBrace w c ∧
    c.rest = z ++ h'.cursor.rest ∧ h'.cursor.place = c.place.afterAll z
  last : ∃ h₁ : Head, NextWord.read h₁.state h₁.cursor = .word .rightBrace w' h'.cursor
  lt : w.start.offset < w'.start.offset
  state : h'.state = 181 ∨ h'.state = 182

/-- A block that is read is a body. -/
theorem exists_readsBody {p : Production} (hp : p.lhs = .block) {ds : Derivations p.rhs}
    {q : State} {h h' : Head} (hds : ds.Reads q h h')
    (hq : q.row.move? (.token .leftBrace) = some 179) :
    ∃ w w' z, ReadsBody h h' w w' z ∧ ds.first? = some w ∧ ds.last? = some w' := by
  have hopened : ∀ {w : Lexeme} {c : Cursor},
      NextWord.read h.state h.cursor = .word .leftBrace w c → w.start.offset < c.place.offset := by
    intro w c hread
    have hwithin := NextWord.within_of_read hread
    exact Nat.lt_of_le_of_lt hwithin.order hwithin.lt
  obtain ⟨-, hmore, hempty⟩ := State.moves_opened false
  cases p
  case blockItems =>
    cases ds with | cons d ds => cases d with | leaf _ w =>
    cases ds with | cons d ds => cases ds with | cons d' ds => cases d' with | leaf _ w' =>
    cases ds with | nil =>
    obtain ⟨⟨q₁, c⟩, q₂, ⟨hopen, hq₁⟩, hq₂, h₂, q₃, hd, hq₃, h₃, q₄, ⟨hclose, hq₄⟩, hq₄', hnil⟩ :=
      hds
    obtain rfl : h' = h₃ := hnil
    rw [hq] at hq₂
    obtain rfl := Option.some.inj hq₂
    rw [show (179 : State) = .opened false from rfl, hmore] at hq₃
    obtain rfl := Option.some.inj hq₃
    have hbehind : Derivations.Reads (.cons d (.cons (.leaf .rightBrace w') .nil)) 179 ⟨q₁, c⟩ h' :=
      ⟨h₂, _, hd, hmore, h', q₄, ⟨hclose, hq₄⟩, hq₄', rfl⟩
    obtain ⟨ss, ⟨hrest, hplace, -⟩, -⟩ := Derivations.exists_segments _ hbehind
    refine ⟨w, w', Segment.join ss, ⟨⟨c, hopen, hrest, hplace⟩, ⟨h₂, hclose⟩, ?_, .inl ?_⟩,
      rfl, rfl⟩
    · have hlt := hopened hopen
      have hle := (d.ordered_words hd).reaches.offset
      have hle' := (NextWord.within_of_read hclose).start.offset
      exact Nat.lt_of_lt_of_le (Nat.lt_of_lt_of_le hlt hle) hle'
    · rw [(State.moves_filled false).2] at hq₄
      exact (Option.some.inj hq₄).symm
  case blockEmpty =>
    cases ds with | cons d ds => cases d with | leaf _ w =>
    cases ds with | cons d' ds => cases d' with | leaf _ w' =>
    cases ds with | nil =>
    obtain ⟨⟨q₁, c⟩, q₂, ⟨hopen, hq₁⟩, hq₂, h₃, q₄, ⟨hclose, hq₄⟩, hq₄', hnil⟩ := hds
    obtain rfl : h' = h₃ := hnil
    rw [hq] at hq₂
    obtain rfl := Option.some.inj hq₂
    have hbehind : Derivations.Reads (.cons (.leaf .rightBrace w') .nil) 179 ⟨q₁, c⟩ h' :=
      ⟨h', q₄, ⟨hclose, hq₄⟩, hq₄', rfl⟩
    obtain ⟨ss, ⟨hrest, hplace, -⟩, -⟩ := Derivations.exists_segments _ hbehind
    refine ⟨w, w', Segment.join ss, ⟨⟨c, hopen, hrest, hplace⟩, ⟨_, hclose⟩, ?_, .inr ?_⟩,
      rfl, rfl⟩
    · exact Nat.lt_of_lt_of_le (hopened hopen) (NextWord.within_of_read hclose).start.offset
    · rw [show (179 : State) = .opened false from rfl, hempty] at hq₄
      exact (Option.some.inj hq₄).symm
  all_goals exact absurd hp (by decide)

/-- Where places go when the text that ends at `s` is replaced by the text `new`. -/
def Span.replacing (s : Span) (new : List Char) : Position → Position :=
  Position.movedFrom s.stop (s.start.afterAll new.dropLast)

/-- At the cursor the text goes on with `y`, and then with the body `old` at the span `s`. -/
structure BodyAt (s : Span) (c : Cursor) (y old post : List Char) : Prop where
  rest : c.rest = y ++ (old ++ post)
  start : s.start = c.place.afterAll y
  stop : s.stop.offset + 1 = s.start.offset + old.length
  lt : s.start.offset < s.stop.offset
  head : old.head? = some '\x7b'

/-- A body that is read stands behind white space and comments, and an opening brace is read there
whatever comes behind it. -/
theorem ReadsBody.exists_bodyAt {h h' : Head} {w w' : Lexeme} {z : List Char}
    (hbody : ReadsBody h h' w w' z) :
    ∃ y, BodyAt ⟨w.start, w'.stop⟩ h.cursor y ('\x7b' :: z) h'.cursor.rest ∧
      ∀ cs, NextWord.read h.state ⟨h.cursor.place, y ++ '\x7b' :: cs⟩ =
        .word .leftBrace ⟨['\x7b'], w.start⟩ ⟨w.start.afterAll ['\x7b'], cs⟩ := by
  obtain ⟨⟨c, hopen, hrest, hplace⟩, ⟨h₁, hclose⟩, hlt, -⟩ := hbody
  obtain ⟨y, hy, hstart, hc, hread⟩ := NextWord.exists_read_leftBrace hopen
  obtain ⟨hstop, hclosed⟩ := NextWord.stop_of_read_rightBrace hclose
  refine ⟨y, ⟨?_, hstart, ?_, ?_, rfl⟩, fun cs => by rw [← hc]; exact hread cs⟩
  · rw [hy, hrest]
    rfl
  · have hbehind : c.place.offset = w.start.offset + 1 := by
      rw [hc]
      exact Position.offset_afterAll _ _
    have hbehind' : h'.cursor.place.offset = w'.start.offset + 1 := by
      rw [hclosed]
      exact Position.offset_afterAll _ _
    have hz := Position.offset_afterAll c.place z
    rw [← hplace] at hz
    show w'.stop.offset + 1 = w.start.offset + (z.length + 1)
    rw [hstop]
    omega
  · show w.start.offset < w'.stop.offset
    rw [hstop]
    exact hlt

/-- The last brace of a body stands on a line of the text. -/
theorem ReadsBody.line_pos {h h' : Head} {w w' : Lexeme} {z : List Char}
    (hbody : ReadsBody h h' w w' z) (hline : 0 < h.cursor.place.line) : 0 < w'.stop.line := by
  obtain ⟨⟨c, hopen, -, hplace⟩, ⟨h₁, hclose⟩, -, -⟩ := hbody
  obtain ⟨y, -, hstart, hc, -⟩ := NextWord.exists_read_leftBrace hopen
  obtain ⟨hstop, hclosed⟩ := NextWord.stop_of_read_rightBrace hclose
  have hstartline := (Position.le_afterAll h.cursor.place y).1
  have hbraceline := (Position.le_afterAll w.start ['\x7b']).1
  have hendline := (Position.le_afterAll c.place z).1
  have hclosedline : h'.cursor.place.line = w'.start.line := by
    rw [hclosed]
    rfl
  rw [← hstart] at hstartline
  rw [← hc] at hbraceline
  rw [← hplace] at hendline
  rw [hstop]
  omega

/-- Another body is read in the place of a body, and the text behind it goes on in the same way. -/
theorem exists_block_of_readsBody {q : State} {h h' : Head} {w w' : Lexeme} {z new : List Char}
    (hbody : ReadsBody h h' w w' z) (hq : q.row.move? (.token .leftBrace) = some 179)
    (hline : 0 < h.cursor.place.line) (hnew : IsBody new) :
    ∃ y old post, BodyAt ⟨w.start, w'.stop⟩ h.cursor y old post ∧
      ∃ (d' : Derivation (.phrase .block)) (h'' : Head) (u u' : Lexeme),
        d'.invalidInteger? = none ∧ d'.first? = some u ∧ d'.last? = some u' ∧
        u.start = Span.replacing ⟨w.start, w'.stop⟩ new w.start ∧
        u'.stop = Span.replacing ⟨w.start, w'.stop⟩ new w'.stop ∧
        d'.Reads q ⟨h.state, h.cursor.place, y ++ (new ++ post)⟩ h'' ∧
        h'.Follows (Span.replacing ⟨w.start, w'.stop⟩ new) h'' := by
  obtain ⟨r, rfl, hscan⟩ := hnew
  obtain ⟨y, hat, hread⟩ := hbody.exists_bodyAt
  refine ⟨y, _, _, hat, ?_⟩
  -- the new body is read from the same opening brace on
  let c : Cursor := ⟨w.start.afterAll ['\x7b'], r ++ h'.cursor.rest⟩
  let c₀ : Cursor := ⟨h.cursor.place, y ++ ('\x7b' :: r ++ h'.cursor.rest)⟩
  have hopen : NextWord.read h.state c₀ = .word .leftBrace ⟨['\x7b'], w.start⟩ c :=
    hread (r ++ h'.cursor.rest)
  have hscan' : scanBody .code 1 c.rest = some r.length := scanBody_append hscan _
  obtain ⟨d', q', m, hq', hm, hlast, hvalid, hfirst', hlast', hreads⟩ :=
    exists_block_of_scanBody (h := ⟨h.state, c₀⟩) hopen hscan' hq
  have hend : c.advance r.length = ⟨c.place.afterAll r, h'.cursor.rest⟩ := by
    rw [Cursor.advance, List.take_left, List.drop_left]
  have hbefore : (c.advance m).place = w.start.afterAll ('\x7b' :: r).dropLast := by
    have hdrop : ('\x7b' :: r).dropLast = '\x7b' :: r.take m := by
      rw [List.dropLast_eq_take, List.length_cons, hm]
      rfl
    rw [hdrop, Cursor.advance, List.take_append_of_le_length (by omega)]
    rfl
  have hmoved := Position.movedFrom_afterAll (hbody.line_pos hline)
    (w.start.afterAll ('\x7b' :: r).dropLast)
  refine ⟨d', _, _, _, hvalid, hfirst', hlast', ?_, ?_, hreads, ?_⟩
  · exact (Position.movedFrom_of_lt hat.lt).symm
  · exact hbefore.trans (hmoved []).symm
  · obtain ⟨h₁, hclose⟩ := hbody.last
    obtain ⟨hstop, hclosed⟩ := NextWord.stop_of_read_rightBrace hclose
    unfold Head.Follows
    rw [State.read_behind_body hq' hbody.state]
    refine NextWord.read_moved h'.state ⟨?_, fun cs => ?_⟩
    · rw [hend]
    · have hbrace : h'.cursor.place.afterAll cs = w'.stop.afterAll ('\x7d' :: cs) := by
        rw [hclosed, hstop]
        rfl
      rw [hbrace, Span.replacing, hmoved, ← hbefore, hlast]
      rfl

/-- The derivation is read off the text with the body `new` at the span `s` as well, with its words
where they go then, and so is what comes next. -/
def Replaces (s : Span) (new : List Char) {sy : Symbol} (d : Derivation sy) (q : State)
    (h h' : Head) : Prop :=
  ∃ y old post, BodyAt s h.cursor y old post ∧ ∃ (d' : Derivation sy) (h'' : Head),
    d.Moved (s.replacing new) d' ∧ d'.Reads q ⟨h.state, h.cursor.place, y ++ (new ++ post)⟩ h'' ∧
    h'.Follows (s.replacing new) h''

/-- A block is replaced as a whole. -/
theorem replaces_block {p : Production} (hp : p.lhs = .block) {ds : Derivations p.rhs}
    {q q' : State} {h h' : Head} {new : List Char} (hds : ds.Reads q h h')
    (hmove : q.row.move? (.phrase p.lhs) = some q') (hline : 0 < h.cursor.place.line)
    (hvalid : ds.invalidInteger? = none) (hnew : IsBody new) :
    Replaces ds.span new (.node p ds) q h h' := by
  have hq := State.move?_leftBrace_of_block (hp ▸ hmove)
  obtain ⟨w, w', z, hbody, hfirst, hlast⟩ := exists_readsBody hp hds hq
  have hspan : ds.span = ⟨w.start, w'.stop⟩ := by
    rw [Derivations.span, hfirst, hlast]
  obtain ⟨y, old, post, hat, d', h'', u, u', hvalid', hu, hu', hustart, hustop, hreads, hnext⟩ :=
    exists_block_of_readsBody hbody hq hline hnew
  rw [hspan]
  have hextent : ∀ d' : Derivation (.phrase p.lhs), d'.invalidInteger? = none → d'.first? = some u →
      d'.last? = some u' →
        (Derivation.node p ds).Moved (Span.replacing ⟨w.start, w'.stop⟩ new) d' := by
    intro d' hvalid' hu hu'
    rw [Derivation.Moved, if_pos hp]
    refine ⟨?_, ?_, ?_⟩
    · rw [Derivation.first?, hfirst, hu]
      exact .some hustart
    · rw [Derivation.last?, hlast, hu']
      exact .some hustop
    · rw [Derivation.invalidInteger?, hvalid, hvalid']
  cases p
  case blockItems =>
    exact ⟨y, old, post, hat, d', h'', hextent d' hvalid' hu hu', hreads, hnext⟩
  case blockEmpty =>
    exact ⟨y, old, post, hat, d', h'', hextent d' hvalid' hu hu', hreads, hnext⟩
  all_goals exact absurd hp (by decide)

/-- The same for a list of derivations. -/
def ReplacesAll (s : Span) (new : List Char) {ss : List Symbol} (ds : Derivations ss) (q : State)
    (h h' : Head) : Prop :=
  ∃ y old post, BodyAt s h.cursor y old post ∧ ∃ (ds' : Derivations ss) (h'' : Head),
    ds.Moved (s.replacing new) ds' ∧
    ds'.Reads q ⟨h.state, h.cursor.place, y ++ (new ++ post)⟩ h'' ∧
    h'.Follows (s.replacing new) h''

/-- What comes behind a part with a body is read at other places. -/
theorem Replaces.cons {s : Span} {new : List Char} {sy : Symbol} {ss : List Symbol}
    {d : Derivation sy} {ds : Derivations ss} {q q' : State} {h h₁ h' : Head}
    (hd : Replaces s new d q h h₁) (hmove : q.row.move? sy = some q') (hds : ds.Reads q' h₁ h') :
    ReplacesAll s new (.cons d ds) q h h' := by
  obtain ⟨y, old, post, hat, d', h₁', hmoved, hreads, hnext⟩ := hd
  obtain ⟨ds', h'', hmoved', hreads', hnext'⟩ :=
    ds.exists_moved hds hnext (.refl q') fun _ _ => rfl
  exact ⟨y, old, post, hat, .cons d' ds', h'', ⟨hmoved, hmoved'⟩,
    ⟨h₁', q', hreads, hmove, hreads'⟩, hnext'⟩

/-- What comes before a part with a body is read at the same place. -/
theorem ReplacesAll.cons {s : Span} {new : List Char} {sy : Symbol} {ss : List Symbol}
    {d : Derivation sy} {ds : Derivations ss} {q q' : State} {h h₁ h' : Head}
    (hds : ReplacesAll s new ds q' h₁ h') (hmove : q.row.move? sy = some q') (hd : d.Reads q h h₁)
    (hs : s.Within h₁.cursor.place h'.cursor.place) (hnew : new.head? = some '\x7b') :
    ReplacesAll s new (.cons d ds) q h h' := by
  obtain ⟨y, old, post, ⟨hrest, hstart, hstop, hlt, hold⟩, ds', h'', hmoved, hreads, hnext⟩ := hds
  obtain ⟨segments, ⟨hbefore, hplace, -⟩, -⟩ := d.exists_segments hd
  have hmoved' : d.Moved (s.replacing new) d :=
    d.moved_of_reads hd _ (Nat.le_trans hs.start.offset hs.order)
  have hreplaceable : Replaceable (old ++ post) (new ++ post) := by
    obtain ⟨v, rfl⟩ := List.head?_eq_some_iff.1 hold
    obtain ⟨v', rfl⟩ := List.head?_eq_some_iff.1 hnew
    exact ⟨.inr ⟨_, _, rfl, .inr rfl⟩, by simp⟩
  have hreads' : d.Reads q
      ⟨h.state, h.cursor.place, (Segment.join segments ++ y) ++ (new ++ post)⟩
      ⟨h₁.state, h₁.cursor.place, y ++ (new ++ post)⟩ := by
    obtain ⟨q₁, p₁, cs₁⟩ := h₁
    obtain ⟨q₀, p₀, cs₀⟩ := h
    obtain rfl : cs₁ = y ++ (old ++ post) := hrest
    obtain rfl : cs₀ = (Segment.join segments ++ y) ++ (old ++ post) := by
      rw [List.append_assoc]
      exact hbefore
    exact d.reads_of_replaced hd hreplaceable
  refine ⟨Segment.join segments ++ y, old, post, ⟨?_, ?_, hstop, hlt, hold⟩, .cons d ds', h'',
    ⟨hmoved', hmoved⟩, ⟨_, q', hreads', hmove, hreads⟩, hnext⟩
  · rw [hbefore, hrest, List.append_assoc]
  · rw [hstart, hplace, Position.afterAll_append]

mutual

/-- A body of a derivation can be replaced. -/
theorem Grammar.Derivation.replaces {sy : Symbol} (d : Derivation sy) {q q' : State}
    {h h' : Head} {s : Span} {new : List Char} (hd : d.Reads q h h')
    (hmove : q.row.move? sy = some q') (hline : 0 < h.cursor.place.line)
    (hvalid : d.invalidInteger? = none) (hs : s ∈ d.bodies) (hnew : IsBody new) :
    Replaces s new d q h h' :=
  match d with
  | .leaf t w => absurd hs (by simp [Derivation.bodies])
  | .node p ds => by
    rw [Derivation.bodies] at hs
    split at hs
    · next hp =>
      rw [List.mem_singleton.1 hs]
      exact replaces_block hp hd hmove hline hvalid hnew
    · next hp =>
      obtain ⟨y, old, post, hat, ds', h'', hmoved, hreads, hnext⟩ :=
        ds.replaces hd hline hvalid hs hnew
      exact ⟨y, old, post, hat, .node p ds', h'', hmoved.node, hreads, hnext⟩

/-- A body of a list of derivations can be replaced. -/
theorem Grammar.Derivations.replaces {ss : List Symbol} (ds : Derivations ss) {q : State}
    {h h' : Head} {s : Span} {new : List Char} (hds : ds.Reads q h h')
    (hline : 0 < h.cursor.place.line) (hvalid : ds.invalidInteger? = none) (hs : s ∈ ds.bodies)
    (hnew : IsBody new) : ReplacesAll s new ds q h h' :=
  match ds with
  | .nil => absurd hs (by simp [Derivations.bodies])
  | .cons d ds => by
    obtain ⟨h₁, q', hd, hmove, hds⟩ := hds
    obtain ⟨hvalid, hvalid'⟩ := (Derivations.invalidInteger?_cons d ds).1 hvalid
    rw [Derivations.bodies] at hs
    rcases List.mem_append.1 hs with hs | hs
    · exact (d.replaces hd hmove hline hvalid hs hnew).cons hmove hds
    · have hline' := Nat.lt_of_lt_of_le hline (d.ordered_words hd).reaches.line
      have hwithin := (ds.ordered_bodies hds).within s hs
      have hhead : new.head? = some '\x7b' := by
        obtain ⟨r, rfl, -⟩ := hnew
        rfl
      exact (ds.replaces hds hline' hvalid' hs hnew).cons hmove hd hwithin hhead

end

end CadenceEntry
