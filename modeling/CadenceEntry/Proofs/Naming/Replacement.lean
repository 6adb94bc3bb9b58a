import CadenceEntry.Proofs.Naming.Before
import CadenceEntry.Proofs.Naming.Slots
import CadenceEntry.Proofs.Naming.Template

/-!
# Replacing a name

A name of a declaration header can be replaced by any other word, keywords included, where no
keyword is looked for. What comes before it is read as before, and what comes behind it is read at
another place, so both derivations are one template with a word filled in: `Derivation.opens`.
-/

set_option autoImplicit false

namespace CadenceEntry

open Grammar
open Source (Head)

/-- The word `v` can be in the place of the name: it is the name itself, or none of the keywords
that could come there. -/
structure NameSlot.Takes (x : NameSlot) (v : String) : Prop where
  name : Terminal.name.Matches v.toList
  free : v = x.word.spelling ∨ ∀ t ∈ x.reserved, t.spelling? ≠ some v

/-- The text at the head goes on with `y`, then with the name `x`, and then with `post`. -/
structure NameAt (x : NameSlot) (h : Head) (y post : List Char) : Prop where
  rest : h.cursor.rest = y ++ (x.word.text ++ post)
  start : x.word.start = h.cursor.place.afterAll y
  name : Terminal.name.Matches x.word.text
  ahead : NameAhead (x.word.text ++ post) h.state h.cursor.place y

/-- Where what comes behind a name goes when the hole is put in its place. -/
def Lexeme.opening (w : Lexeme) : Position → Position :=
  Position.movedFrom (w.start.afterAll w.text) (w.start.afterAll hole.toList)

/-- The pieces of text stand between `p` and the hole at `a`, or between the hole and `p'`. -/
def Beside (a p p' : Position) (ss : List Span) : Prop :=
  ∀ s ∈ ss, s.Within p a ∨ s.Within (a.afterAll hole.toList) p'

/-- The template `e` has a hole in the place of the name `x`. With any word filled in that can be
there it is read off the text with this word, and what comes behind the head `k` comes next. -/
structure Opens (x : NameSlot) {s : Symbol} (e : Derivation s) (q : State) (h k : Head)
    (y post : List Char) : Prop where
  names : e.names.count hole = 1
  beside : Beside x.word.start h.cursor.place k.cursor.place e.bodies
  reaches : (x.word.start.afterAll hole.toList).Reaches k.cursor.place
  fills : ∀ v, x.Takes v → ∃ (d' : Derivation s) (k' : Head),
    e.Filled (.filling x.word.start v) v d' ∧
      d'.Reads q ⟨h.state, h.cursor.place, y ++ (v.toList ++ post)⟩ k' ∧
      k.Follows (Relocation.filling x.word.start v).place k'

/-- The same for lists of derivations. -/
structure OpensAll (x : NameSlot) {ss : List Symbol} (es : Derivations ss) (q : State) (h k : Head)
    (y post : List Char) : Prop where
  names : es.names.count hole = 1
  beside : Beside x.word.start h.cursor.place k.cursor.place es.bodies
  reaches : (x.word.start.afterAll hole.toList).Reaches k.cursor.place
  fills : ∀ v, x.Takes v → ∃ (ds' : Derivations ss) (k' : Head),
    es.Filled (.filling x.word.start v) v ds' ∧
      ds'.Reads q ⟨h.state, h.cursor.place, y ++ (v.toList ++ post)⟩ k' ∧
      k.Follows (Relocation.filling x.word.start v).place k'

/-- Behind a name that is found nothing comes that continues it. -/
theorem Piece.stops_of_next?_name {q : State} {w rest : List Char}
    (h : next? q (w ++ rest) = some (word .name w.length)) : Terminal.name.Stops rest := by
  obtain ⟨-, hmatches, hadmits, -⟩ := matches_of_next? h
  rw [List.take_left] at hmatches
  obtain ⟨x, u, rfl, hx⟩ := beginsName_of_matches hmatches
  have hname : WordClass.name ∈ q.wordClasses := by
    rw [State.mem_wordClasses_iff]
    intro t ht
    rw [← Option.some.inj ht]
    exact hadmits
  have hlength : WordClass.name.length? (x :: u ++ rest) =
      some (WordClass.run WordClass.continuesName (u ++ rest) + 1) := by
    rw [List.cons_append, WordClass.length?, WordClass.nameLength?, if_pos hx]
  have hfound := next?_of_class hname hlength
  rw [h, ofClass] at hfound
  obtain ⟨-, hlength'⟩ := Piece.word.inj (Option.some.inj hfound)
  rw [List.length_take_of_le (WordClass.length?_take hlength).1] at hlength'
  rw [← hlength'] at hlength
  exact WordClass.stops_of_name hlength

/-- Another name is found in the place of a name, if the state does not reserve it. -/
theorem NextWord.read_other_name {q : State} {c c' : Cursor} {w : Lexeme} {y : List Char}
    (h : read q c = .word .name w c') (hskips : Skips q c ⟨w.start, w.text ++ c'.rest⟩)
    (hy : c.rest = y ++ (w.text ++ c'.rest)) {v : List Char} (hv : Terminal.name.Matches v)
    (hreserves : q.reserves v = false) :
    read q ⟨c.place, y ++ (v ++ c'.rest)⟩ =
      .word .name ⟨v, w.start⟩ ⟨w.start.afterAll v, c'.rest⟩ := by
  obtain ⟨-, hfound, -⟩ := exists_skips_of_word h
  obtain ⟨-, hmatches, hadmits, -⟩ := Piece.matches_of_next? hfound
  rw [List.take_left] at hmatches
  have hnext := Piece.next?_of_matches hadmits hv (fun _ => hreserves)
    (Piece.stops_of_next?_name hfound)
  have hskipped : read q ⟨c.place, y ++ (v ++ c'.rest)⟩ = read q ⟨w.start, v ++ c'.rest⟩ := by
    refine hskips.read_of_replaced hy ?_
    -- the name is not the end of a line
    obtain ⟨x, u, hxu, hx⟩ := beginsName_of_matches hmatches
    show w.text ++ c'.rest = [] ∨ (w.text ++ c'.rest).head? = some '\n' → _
    rw [hxu]
    rintro (hnil | hhead)
    · exact absurd hnil (by simp)
    · obtain rfl := Option.some.inj hhead
      exact absurd hx (by decide)
  rw [hskipped, read_of_word (c := ⟨w.start, v ++ c'.rest⟩) hnext, Cursor.lexeme, Cursor.advance,
    List.take_left, List.drop_left]

/-- A name is replaced where it stands. -/
theorem opens_name {w : Lexeme} {ts : List Terminal} {q : State} {h h' : Head}
    (hd : (Derivation.leaf .name w).Reads q h h') (hline : 0 < h.cursor.place.line)
    (hts : h.state.ReservesOnly ts) :
    ∃ (y post : List Char) (e : Derivation (.token .name)) (k : Head),
      NameAt ⟨w, ts⟩ h y post ∧ h'.Follows w.opening k ∧ Opens ⟨w, ts⟩ e q h k y post := by
  obtain ⟨hread, hmove⟩ := hd
  obtain ⟨hskips, hfound, hplace⟩ := NextWord.exists_skips_of_word hread
  obtain ⟨y, hy, hstart⟩ := hskips.exists_rest
  have hstart : w.start = h.cursor.place.afterAll y := hstart
  obtain ⟨-, hmatches, -, hreserves⟩ := Piece.matches_of_next? hfound
  rw [List.take_left] at hmatches hreserves
  have hwline : 0 < w.start.line := by
    rw [hstart]
    exact Nat.lt_of_lt_of_le hline (Position.le_afterAll _ y).1
  let k : Head := ⟨h'.state, w.start.afterAll hole.toList, h'.cursor.rest⟩
  have hfollows : h'.Follows w.opening k := by
    have hbehind : 0 < (w.start.afterAll w.text).line :=
      Nat.lt_of_lt_of_le hwline (Position.le_afterAll _ w.text).1
    have hmoved : Cursor.Moved w.opening h'.cursor k.cursor := by
      have hcursor : h'.cursor = ⟨w.start.afterAll w.text, h'.cursor.rest⟩ := by
        rw [← hplace]
      rw [hcursor]
      exact Cursor.moved_of_movedFrom hbehind _ _
    exact NextWord.read_moved h'.state hmoved
  have hahead : NameAhead (w.text ++ h'.cursor.rest) h.state h.cursor.place y := by
    refine ⟨.name, w, h'.cursor, ?_, fun _ => rfl⟩
    rw [← hy]
    exact hread
  refine ⟨y, h'.cursor.rest, .leaf .name ⟨hole.toList, w.start⟩, k,
    ⟨hy, hstart, hmatches, hahead⟩, hfollows, ⟨?_, ?_, ?_, ?_⟩⟩
  · rw [Derivation.names, if_pos rfl, Lexeme.spelling, String.ofList_toList,
      List.count_singleton_self]
  · intro s hs
    exact absurd hs List.not_mem_nil
  · exact ⟨Nat.le_refl _, Nat.le_refl _⟩
  · rintro v ⟨hv, hfree⟩
    have hnot : h.state.reserves v.toList = false := by
      rcases hfree with rfl | hfree
      · rw [Lexeme.spelling, String.toList_ofList]
        exact hreserves rfl
      · refine hts.reserves_eq_false hv fun t ht hchars => hfree t ht ?_
        obtain ⟨s, hs, heq⟩ := Option.map_eq_some_iff.1 hchars
        rw [hs, String.toList_inj.1 heq]
    have hread' := NextWord.read_other_name hread hskips hy hv hnot
    refine ⟨.leaf .name ⟨v.toList, w.start⟩, ⟨h'.state, w.start.afterAll v.toList, h'.cursor.rest⟩,
      ⟨_, rfl, Lexeme.filled_hole hwline v⟩, ⟨hread', hmove⟩, ?_⟩
    exact NextWord.read_moved h'.state (Cursor.moved_filling hwline hv h'.cursor.rest)

/-- What comes behind a part with a hole is read at other places. -/
theorem Opens.cons {x : NameSlot} {s : Symbol} {ss : List Symbol} {e : Derivation s}
    {ds : Derivations ss} {q q' : State} {h h₁ h' k₁ : Head} {y post : List Char}
    (he : Opens x e q h k₁ y post) (hmove : q.row.move? s = some q') (hds : ds.Reads q' h₁ h')
    (hfollows : h₁.Follows x.word.opening k₁) :
    ∃ (es : Derivations ss) (k : Head),
      h'.Follows x.word.opening k ∧ OpensAll x (.cons e es) q h k y post := by
  obtain ⟨es, k, hmoved, hes, hfollows'⟩ :=
    ds.exists_moved hds hfollows (.refl q') fun _ _ => rfl
  have hnot := es.hole_notMem hes
  have hreaches := (es.ordered_words hes).reaches
  refine ⟨es, k, hfollows', ⟨?_, ?_, he.reaches.trans hreaches, ?_⟩⟩
  · rw [Derivations.names, List.count_append, he.names, List.count_eq_zero.2 hnot]
  · intro b hb
    rw [Derivations.bodies] at hb
    rcases List.mem_append.1 hb with hb | hb
    · rcases he.beside b hb with hbefore | hbehind
      · exact .inl hbefore
      · exact .inr (hbehind.mono ⟨Nat.le_refl _, Nat.le_refl _⟩ hreaches)
    · have hwithin := (es.ordered_bodies hes).within b hb
      exact .inr (hwithin.mono he.reaches ⟨Nat.le_refl _, Nat.le_refl _⟩)
  · intro v hv
    obtain ⟨d', k₁', hfilled, hd', hnext⟩ := he.fills v hv
    obtain ⟨ds', k', hmoved', hds', hnext'⟩ :=
      es.exists_moved hes hnext (.refl q') fun _ _ => rfl
    exact ⟨.cons d' ds', k', ⟨hfilled, hmoved'.filled hnot⟩, ⟨k₁', q', hd', hmove, hds'⟩, hnext'⟩

/-- What comes before a part with a hole is read at the same place. -/
theorem OpensAll.cons {x : NameSlot} {s : Symbol} {ss : List Symbol} {d : Derivation s}
    {es : Derivations ss} {q q' : State} {h h₁ k : Head} {y post : List Char}
    (hes : OpensAll x es q' h₁ k y post) (hmove : q.row.move? s = some q') (hd : d.Reads q h h₁)
    (hat : NameAt x h₁ y post) :
    ∃ y', NameAt x h y' post ∧ OpensAll x (.cons d es) q h k y' post := by
  obtain ⟨hrest, hstart, hname, hahead⟩ := hat
  obtain ⟨segments, ⟨hbefore, hplace, -⟩, -⟩ := d.exists_segments hd
  have hnot := d.hole_notMem hd
  have hreaches := (d.ordered_words hd).reaches
  have hword : h₁.cursor.place.Reaches x.word.start := by
    rw [hstart]
    exact Position.reaches_afterAll _ y
  have hbegins : BeginsName (x.word.text ++ post) := (beginsName_of_matches hname).append post
  have hreads :
      NameAhead (x.word.text ++ post) h.state h.cursor.place (Segment.join segments ++ y) ∧
      ∀ new, d.Reads q ⟨h.state, h.cursor.place, (Segment.join segments ++ y) ++ new⟩
        ⟨h₁.state, h₁.cursor.place, y ++ new⟩ := by
    obtain ⟨q₁, p₁, cs₁⟩ := h₁
    obtain ⟨q₀, p₀, cs₀⟩ := h
    obtain rfl : cs₁ = y ++ (x.word.text ++ post) := hrest
    obtain rfl : cs₀ = (Segment.join segments ++ y) ++ (x.word.text ++ post) := by
      rw [List.append_assoc]
      exact hbefore
    exact d.reads_before_name hd hbegins hahead
  refine ⟨Segment.join segments ++ y, ⟨?_, ?_, hname, hreads.1⟩, ⟨?_, ?_, hes.reaches, ?_⟩⟩
  · rw [hbefore, hrest, List.append_assoc]
  · rw [hstart, hplace, Position.afterAll_append]
  · rw [Derivations.names, List.count_append, hes.names, List.count_eq_zero.2 hnot]
  · intro b hb
    rw [Derivations.bodies] at hb
    rcases List.mem_append.1 hb with hb | hb
    · have hwithin := (d.ordered_bodies hd).within b hb
      exact .inl (hwithin.mono ⟨Nat.le_refl _, Nat.le_refl _⟩ hword)
    · rcases hes.beside b hb with hbefore | hbehind
      · exact .inl (hbefore.mono hreaches ⟨Nat.le_refl _, Nat.le_refl _⟩)
      · exact .inr hbehind
  · intro v hv
    obtain ⟨ds', k', hfilled, hds', hnext⟩ := hes.fills v hv
    have hoffset : h₁.cursor.place.offset ≤ (x.word.start.after '?').offset := by
      rw [Position.offset_after]
      exact Nat.le_succ_of_le hword.offset
    have hmoved : d.Moved (Relocation.filling x.word.start v).place d :=
      d.moved_of_reads hd _ hoffset
    exact ⟨.cons d ds', k', ⟨hmoved.filled hnot, hfilled⟩, ⟨_, q', hreads.2 _, hmove, hds'⟩, hnext⟩

mutual

/-- A name of a derivation can be replaced. -/
theorem Grammar.Derivation.opens {s : Symbol} (d : Derivation s) {q : State} {h h' : Head}
    {rs : Option (List Terminal)} {b : Lookahead} {x : NameSlot} (hd : d.Reads q h h')
    (hline : 0 < h.cursor.place.line) (hrs : ∀ ts, rs = some ts → h.state.ReservesOnly ts)
    (hphrase : ∀ p : Production, s = .phrase p.lhs → q.Awaits p 0 b) (hx : x ∈ d.slots rs) :
    ∃ (y post : List Char) (e : Derivation s) (k : Head),
      NameAt x h y post ∧ h'.Follows x.word.opening k ∧ Opens x e q h k y post :=
  match d with
  | .leaf t w => by
    rw [Derivation.slots] at hx
    split at hx
    · next ht =>
      subst ht
      obtain ⟨ts, hts, rfl⟩ := List.mem_map.1 hx
      exact opens_name hd hline (hrs ts (Option.mem_toList.1 hts))
    · exact absurd hx List.not_mem_nil
  | .node p ds => by
    rw [Derivation.slots] at hx
    split at hx
    · exact absurd hx List.not_mem_nil
    · next hp =>
      obtain ⟨y, post, es, k, hat, hfollows, hnames, hbeside, hreaches, hfills⟩ :=
        ds.opens List.drop_zero hd hline hrs (hphrase p rfl) hx
      refine ⟨y, post, .node p es, k, hat, hfollows, ⟨?_, ?_, hreaches, ?_⟩⟩
      · rw [Derivation.names, if_neg hp]
        exact hnames
      · rw [Derivation.bodies, if_neg hp]
        exact hbeside
      · intro v hv
        obtain ⟨ds', k', hfilled, hds', hnext⟩ := hfills v hv
        exact ⟨.node p ds', k', hfilled.node, hds', hnext⟩

/-- A name of a list of derivations can be replaced. -/
theorem Grammar.Derivations.opens {ss : List Symbol} (ds : Derivations ss) {q : State}
    {h h' : Head} {rs : Option (List Terminal)} {p : Production} {n : Nat} {a : Lookahead}
    {x : NameSlot} (hss : p.rhs.drop n = ss) (hds : ds.Reads q h h')
    (hline : 0 < h.cursor.place.line) (hrs : ∀ ts, rs = some ts → h.state.ReservesOnly ts)
    (hawaits : q.Awaits p n a) (hx : x ∈ ds.slots p n rs) :
    ∃ (y post : List Char) (es : Derivations ss) (k : Head),
      NameAt x h y post ∧ h'.Follows x.word.opening k ∧ OpensAll x es q h k y post :=
  match ds with
  | .nil => absurd hx (by simp [Derivations.slots])
  | .cons (s := s) d ds => by
    obtain ⟨h₁, q', hd, hmove, hds⟩ := hds
    obtain ⟨-, hrest, ⟨q'', hmove', hnext⟩, -, hphrase⟩ := hawaits.cons hss ds
    rw [hmove] at hmove'
    obtain rfl := Option.some.inj hmove'
    have hs : p.rhs[n]? = some s := by
      rw [← List.head?_drop, hss]
      rfl
    rw [Derivations.slots] at hx
    rcases List.mem_append.1 hx with hx | hx
    · obtain ⟨y, post, e, k, hat, hfollows, he⟩ := d.opens hd hline hrs hphrase hx
      obtain ⟨es, k', hfollows', hes⟩ := he.cons hmove hds hfollows
      exact ⟨y, post, .cons e es, k', hat, hfollows', hes⟩
    · have hline' := Nat.lt_of_lt_of_le hline (d.ordered_words hd).reaches.line
      have hrs' : ∀ ts, p.reserved? (n + 1) = some ts → h₁.state.ReservesOnly ts :=
        fun ts hts => d.reservesOnly_behind hs hd hawaits hphrase hts
      obtain ⟨y, post, es, k, hat, hfollows, hes⟩ :=
        ds.opens hrest hds hline' hrs' hnext hx
      obtain ⟨y', hat', hes'⟩ := hes.cons hmove hd hat
      exact ⟨y', post, .cons d es, k, hat', hfollows, hes'⟩

end

end CadenceEntry
