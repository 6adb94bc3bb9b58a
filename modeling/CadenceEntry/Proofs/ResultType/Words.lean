import CadenceEntry.Proofs.Body.Scan
import CadenceEntry.Proofs.Source.Replacing
import CadenceEntry.Proofs.TypeText.Keywords

/-!
# The words of a type in other states

What separates words does not depend on the state, and a word of a type that one state has found is
found by every other state that admits it, as long as the other state does not reserve a name. The
exception that has to be excluded is a keyword found by its spelling alone: a state that admits
names finds a longer name there. The states in which types are read admit names wherever they admit
a keyword of types. `Stands` collects what is known of the place of a word then, and
`Derivation.laid_of_reads` says it of all words of a type that has been read.
-/

set_option autoImplicit false

namespace CadenceEntry

open Grammar
open Source (Head)

/-! ## What separates words -/

/-- White space and comments are found in every state. -/
theorem Piece.next?_gap_congr {q : State} {cs : List Char} {n : Nat}
    (h : next? q cs = some (.gap n)) (q' : State) : next? q' cs = some (.gap n) := by
  obtain ⟨c, hterminal, -, hlength⟩ := exists_class_of_gap h
  have hc : c ∈ q'.wordClasses := State.mem_wordClasses_iff.2 (by simp [hterminal])
  rw [next?_of_class hc hlength, ofClass, hterminal,
    List.length_take_of_le (WordClass.length?_take hlength).1]

/-- A scan that goes on further on goes on from here on. -/
theorem ScansTo.add {mode : ScanMode} {depth m n : Nat} {cs : List Char}
    (h : ScansTo mode depth cs m) (h' : ScansTo .code depth (cs.drop m) n) :
    ScansTo mode depth cs (m + n) := by
  unfold ScansTo at h h' ⊢
  rw [h, h', List.drop_drop, map_add_add, Nat.add_comm n m]

namespace NextWord

/-- What is skipped in one state is skipped in every state, wherever the text stands. -/
theorem Skips.elsewhere {q : State} {c c' : Cursor} (h : Skips q c c') {g : List Char}
    (hg : c.rest = g ++ c'.rest) (q' : State) (p : Position) :
    Skips q' ⟨p, c.rest⟩ ⟨p.afterAll g, c'.rest⟩ := by
  induction h using Relation.ReflTransGen.head_induction_on generalizing g p with
  | refl =>
    obtain rfl : g = [] := by simpa using hg
    exact .refl
  | @head c c₁ hstep hskips ih =>
    obtain ⟨n, hnext, rfl⟩ := hstep
    obtain ⟨y, hrest, -⟩ := Skips.exists_rest hskips
    have hsplit : c.rest = (c.rest.take n ++ y) ++ c'.rest := by
      rw [List.append_assoc, ← hrest]
      exact (List.take_append_drop n c.rest).symm
    obtain rfl : g = c.rest.take n ++ y := List.append_cancel_right (hg.symm.trans hsplit)
    refine .head ⟨n, Piece.next?_gap_congr hnext q', rfl⟩ ?_
    have htail := ih hrest (p.afterAll (c.rest.take n))
    rw [← Position.afterAll_append] at htail
    exact htail

/-- A scan of a body goes over what is skipped. -/
theorem Skips.scansTo {q : State} {c c' : Cursor} (h : Skips q c c') {g : List Char}
    (hg : c.rest = g ++ c'.rest) (depth : Nat) : ScansTo .code depth c.rest g.length := by
  induction h using Relation.ReflTransGen.head_induction_on generalizing g with
  | refl =>
    obtain rfl : g = [] := by simpa using hg
    exact scansTo_zero depth c'.rest
  | @head c c₁ hstep hskips ih =>
    obtain ⟨n, hnext, rfl⟩ := hstep
    obtain ⟨y, hrest, -⟩ := Skips.exists_rest hskips
    have hle := (Piece.isGap_of_next? hnext).1
    have hlength : g.length = n + y.length := by
      have hwhole := congrArg List.length hg
      have htail := congrArg List.length hrest
      rw [Cursor.advance, List.length_drop, List.length_append] at htail
      rw [List.length_append] at hwhole
      omega
    obtain ⟨k, hterminal, -, hk⟩ := Piece.exists_class_of_gap hnext
    have hbody : k ∈ WordClass.inBody := by
      revert hterminal
      cases k <;> decide
    rw [hlength]
    exact (scansTo_of_length? depth hbody hk).add (ih hrest)

/-- Where nothing but white space and comments is left, every state comes to the end. -/
theorem finish_elsewhere {q : State} {p : Position} {y : List Char} (h : read q ⟨p, y⟩ = .finish)
    (q' : State) (p' : Position) : read q' ⟨p', y⟩ = .finish := by
  obtain ⟨p₁, hskips⟩ := exists_skips_of_finish h
  have h' := hskips.elsewhere (List.append_nil y).symm q' p'
  rw [h'.read_eq]
  exact read_of_nil rfl

end NextWord

/-! ## What is found in other states -/

/-- A word that has been found in one state is found in every state that admits it and does not
reserve it, if the first state admits names or the word is no keyword. -/
theorem Piece.next?_elsewhere {q q' : State} {t : Terminal} {w rest : List Char}
    (h : next? q (w ++ rest) = some (.word t w.length))
    (hkeyword : WordClass.name.covers t = true → q.admits (.word .name) = true)
    (hadmits : q'.admits (.word t) = true) (hname : t = .name → q'.reserves w = false) :
    next? q' (w ++ rest) = some (.word t w.length) := by
  obtain ⟨-, hmatches, hfound, -⟩ := matches_of_next? h
  rw [List.take_left] at hmatches
  rcases next?_cases h with ⟨c, n, hc, hn, heq⟩ | ⟨-, hspelling⟩
  · have hlength : ((w ++ rest).take n).length = n :=
      List.length_take_of_le (WordClass.length?_take hn).1
    cases hterminal : c.terminal? with
    | none =>
      rw [ofClass, hterminal] at heq
      exact absurd heq (by simp)
    | some s =>
      rw [ofClass, hterminal, hlength] at heq
      obtain ⟨ht, rfl⟩ := Piece.word.inj heq
      have hself := (WordClass.length?_take hn).2
      rw [List.take_left] at ht hself
      rcases q.classify_cases s w with ⟨hclass, -⟩ | ⟨-, hchars, hfixed⟩
      · -- the word is one of its class, and the other state tries this class, too
        obtain rfl : t = s := ht.trans hclass
        have hc' : c ∈ q'.wordClasses := by
          rw [State.mem_wordClasses_iff, hterminal]
          rintro t' heq
          rw [← Option.some.inj heq]
          exact hadmits
        have hreserves : q'.reserves w = false := by
          by_cases hisName : t = .name
          · exact hname hisName
          · exact State.reserves_of_class (Terminal.class?_eq_some_iff.2 hterminal) hisName hadmits
              hself
        rw [next?_of_class hc' hn, List.take_left, ofClass, hterminal]
        dsimp only
        rw [State.classify_of_not_reserves hreserves]
      · -- the word is a keyword, found as a name that is spelled like it
        rw [← ht] at hchars hfixed
        rcases Terminal.eq_name_of_covers ((Terminal.covers_iff hchars).2 hself) with
          rfl | ⟨rfl, hnot⟩
        · refine next?_of_matches hadmits hmatches hname fun x hx => ?_
          rw [Terminal.continues, Terminal.class?_eq_none_iff.2 hfixed]
          have hx' : WordClass.continuesName x = false := WordClass.stops_of_name hn x hx
          dsimp only
          rw [hx', Bool.and_false]
        · have hstatement := State.mem_wordClasses_iff.1 hc _ rfl
          rw [State.not_admits_of_statement hstatement hnot] at hfound
          exact absurd hfound (by simp)
  · -- the word is found by its spelling, so it is not left to the names
    obtain ⟨s, hs, v, hv, -, heq⟩ := exists_of_ofSpelling? hspelling
    obtain ⟨rfl, -⟩ := Piece.word.inj heq
    obtain ⟨hfixed, hprop⟩ := List.mem_filter.1 hs
    simp only [Bool.and_eq_true, Bool.not_eq_true'] at hprop
    refine next?_of_matches hadmits hmatches hname fun x hx => ?_
    rw [Terminal.continues, Terminal.class?_eq_none_iff.2 hfixed]
    dsimp only
    have hcovers : WordClass.name.covers t = false := by
      rw [Bool.eq_false_iff]
      intro hcovers
      have hc : WordClass.name ∈ q.wordClasses :=
        State.mem_wordClasses_iff.2 fun _ hterminal => by
          rw [← Option.some.inj hterminal]
          exact hkeyword hcovers
      have hnot := List.any_eq_false.1 hprop.2 _ hc
      exact hnot hcovers
    rw [hcovers, Bool.false_and]

namespace Grammar

/-- Whether only types are read in the state that the row belongs to. -/
def Row.readsTypes (r : Row) : Bool :=
  r.items.all fun i => i.production.lhs.isType

/-- A state in which only types are read leads to such states, and admits names if it admits a
keyword of types. -/
theorem Row.of_readsTypes {r : Row} (hr : r ∈ Table.rows) (h : r.readsTypes = true) :
    (∀ m ∈ r.moves, (State.row m.2).readsTypes = true) ∧
      ∀ k ∈ Terminal.typeWords, r.admits (.word k) = true → r.admits (.word .name) = true := by
  have hall : (Table.rows.all fun r => !r.readsTypes ||
      (r.moves.all fun m => (State.row m.2).readsTypes) &&
        Terminal.typeWords.all fun k => !r.admits (.word k) || r.admits (.word .name)) = true := by
    decide +kernel
  have hrow := List.all_eq_true.1 hall r hr
  rw [h, Bool.not_true, Bool.false_or, Bool.and_eq_true] at hrow
  refine ⟨List.all_eq_true.1 hrow.1, fun k hk hadmits => ?_⟩
  have hk' := List.all_eq_true.1 hrow.2 k hk
  rwa [hadmits, Bool.not_true, Bool.false_or] at hk'

/-- From a state in which only types are read, a move leads to such a state. -/
theorem State.readsTypes_of_move? {q q' : State} {s : Symbol} (h : q.row.readsTypes = true)
    (hmove : q.row.move? s = some q') : q'.row.readsTypes = true := by
  have hmem : (s, q') ∈ q.row.moves := by
    obtain ⟨l₁, l₂, hl, -⟩ := List.lookup_eq_some_iff.1 hmove
    rw [hl]
    simp
  exact (Row.of_readsTypes (State.row_mem_of_move? hmove) h).1 _ hmem

/-- A state in which only types are read admits names where it admits a keyword. -/
theorem State.admits_name_of_readsTypes {q : State} {k : Terminal} (h : q.row.readsTypes = true)
    (hk : k ∈ Terminal.typeWords) (hadmits : q.admits (.word k) = true) :
    q.admits (.word .name) = true := by
  rcases q.row_mem with hrow | hrow
  · exact (Row.of_readsTypes hrow h).2 k hk hadmits
  · unfold State.admits at hadmits
    rw [hrow] at hadmits
    exact absurd hadmits (by cases k <;> decide)

/-- The words and phrases that types are made of, with no keywords but those of types. -/
def Symbol.inType : Symbol → Bool
  | .token t => !WordClass.name.covers t || Terminal.typeWords.contains t
  | .phrase n => n.isType

/-- What a type is put together from is made of types and their words. -/
theorem Production.inType_of_mem {p : Production} {s : Symbol} (hp : p.lhs.isType = true)
    (h : s ∈ p.rhs) : s.inType = true := by
  have hall : (Production.all.all fun p => !p.lhs.isType || p.rhs.all Symbol.inType) = true := by
    decide
  have hrhs := List.all_eq_true.1 hall p p.mem_all
  rw [hp, Bool.not_true, Bool.false_or] at hrhs
  exact List.all_eq_true.1 hrhs s h

end Grammar

/-! ## Where a word stands -/

/-- What is known of the place of a word that has been read: what is before it separates words, in
every state and for a scan of a body, and every state that admits it and does not reserve it finds
it. -/
structure Stands (t : Terminal) (g w rest : List Char) : Prop where
  isWord : t.Matches w
  skips : ∀ q p, NextWord.Skips q ⟨p, g ++ (w ++ rest)⟩ ⟨p.afterAll g, w ++ rest⟩
  found : ∀ q : State, q.admits (.word t) = true → (t = .name → q.reserves w = false) →
    Piece.next? q (w ++ rest) = some (.word t w.length)
  scans : ∀ depth, ScansTo .code depth (g ++ (w ++ rest)) g.length

/-- A word whose place is known is found. -/
theorem Stands.findable {t : Terminal} {g w rest : List Char} (h : Stands t g w rest) :
    Findable t g w rest := by
  intro q p hadmits hname
  rw [(h.skips q p).read_eq, NextWord.read_of_word (h.found q hadmits hname), Cursor.lexeme,
    Cursor.advance, List.take_left, List.drop_left, Position.afterAll_append]

/-- A word of a type that has been read stands where it was read. -/
theorem Stands.of_read {q : State} {c c' : Cursor} {t : Terminal} {w : Lexeme}
    (hread : NextWord.read q c = .word t w c') (hq : q.row.readsTypes = true)
    (htype : (Symbol.token t).inType = true) :
    ∃ g, c.rest = g ++ (w.text ++ c'.rest) ∧ Stands t g w.text c'.rest := by
  obtain ⟨hskips, hnext, -⟩ := NextWord.exists_skips_of_word hread
  obtain ⟨g, hg, -⟩ := hskips.exists_rest
  obtain ⟨-, hmatches, hadmits, -⟩ := Piece.matches_of_next? hnext
  rw [List.take_left] at hmatches
  have hkeyword : WordClass.name.covers t = true → q.admits (.word .name) = true := by
    intro hcovers
    rw [Symbol.inType, hcovers, Bool.not_true, Bool.false_or, List.contains_iff_mem] at htype
    exact State.admits_name_of_readsTypes hq htype hadmits
  refine ⟨g, hg, hmatches, fun q' p => ?_, fun q' => Piece.next?_elsewhere hnext hkeyword,
    fun depth => ?_⟩
  · have h := hskips.elsewhere hg q' p
    rwa [hg] at h
  · have h := hskips.scansTo hg depth
    rwa [hg] at h

mutual

/-- The words of a type that has been read stand where they were read. -/
theorem Grammar.Derivation.laid_of_reads {s : Symbol} (d : Derivation s) {q : State} {h h' : Head}
    (htype : s.inType = true) (hq : q.row.readsTypes = true)
    (hstate : h.state.row.readsTypes = true) (hd : d.Reads q h h') :
    Laid Stands d.words h.cursor.rest h'.cursor.rest ∧ h'.state.row.readsTypes = true :=
  match d with
  | .leaf t w => by
    obtain ⟨g, hrest, hstands⟩ := Stands.of_read hd.1 hstate htype
    exact ⟨⟨g, h'.cursor.rest, hrest, hstands, rfl⟩, State.readsTypes_of_move? hq hd.2⟩
  | .node p ds => ds.laid_of_reads (fun s hs => p.inType_of_mem htype hs) hq hstate hd

/-- The words of parts of a type that have been read stand where they were read. -/
theorem Grammar.Derivations.laid_of_reads {ss : List Symbol} (ds : Derivations ss) {q : State}
    {h h' : Head} (htype : ∀ s ∈ ss, s.inType = true) (hq : q.row.readsTypes = true)
    (hstate : h.state.row.readsTypes = true) (hds : ds.Reads q h h') :
    Laid Stands ds.words h.cursor.rest h'.cursor.rest ∧ h'.state.row.readsTypes = true :=
  match ds with
  | .nil => by
    obtain rfl := hds
    exact ⟨rfl, hstate⟩
  | .cons d ds => by
    obtain ⟨h₁, q', hd, hmove, hds⟩ := hds
    obtain ⟨hlaid, hstate₁⟩ := d.laid_of_reads (htype _ List.mem_cons_self) hq hstate hd
    obtain ⟨hlaid', hstate'⟩ := ds.laid_of_reads (fun s hs => htype s (List.mem_cons_of_mem _ hs))
      (State.readsTypes_of_move? hq hmove) hstate₁ hds
    exact ⟨laid_append.2 ⟨_, hlaid, hlaid'⟩, hstate'⟩

end

end CadenceEntry
