import CadenceEntry.Proofs.Body.Nesting
import CadenceEntry.Proofs.Source.Replacing

/-!
# Reading a text as a body

A text of which a scan finds the end is read as a body, whatever comes behind it. A scan with some
braces open goes on behind the brace that closes the innermost of them, so a block that is nested in
a body is read like the body itself.
-/

set_option autoImplicit false

namespace CadenceEntry

open Grammar
open Source (Head)

/-! ## More about scans -/

/-- A scan that finds the end of a body does not look at the text behind it. -/
theorem scanBody_append {mode : ScanMode} {depth n : Nat} {cs : List Char}
    (h : scanBody mode depth cs = some n) (rest : List Char) :
    scanBody mode depth (cs ++ rest) = some n := by
  have hstep : ∀ {cs : List Char} {mode' : ScanMode} {depth' n : Nat},
      (∀ {m}, scanBody mode' depth' cs = some m → scanBody mode' depth' (cs ++ rest) = some m) →
        (scanBody mode' depth' cs).map (· + 1) = some n →
          (scanBody mode' depth' (cs ++ rest)).map (· + 1) = some n := by
    intro cs mode' depth' n hcs h
    obtain ⟨m, hm, rfl⟩ := Option.map_eq_some_iff.1 h
    rw [hcs hm]
    rfl
  induction cs generalizing mode depth n with
  | nil => exact absurd h (by cases mode <;> simp [scanBody])
  | cons c cs ih =>
    -- marks of two characters are complete: behind the first of them the text goes on
    have hhead : cs = [] ∨ (cs ++ rest).head? = cs.head? := by
      cases cs with
      | nil => exact .inl rfl
      | cons => exact .inr rfl
    rw [List.cons_append]
    cases mode with
    | code =>
      rw [scanBody] at h ⊢
      revert h
      split
      · exact hstep ih
      split
      · split
        · exact id
        · exact hstep ih
      split
      · exact hstep ih
      rcases hhead with rfl | hhead
      · exact fun h => absurd h (by simp [scanBody])
      rw [hhead]
      split
      · exact hstep ih
      split
      · exact hstep ih
      split
      · exact fun h => absurd h (by simp)
      · exact hstep ih
    | string =>
      rw [scanBody] at h ⊢
      revert h
      split
      · exact hstep ih
      split
      · exact fun h => absurd h (by simp)
      split
      · exact hstep ih
      · exact hstep ih
    | escape =>
      rw [scanBody] at h ⊢
      revert h
      split
      · exact fun h => absurd h (by simp)
      · exact hstep ih
    | lineComment =>
      rw [scanBody] at h ⊢
      revert h
      split
      · exact hstep ih
      · exact hstep ih
    | commentStart => exact hstep ih h
    | blockComment =>
      rcases hhead with rfl | hhead
      · exact absurd h (by simp [scanBody])
      rw [scanBody] at h ⊢
      rw [hhead]
      revert h
      split
      · exact hstep ih
      · exact hstep ih
    | commentEnd => exact hstep ih h

/-- A scan with more braces open goes on where they begin to be closed. -/
theorem scanBody_add {depth e : Nat} (hdepth : 0 < depth) (he : 0 < e) (mode : ScanMode)
    (cs : List Char) :
    scanBody mode (depth + e) cs =
      (scanBody mode depth cs).bind fun m => (scanBody .code e (cs.drop m)).map (· + m) := by
  have hstep : ∀ {c : Char} {cs : List Char} {mode' : ScanMode} {depth' : Nat},
      scanBody mode' (depth' + e) cs =
          (scanBody mode' depth' cs).bind (fun m => (scanBody .code e (cs.drop m)).map (· + m)) →
        (scanBody mode' (depth' + e) cs).map (· + 1) =
          ((scanBody mode' depth' cs).map (· + 1)).bind fun m =>
            (scanBody .code e ((c :: cs).drop m)).map (· + m) := by
    intro c cs mode' depth' h
    rw [h]
    cases scanBody mode' depth' cs with
    | none => rfl
    | some m =>
      show ((scanBody .code e (cs.drop m)).map (· + m)).map (· + 1) =
        (scanBody .code e (cs.drop m)).map (· + (m + 1))
      exact map_add_add _ _ _
  induction cs generalizing mode depth with
  | nil => cases mode <;> rfl
  | cons c cs ih =>
    cases mode with
    | code =>
      rw [scanBody, scanBody]
      by_cases hopen : c = '\x7b'
      · rw [if_pos hopen, if_pos hopen, Nat.add_right_comm]
        exact hstep (ih (Nat.succ_pos depth) .code)
      rw [if_neg hopen, if_neg hopen]
      by_cases hclose : c = '\x7d'
      · rw [if_pos hclose, if_pos hclose, if_neg (by omega)]
        by_cases hone : depth = 1
        · subst hone
          rw [if_pos rfl, Nat.add_sub_cancel_left]
          rfl
        · rw [if_neg hone, Nat.sub_add_comm hdepth]
          exact hstep (ih (by omega) .code)
      rw [if_neg hclose, if_neg hclose]
      split
      · exact hstep (ih hdepth .string)
      split
      · exact hstep (ih hdepth .lineComment)
      split
      · exact hstep (ih hdepth .commentStart)
      split
      · rfl
      · exact hstep (ih hdepth .code)
    | string =>
      rw [scanBody, scanBody]
      split
      · exact hstep (ih hdepth .code)
      split
      · rfl
      split
      · exact hstep (ih hdepth .escape)
      · exact hstep (ih hdepth .string)
    | escape =>
      rw [scanBody, scanBody]
      split
      · rfl
      · exact hstep (ih hdepth .string)
    | lineComment =>
      rw [scanBody, scanBody]
      split
      · exact hstep (ih hdepth .code)
      · exact hstep (ih hdepth .lineComment)
    | commentStart => exact hstep (ih hdepth .blockComment)
    | blockComment =>
      rw [scanBody, scanBody]
      split
      · exact hstep (ih hdepth .commentEnd)
      · exact hstep (ih hdepth .blockComment)
    | commentEnd => exact hstep (ih hdepth .code)

/-! ## The items of a body -/

/-- Between the heads stand items of a body, or nothing, behind an opening brace at `h₀`. -/
def Source.Head.Items (nested : Bool) (h₀ h : Head) : Prop :=
  h = h₀ ∨ ∃ d : Derivation (.phrase .blockItems), d.invalidInteger? = none ∧
    d.Reads (.opened nested) h₀ h

/-- One more item comes behind the others. -/
theorem Source.Head.Items.snoc {nested : Bool} {h₀ h h' : Head} (hitems : Items nested h₀ h)
    {d : Derivation (.phrase .blockItem)} (hvalid : d.invalidInteger? = none)
    (hd : ∀ q ∈ State.pushStates, d.Reads q h h') : Items nested h₀ h' := by
  obtain ⟨hfirst, hmore, -⟩ := State.moves_opened nested
  rcases hitems with rfl | ⟨d₀, hvalid₀, hd₀⟩
  · refine .inr ⟨.node .blockItemFirst (.cons d .nil), ?_, ?_⟩
    · exact (Derivations.invalidInteger?_cons _ _).2 ⟨hvalid, rfl⟩
    · exact ⟨h', 187, hd _ (State.opened_mem nested), hfirst, rfl⟩
  · refine .inr ⟨.node .blockItemNext (.cons d₀ (.cons d .nil)), ?_, ?_⟩
    · refine (Derivations.invalidInteger?_cons _ _).2 ⟨hvalid₀, ?_⟩
      exact (Derivations.invalidInteger?_cons _ _).2 ⟨hvalid, rfl⟩
    · exact ⟨h, .filled nested, hd₀, hmore, h', 188, hd _ (State.filled_mem nested),
        (State.moves_filled nested).1, rfl⟩

/-- A string literal or other text is an item. -/
theorem exists_item_of_word {h : Head} {t : Terminal} {w : Lexeme} {c : Cursor}
    (ht : t = .string ∨ t = .statement)
    (hread : NextWord.read h.state h.cursor = .word t w c) :
    ∃ (d : Derivation (.phrase .blockItem)) (q' : State), q' ∈ State.bodyStates ∧
      d.invalidInteger? = none ∧ ∀ q ∈ State.pushStates, d.Reads q h ⟨q', c⟩ := by
  rcases ht with rfl | rfl
  · refine ⟨.node .itemString (.cons (.leaf .string w) .nil), 190, by decide, rfl, fun q hq => ?_⟩
    have hmove := (State.moves_of_mem_pushStates hq).2.1
    exact ⟨⟨190, c⟩, 190, ⟨hread, hmove⟩, hmove, rfl⟩
  · refine ⟨.node .itemStatement (.cons (.leaf .statement w) .nil), 191, by decide, rfl,
      fun q hq => ?_⟩
    have hmove := (State.moves_of_mem_pushStates hq).2.2.1
    exact ⟨⟨191, c⟩, 191, ⟨hread, hmove⟩, hmove, rfl⟩

/-- A block within a body is an item. -/
theorem exists_item_of_items {h h₁ : Head} {w w' : Lexeme} {c c' : Cursor}
    (hopen : NextWord.read h.state h.cursor = .word .leftBrace w c)
    (hitems : Head.Items true ⟨183, c⟩ h₁)
    (hclose : NextWord.read h₁.state h₁.cursor = .word .rightBrace w' c') :
    ∃ (d : Derivation (.phrase .blockItem)) (q' : State), q' ∈ State.bodyStates ∧
      d.invalidInteger? = none ∧ ∀ q ∈ State.pushStates, d.Reads q h ⟨q', c'⟩ := by
  obtain ⟨-, hmore, hempty⟩ := State.moves_opened true
  have hfilled := (State.moves_filled true).2
  rcases hitems with rfl | ⟨d, hvalid, hd⟩
  · refine ⟨.node .itemNested (.cons (.node .nestedEmpty (.cons (.leaf .leftBrace w)
      (.cons (.leaf .rightBrace w') .nil))) .nil), 186, by decide, rfl, fun q hq => ?_⟩
    obtain ⟨hbrace, -, -, hblock, -⟩ := State.moves_of_mem_pushStates hq
    refine ⟨⟨186, c'⟩, 189, ?_, hblock, rfl⟩
    exact ⟨⟨183, c⟩, 183, ⟨hopen, hbrace⟩, hbrace, ⟨186, c'⟩, 186, ⟨hclose, hempty⟩, hempty, rfl⟩
  · refine ⟨.node .itemNested (.cons (.node .nestedItems (.cons (.leaf .leftBrace w) (.cons d
      (.cons (.leaf .rightBrace w') .nil)))) .nil), 185, by decide, ?_, fun q hq => ?_⟩
    · refine (Derivations.invalidInteger?_cons _ _).2 ⟨?_, rfl⟩
      refine (Derivations.invalidInteger?_cons _ _).2 ⟨rfl, ?_⟩
      exact (Derivations.invalidInteger?_cons _ _).2 ⟨hvalid, rfl⟩
    · obtain ⟨hbrace, -, -, hblock, -⟩ := State.moves_of_mem_pushStates hq
      refine ⟨⟨185, c'⟩, 189, ?_, hblock, rfl⟩
      exact ⟨⟨183, c⟩, 183, ⟨hopen, hbrace⟩, hbrace, h₁, 184, hd, hmore,
        ⟨185, c'⟩, 185, ⟨hclose, hfilled⟩, hfilled, rfl⟩

/-- Behind an opening brace at `h₀` items are read, and then the closing brace, the last of the next
`n` characters at the cursor `c`. -/
def Source.Head.Closes (nested : Bool) (h₀ : Head) (c : Cursor) (n : Nat) : Prop :=
  ∃ (h₁ : Head) (m : Nat) (cs : List Char), Items nested h₀ h₁ ∧ n = m + 1 ∧
    c.rest.drop m = '\x7d' :: cs ∧
    NextWord.read h₁.state h₁.cursor =
      .word .rightBrace ⟨['\x7d'], (c.advance m).place⟩ (c.advance n)

/-- What closes a block further on closes it from here on. -/
theorem Source.Head.Closes.of_advance {nested : Bool} {h₀ : Head} {c : Cursor} {m n : Nat}
    (h : Closes nested h₀ (c.advance m) n) : Closes nested h₀ c (n + m) := by
  obtain ⟨h₁, k, cs, hitems, rfl, hbrace, hread⟩ := h
  rw [Cursor.advance_advance, Cursor.advance_advance] at hread
  refine ⟨h₁, m + k, cs, hitems, by omega, ?_, ?_⟩
  · rw [← hbrace]
    exact List.drop_drop.symm
  · rw [hread, Nat.add_comm (k + 1) m]

/-- The text behind an opening brace is read as items as far as the scan goes. Between the last item
and the cursor `c` there may be white space and comments. -/
theorem closes_of_scanBody {nested : Bool} {h₀ h : Head} {c : Cursor} {n : Nat}
    (hitems : Head.Items nested h₀ h) (hstate : h.state ∈ State.bodyStates)
    (hread : NextWord.read h.state h.cursor = NextWord.read h.state c)
    (hscan : scanBody .code 1 c.rest = some n) : Head.Closes nested h₀ c n := by
  -- by induction on the length of the text: each piece leaves a shorter one
  induction hlength : c.rest.length using Nat.strong_induction_on
    generalizing nested h₀ h c n with
  | _ length ih =>
    cases hrest : c.rest with
    | nil => exact absurd hscan (by rw [hrest]; simp [scanBody])
    | cons x cs =>
      have hne : c.rest ≠ [] := by simp [hrest]
      have hadvance : ∀ m, 0 < m → (c.advance m).rest.length < length := by
        intro m hm
        rw [← hlength]
        exact Cursor.length_advance_lt hm hne
      rcases bodyPiece_of_cons hstate x cs with ⟨m, hnext, hscans⟩ | ⟨t, m, ht, hnext, hscans⟩ |
        ⟨cs', hcs, hnext⟩ | ⟨cs', hcs, hnext⟩ | ⟨hnext, hnone⟩
      all_goals rw [← hrest] at *
      · have hpos : 0 < m := Piece.length_pos_of_next? hnext
        rw [hscans 1] at hscan
        obtain ⟨n', hrest, rfl⟩ := Option.map_eq_some_iff.1 hscan
        have hread' := hread.trans (NextWord.read_of_gap hnext)
        exact (ih _ (hadvance m hpos) hitems hstate hread' hrest rfl).of_advance
      · have hpos : 0 < m := Piece.length_pos_of_next? hnext
        rw [hscans 1] at hscan
        obtain ⟨n', hrest, rfl⟩ := Option.map_eq_some_iff.1 hscan
        obtain ⟨d, q', hq', hvalid, hd⟩ :=
          exists_item_of_word ht (hread.trans (NextWord.read_of_word hnext))
        have hitems' := hitems.snoc hvalid hd
        exact (ih _ (hadvance m hpos) hitems' hq' rfl hrest rfl).of_advance
      · -- the block that begins here is gone through first, then what is behind it
        have hbehind : (c.advance 1).rest = cs' := Cursor.rest_advance (w := ['\x7b']) hcs
        have hinner : scanBody .code 1 c.rest =
            ((scanBody .code 1 (c.advance 1).rest).bind fun m =>
              (scanBody .code 1 ((c.advance 1).rest.drop m)).map (· + m)).map (· + 1) := by
          rw [hcs, hbehind, ← scanBody_add Nat.one_pos Nat.one_pos]
          rfl
        rw [hinner] at hscan
        obtain ⟨n', hbind, rfl⟩ := Option.map_eq_some_iff.1 hscan
        obtain ⟨m₁, hm₁, hmap⟩ := Option.bind_eq_some_iff.1 hbind
        obtain ⟨n₁, hn₁, rfl⟩ := Option.map_eq_some_iff.1 hmap
        have hnested : Head.Closes true ⟨183, c.advance 1⟩ (c.advance 1) m₁ :=
          ih _ (hadvance 1 Nat.one_pos) (.inl rfl)
            (show (183 : State) ∈ State.bodyStates by decide) rfl hm₁ rfl
        obtain ⟨h₁, k, -, hitems₁, -, -, hclose⟩ := hnested
        obtain ⟨d, q', hq', hvalid, hd⟩ :=
          exists_item_of_items (hread.trans (NextWord.read_of_word hnext)) hitems₁ hclose
        have hitems' := hitems.snoc hvalid hd
        have hbehind₁ := Cursor.advance_advance c 1 m₁
        have hlt : ((c.advance 1).advance m₁).rest.length < length := by
          rw [hbehind₁]
          exact hadvance _ (by omega)
        exact (ih _ hlt hitems' hq' rfl hn₁ rfl).of_advance.of_advance
      · have hone : scanBody .code 1 c.rest = some 1 := by
          rw [hcs]
          rfl
        rw [hone] at hscan
        obtain rfl := Option.some.inj hscan
        refine ⟨h, 0, cs', hitems, rfl, hcs, ?_⟩
        rw [hread, NextWord.read_of_word hnext, Cursor.lexeme, hcs]
        rfl
      · rw [hnone 1] at hscan
        exact absurd hscan (by simp)

/-- A text that begins with a brace, and of which a scan finds the end, is read as a body where one
can begin. -/
theorem exists_block_of_scanBody {h : Head} {w : Lexeme} {c : Cursor} {n : Nat} {q : State}
    (hopen : NextWord.read h.state h.cursor = .word .leftBrace w c)
    (hscan : scanBody .code 1 c.rest = some n)
    (hq : q.row.move? (.token .leftBrace) = some 179) :
    ∃ (d : Derivation (.phrase .block)) (q' : State) (m : Nat), (q' = 181 ∨ q' = 182) ∧
      n = m + 1 ∧ (c.advance n).place = (c.advance m).place.afterAll ['\x7d'] ∧
      d.invalidInteger? = none ∧ d.first? = some w ∧
      d.last? = some ⟨['\x7d'], (c.advance m).place⟩ ∧ d.Reads q h ⟨q', c.advance n⟩ := by
  have hcloses : Head.Closes false ⟨179, c⟩ c n :=
    closes_of_scanBody (.inl rfl) (show (179 : State) ∈ State.bodyStates by decide) rfl hscan
  obtain ⟨h₁, m, -, hitems, hm, -, hclose⟩ := hcloses
  have hplace := (NextWord.exists_skips_of_word hclose).2.2
  let w' : Lexeme := ⟨['\x7d'], (c.advance m).place⟩
  obtain ⟨-, hmore, hempty⟩ := State.moves_opened false
  have hfilled := (State.moves_filled false).2
  rcases hitems with rfl | ⟨d, hvalid, hd⟩
  · refine ⟨.node .blockEmpty (.cons (.leaf .leftBrace w) (.cons (.leaf .rightBrace w') .nil)),
      182, m, .inr rfl, hm, hplace, rfl, rfl, rfl, ?_⟩
    exact ⟨⟨179, c⟩, 179, ⟨hopen, hq⟩, hq, ⟨182, c.advance n⟩, 182, ⟨hclose, hempty⟩, hempty, rfl⟩
  · refine ⟨.node .blockItems (.cons (.leaf .leftBrace w) (.cons d
      (.cons (.leaf .rightBrace w') .nil))), 181, m, .inl rfl, hm, hplace, ?_, rfl, rfl, ?_⟩
    · refine (Derivations.invalidInteger?_cons _ _).2 ⟨rfl, ?_⟩
      exact (Derivations.invalidInteger?_cons _ _).2 ⟨hvalid, rfl⟩
    · exact ⟨⟨179, c⟩, 179, ⟨hopen, hq⟩, hq, h₁, 180, hd, hmore, ⟨181, c.advance n⟩, 181,
        ⟨hclose, hfilled⟩, hfilled, rfl⟩

end CadenceEntry
