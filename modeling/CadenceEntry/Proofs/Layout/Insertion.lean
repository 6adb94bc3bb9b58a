import CadenceEntry.Proofs.Interaction.Unplaced
import CadenceEntry.Proofs.Layout.Boundary
import CadenceEntry.Proofs.Syntax.Soundness
import CadenceEntry.Proofs.TypeText.RoundTrip

/-!
# Layout does not matter

White space, or a comment on lines of its own, can be inserted where a piece of a text ends. A text
that is a program or a type is the same one then, with what stands behind the insertion moved, and a
text that is refused is refused for the same reason, at the place where its place goes. Only the end
of a text without words has no place of its own.
-/

set_option autoImplicit false

namespace CadenceEntry

open Grammar
open Source (IsBoundary IsWordless Progress)

/-! ## Layout -/

/-- A comment from its first to its last character. -/
def IsComment (cs : List Char) : Prop :=
  WordClass.lineComment.length? cs = some cs.length ∨
    WordClass.blockComment.length? cs = some cs.length

/-- A run of white space, or a comment between two line feeds. -/
inductive IsLayout : List Char → Prop
  | blank {cs : List Char} (h : IsBlank cs) : IsLayout cs
  | comment {cs : List Char} (h : IsComment cs) : IsLayout ('\n' :: (cs ++ ['\n']))

/-- The first line of a text has no words if white space is put before it. -/
theorem BeginsBlank.blank_append {g cs : List Char} (hg : IsBlank g) (h : BeginsBlank cs) :
    BeginsBlank (g ++ cs) := by
  induction g with
  | nil => exact h
  | cons x g ih =>
    have hx := hg x List.mem_cons_self
    obtain ⟨u, rest, hcs, hu, hrest⟩ := ih fun y hy => hg y (List.mem_cons_of_mem _ hy)
    by_cases hline : x = '\n'
    · exact beginsBlank_of_head? (.inr (congrArg some hline))
    · refine ⟨x :: u, rest, congrArg (x :: ·) hcs, fun y hy => ?_, hrest⟩
      rcases List.mem_cons.1 hy with rfl | hy
      · exact ⟨hx, hline⟩
      · exact hu y hy

namespace IsLayout

variable {ins post : List Char}

/-- Layout can be put before any text. -/
theorem replaceable (h : IsLayout ins) (post : List Char) : Replaceable post (ins ++ post) := by
  cases h with
  | blank hblank =>
    refine ⟨?_, fun hend => (beginsBlank_of_head? hend).blank_append hblank⟩
    cases ins with
    | nil => exact .inl rfl
    | cons x cs => exact .inr ⟨x, cs ++ post, rfl, .inl (hblank x List.mem_cons_self)⟩
  | comment =>
    exact ⟨.inr ⟨'\n', _, rfl, .inl (by decide)⟩, fun _ => beginsBlank_of_head? (.inr rfl)⟩

/-- A comment that a line feed follows is skipped. -/
theorem read_of_isComment {q : State} {p : Position} {cs rest : List Char} (h : IsComment cs) :
    NextWord.read q ⟨p, cs ++ '\n' :: rest⟩ = NextWord.read q ⟨p.afterAll cs, '\n' :: rest⟩ := by
  have hskip : ∀ c : WordClass, c.terminal? = none → c.length? cs = some cs.length →
      c.Stops ('\n' :: rest) →
        NextWord.read q ⟨p, cs ++ '\n' :: rest⟩ =
          NextWord.read q ⟨p.afterAll cs, '\n' :: rest⟩ := by
    intro c hterminal hlength hstops
    have hc : c ∈ q.wordClasses := State.mem_wordClasses_iff.2 (by simp [hterminal])
    have hnext := Piece.next?_of_class hc (WordClass.length?_append hlength hstops)
    rw [List.take_left, Piece.ofClass, hterminal] at hnext
    rw [NextWord.read_of_gap (c := ⟨p, cs ++ '\n' :: rest⟩) hnext, Cursor.advance, List.take_left,
      List.drop_left]
  rcases h with h | h
  · exact hskip .lineComment rfl h fun x hx => by rw [← Option.some.inj hx]; rfl
  · exact hskip .blockComment rfl h fun _ _ => rfl

/-- Layout is skipped. -/
theorem read_append (h : IsLayout ins) (q : State) (p : Position) (post : List Char) :
    NextWord.read q ⟨p, ins ++ post⟩ = NextWord.read q ⟨p.afterAll ins, post⟩ := by
  have hblank : ∀ (g : List Char) (p : Position) (rest : List Char), IsBlank g →
      NextWord.read q ⟨p, g ++ rest⟩ = NextWord.read q ⟨p.afterAll g, rest⟩ := by
    intro g p rest hg
    rw [NextWord.read_of_isBlank (c := ⟨p, g ++ rest⟩) hg rfl, Cursor.advance, List.take_left,
      List.drop_left]
  have hline : IsBlank ['\n'] := by decide
  cases h with
  | blank h => exact hblank ins p post h
  | @comment cs h =>
    calc NextWord.read q ⟨p, '\n' :: (cs ++ ['\n']) ++ post⟩
        = NextWord.read q ⟨p, ['\n'] ++ (cs ++ '\n' :: post)⟩ := by simp
      _ = NextWord.read q ⟨p.afterAll ['\n'], cs ++ '\n' :: post⟩ := hblank _ _ _ hline
      _ = NextWord.read q ⟨(p.afterAll ['\n']).afterAll cs, ['\n'] ++ post⟩ := read_of_isComment h
      _ = NextWord.read q ⟨((p.afterAll ['\n']).afterAll cs).afterAll ['\n'], post⟩ :=
        hblank _ _ _ hline
      _ = NextWord.read q ⟨p.afterAll ('\n' :: (cs ++ ['\n'])), post⟩ := by
        rw [← Position.afterAll_append, ← Position.afterAll_append]
        rfl

end IsLayout

/-! ## Reading a text with layout inserted -/

/-- What becomes of a syntax tree when `ins` is inserted behind `pre`: what stands behind it is
moved, and a body around it gains it. -/
def Relocation.inserting (pre ins : List Char) : Relocation where
  place := Position.movedFrom (Position.origin.afterAll pre) (Position.origin.afterAll (pre ++ ins))
  source b :=
    if b.span.start.offset < pre.length ∧ pre.length ≤ b.span.stop.offset then
      String.ofList (b.source.toList.take (pre.length - b.span.start.offset) ++ ins ++
        b.source.toList.drop (pre.length - b.span.start.offset))
    else b.source
  place_zero := Position.movedFrom_zero _ _

namespace Source

variable {g : Goal} {pre ins post : List Char}

/-- A text is read on behind layout as it is read on without it, unless there are no words and some
must come. -/
theorem derive_insert (hboundary : IsBoundary g pre post) (hins : IsLayout ins) :
    ((IsWordless g (pre ++ post) → ((Stack.empty g).settle .finish).result? ≠ none) →
      Source.Moved (Relocation.inserting pre ins).place (derive g (pre ++ post))
        (derive g (pre ++ ins ++ post))) ∧
    (IsWordless g (pre ++ post) → derive g (pre ++ ins ++ post) = derive g (pre ++ post)) := by
  obtain ⟨n, hn⟩ := hboundary
  obtain ⟨s, hs, hrest⟩ := Option.map_eq_some_iff.1 hn
  obtain ⟨y, hy, hplace⟩ := Progress.exists_rest hs
  rw [hrest] at hy
  obtain rfl : pre = y := List.append_cancel_right hy
  have hplace' : s.cursor.place = Position.origin.afterAll pre := hplace
  -- both texts are read up to the boundary in the same way
  have hbefore : ∀ new, Replaceable post new →
      derive g (pre ++ new) = deriveFrom s.stack s.last ⟨Position.origin.afterAll pre, new⟩ := by
    intro new hnew
    rw [← hplace']
    refine Progress.outcome_replaced hs ?_ (hrest ▸ hnew)
    rw [hrest]
    rfl
  have hold : derive g (pre ++ post) =
      deriveFrom s.stack s.last ⟨Position.origin.afterAll pre, post⟩ :=
    hbefore post ⟨.inl rfl, beginsBlank_of_head?⟩
  have hnew : derive g (pre ++ ins ++ post) =
      deriveFrom s.stack s.last ⟨Position.origin.afterAll (pre ++ ins), post⟩ := by
    rw [List.append_assoc, hbefore _ (hins.replaceable post), Position.afterAll_append]
    exact deriveFrom_congr (hins.read_append _ _ post)
  have hline : 0 < (Position.origin.afterAll pre).line :=
    Nat.lt_of_lt_of_le Nat.one_pos (Position.le_afterAll .origin pre).1
  have hmoved : Cursor.Moved (Relocation.inserting pre ins).place
      ⟨Position.origin.afterAll pre, post⟩ ⟨Position.origin.afterAll (pre ++ ins), post⟩ :=
    Cursor.moved_of_movedFrom hline _ post
  have hcursor : s.cursor = ⟨Position.origin.afterAll pre, post⟩ := by
    rw [← hplace', ← hrest]
  rw [hold, hnew]
  have hfixed : Stack.Related (.moved (Relocation.inserting pre ins).place) s.stack s.stack :=
    Progress.fixed hs .nil (by rw [hplace'])
  rcases Progress.last_or_read hs with ⟨hword, hlt⟩ | ⟨-, hstack, hread⟩
  · refine ⟨fun _ => deriveFrom_moved hfixed hmoved fun _ _ => ?_, fun hwordless => ?_⟩
    · rw [hplace'] at hlt
      exact (Position.movedFrom_of_lt hlt).symm
    · exact absurd hwordless hword
  · -- only white space and comments come before the boundary
    rw [hcursor, ← hstack] at hread
    have hempty : s.stack.state = g.start := by
      rw [hstack]
      rfl
    refine ⟨fun hempty' => deriveFrom_moved hfixed hmoved fun hfinish hresult => ?_,
      fun hwordless => ?_⟩
    · rw [hfinish, hempty] at hread
      rw [hstack] at hresult
      exact absurd hresult (hempty' hread)
    · have hfinish : NextWord.read s.stack.state ⟨Position.origin.afterAll pre, post⟩ =
          .finish := by
        rw [← hread, hempty]
        exact hwordless
      have hfollows : Head.Follows (Relocation.inserting pre ins).place
          ⟨s.stack.state, Position.origin.afterAll pre, post⟩
          ⟨s.stack.state, Position.origin.afterAll (pre ++ ins), post⟩ :=
        NextWord.read_moved s.stack.state hmoved
      exact deriveFrom_congr ((hfollows.finish hfinish).trans hfinish.symm)

end Source

/-! ## What the text means -/

section

variable {pre ins post : List Char}

/-- A place before the insertion stays, and one behind it is moved by what is inserted. -/
theorem Relocation.inserting_place (pre ins : List Char) {p : Position} (hline : 0 < p.line) :
    (p.offset < pre.length → (inserting pre ins).place p = p) ∧
      (pre.length ≤ p.offset → ((inserting pre ins).place p).offset = p.offset + ins.length) := by
  have hpre : (Position.origin.afterAll pre).offset = pre.length :=
    (Position.offset_afterAll .origin pre).trans (Nat.zero_add _)
  have hins : (Position.origin.afterAll (pre ++ ins)).offset = pre.length + ins.length := by
    rw [Position.offset_afterAll, List.length_append]
    exact Nat.zero_add _
  constructor
  · intro hlt
    exact Position.movedFrom_of_lt (by omega)
  · intro hle
    show (Position.movedFrom _ _ p).offset = _
    rw [Position.offset_movedFrom hline (by omega), hpre, hins]
    omega

/-- What stands behind the first part of a text, up to the `n` characters behind the second. -/
theorem Block.source_append {us vs ws : List Char} {s : Span} {n : Nat}
    (hstart : s.start.offset = us.length)
    (hstop : s.stop.offset + 1 = us.length + (vs.length + n)) :
    (ofSpan (us ++ (vs ++ ws)) s).source = String.ofList (vs ++ ws.take n) := by
  have hlength : s.stop.offset + 1 - s.start.offset = vs.length + n := by omega
  rw [ofSpan, hlength, hstart, List.drop_left, List.take_length_add_append]

/-- A body is cut out of the text with the insertion as it is cut out of the text without it, with
the insertion if this is within the body. -/
theorem Block.ofSpan_inserting {p : Position} {s : Span} (hs : s.Within .origin p) :
    Block.ofSpan (pre ++ ins ++ post) (s.relocated (.inserting pre ins)) =
      (Block.ofSpan (pre ++ post) s).relocated (.inserting pre ins) := by
  obtain ⟨hstart, hstart'⟩ := Relocation.inserting_place pre ins hs.start.line
  obtain ⟨hstop, hstop'⟩ := Relocation.inserting_place pre ins hs.stop.line
  have horder := hs.order
  suffices hsource :
      (Block.ofSpan (pre ++ ins ++ post) (s.relocated (.inserting pre ins))).source =
        (Relocation.inserting pre ins).source (Block.ofSpan (pre ++ post) s) from
    congrArg (Block.mk · _) hsource
  show _ = if s.start.offset < pre.length ∧ pre.length ≤ s.stop.offset then _ else _
  by_cases hbefore : s.stop.offset < pre.length
  · rw [if_neg (by omega), Span.relocated, hstart (by omega), hstop hbefore, List.append_assoc]
    exact Block.source_congr_left hbefore
  by_cases hbehind : pre.length ≤ s.start.offset
  · rw [if_neg (by omega)]
    have hstart := hstart' hbehind
    have hstop := hstop' (by omega)
    refine Block.source_congr_right hbehind ?_ ?_
    · rw [List.length_append]
      show ((Relocation.inserting pre ins).place s.start).offset + _ = _
      omega
    · rw [List.length_append]
      show ((Relocation.inserting pre ins).place s.stop).offset + _ = _
      omega
  · -- the body begins before the insertion and ends behind it
    rw [if_pos (by omega)]
    obtain ⟨us, vs, rfl, hus⟩ : ∃ us vs, pre = us ++ vs ∧ s.start.offset = us.length :=
      ⟨pre.take s.start.offset, pre.drop s.start.offset, (List.take_append_drop _ _).symm,
        (List.length_take_of_le (by omega)).symm⟩
    obtain ⟨n, hn⟩ : ∃ n, s.stop.offset + 1 = us.length + (vs.length + n) := by
      rw [List.length_append] at hbefore
      exact ⟨s.stop.offset + 1 - (us.length + vs.length), by omega⟩
    have hstart := hstart (by omega)
    have hstop := hstop' (by omega)
    have hold : (Block.ofSpan (us ++ vs ++ post) s).source =
        String.ofList (vs ++ post.take n) := by
      rw [List.append_assoc]
      exact Block.source_append hus hn
    have hnew : (Block.ofSpan (us ++ vs ++ ins ++ post)
        (s.relocated (.inserting (us ++ vs) ins))).source =
          String.ofList (vs ++ ins ++ post.take n) := by
      have hassoc : us ++ vs ++ ins ++ post = us ++ ((vs ++ ins) ++ post) := by simp
      rw [hassoc]
      refine Block.source_append ?_ ?_
      · show ((Relocation.inserting (us ++ vs) ins).place s.start).offset = _
        rw [hstart, hus]
      · show ((Relocation.inserting (us ++ vs) ins).place s.stop).offset + 1 = _
        rw [hstop, List.length_append]
        omega
    have hgap : (us ++ vs).length - s.start.offset = vs.length := by
      rw [List.length_append]
      omega
    rw [hnew, hold, String.toList_ofList]
    show _ = String.ofList (List.take ((us ++ vs).length - s.start.offset) _ ++ ins ++
      List.drop ((us ++ vs).length - s.start.offset) _)
    rw [hgap, List.take_left, List.drop_left]

end

end CadenceEntry
