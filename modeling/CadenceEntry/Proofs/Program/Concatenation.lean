import CadenceEntry.Proofs.Source.Following
import CadenceEntry.Proofs.Source.Shifting
import CadenceEntry.Proofs.Syntax.Places
import CadenceEntry.Proofs.Syntax.Soundness

/-!
# Programs one after the other

Two programs with a line feed between them are a program: the declarations of the first one stay
where they are and those of the second one follow, moved. What can follow a declaration is looked
for in another state than at the beginning of a text, but it is found there all the same, and the
declarations of the second program are put behind those of the first, one by one.
-/

set_option autoImplicit false

namespace CadenceEntry

open Grammar
open Source (Head)

/-! ## Behind a line feed -/

/-- The line behind a text is further on by its line feeds. -/
theorem Position.line_afterAll (p : Position) (cs : List Char) :
    (p.afterAll cs).line = p.line + cs.count '\n' := by
  induction cs generalizing p with
  | nil => rfl
  | cons x cs ih =>
    rw [afterAll_cons, ih]
    unfold after
    by_cases hx : x = '\n'
    · rw [if_pos hx, hx, List.count_cons_self]
      show p.line + 1 + _ = _
      omega
    · rw [if_neg hx, List.count_cons_of_ne hx]

/-- Where places go when the text is put behind `cs` and a line feed. -/
def Position.behind (cs : List Char) (p : Position) : Position :=
  if p = {} then {} else ⟨p.offset + (cs.length + 1), p.line + (1 + cs.count '\n'), p.column⟩

/-- Where a place goes that something was written for. -/
theorem Position.behind_of_line_pos {cs : List Char} {p : Position} (h : 0 < p.line) :
    behind cs p = ⟨p.offset + (cs.length + 1), p.line + (1 + cs.count '\n'), p.column⟩ := by
  have hne : p ≠ {} := by
    rintro rfl
    exact absurd h (by decide)
  rw [behind, if_neg hne]

/-- A text that is put behind `cs` and a line feed is moved to the place there. -/
theorem Cursor.moved_behind (cs ds : List Char) :
    Cursor.Moved (Position.behind cs) (.ofText ds)
      ⟨Position.origin.afterAll (cs ++ ['\n']), ds⟩ := by
  refine ⟨rfl, fun es => ?_⟩
  have hplace : Position.origin.afterAll (cs ++ ['\n']) =
      ⟨cs.length + 1, cs.count '\n' + 2, 0⟩ := by
    have hoffset := Position.offset_afterAll .origin cs
    have hline := Position.line_afterAll .origin cs
    rw [Position.afterAll_append]
    generalize Position.origin.afterAll cs = p at *
    show Position.mk (p.offset + 1) (p.line + 1) 0 = _
    rw [hoffset, hline]
    show Position.mk (0 + cs.length + 1) (1 + cs.count '\n' + 1) 0 = _
    congr 1 <;> omega
  have hmoved := Position.movedFrom_afterAll (a := .origin) Nat.one_pos
    (Position.origin.afterAll (cs ++ ['\n'])) es
  have hline : 1 ≤ (Position.origin.afterAll es).line := (Position.le_afterAll .origin es).1
  show (Position.origin.afterAll (cs ++ ['\n'])).afterAll es =
    (Position.origin.afterAll es).behind cs
  rw [← hmoved, Position.behind_of_line_pos hline, hplace]
  generalize Position.origin.afterAll es = p at *
  have hne : ¬ (p = {} ∨ p.offset < 0) := by
    rintro (rfl | h)
    · exact absurd hline (by decide)
    · omega
  show Position.movedFrom ⟨0, 1, 0⟩ _ p = _
  rw [Position.movedFrom, if_neg hne]
  simp only [Position.mk.injEq]
  refine ⟨by omega, by omega, ?_⟩
  split <;> omega

/-- What becomes of a program that is put behind the text `s` and a line feed. -/
def Relocation.behind (s : String) : Relocation where
  place := Position.behind s.toList
  source := Block.source
  place_zero := if_pos rfl

/-! ## What follows a declaration -/

namespace Grammar

/-- Where a program can end and an import can begin, everything is found that a program can begin
with. -/
theorem State.extends_of_admits {q : State} (hfinish : q.admits .finish = true)
    (himport : q.admits (.word .importWord) = true) : State.Extends 0 q := by
  have hall : ∀ x ∈ Table.rows.zipIdx, x.1.admits .finish = true →
      x.1.admits (.word .importWord) = true → State.Extends 0 x.2 := by
    decide +kernel
  rw [State.admits, State.row] at hfinish himport
  cases hrow : Table.rows[q]? with
  | none =>
    rw [hrow, Option.getD_none] at hfinish
    exact absurd hfinish (by decide)
  | some r =>
    rw [hrow, Option.getD_some] at hfinish himport
    exact hall (r, q) (List.mk_mem_zipIdx_iff_getElem?.2 hrow) hfinish himport

/-- Behind declarations everything is found that a program can begin with. -/
theorem Derivation.extends_of_reads (d : Derivation (.phrase .declarations)) {h h' : Head}
    (hd : d.Reads 0 h h') (hstate : h.state = 0) : State.Extends 0 h'.state := by
  have hadmits : ∀ a : Lookahead, a = .finish ∨ a = .word .importWord →
      h'.state.admits a = true := by
    intro a ha
    have hexpected : ((State.row 0).expected .declarations).has a = true := by
      rcases ha with rfl | rfl <;> decide
    have hphrase : ∀ p : Production, Symbol.phrase .declarations = .phrase p.lhs →
        State.Awaits 0 p 0 a := by
      intro p hp
      rw [Symbol.phrase.inj hp] at hexpected
      exact .inr ⟨rfl, hexpected⟩
    refine d.admits_of_reads hd (fun t ht => absurd ht (by simp)) hphrase ?_
    rw [hstate]
    exact d.admits_next (fun t ht => absurd ht (by simp)) hphrase
  exact State.extends_of_admits (hadmits _ (.inl rfl)) (hadmits _ (.inr rfl))

/-- A program is empty, or it has declarations. -/
theorem Derivation.program_cases (d : Derivation (.phrase .program)) :
    d = .node .programEmpty .nil ∨
      ∃ ds : Derivation (.phrase .declarations), d = .node .programSome (.cons ds .nil) := by
  obtain ⟨p, hp, ds, rfl⟩ := d.exists_node
  cases p
  case programEmpty =>
    cases ds
    exact .inl rfl
  case programSome =>
    obtain ⟨ds, rfl⟩ := ds.exists_singleton
    exact .inr ⟨ds, rfl⟩
  all_goals exact absurd hp (by decide)

/-- Declarations are one declaration, or further ones before a last one. -/
theorem Derivation.declarations_cases (d : Derivation (.phrase .declarations)) :
    (∃ d₁ : Derivation (.phrase .declaration), d = .node .declarationsFirst (.cons d₁ .nil)) ∨
      ∃ (ds : Derivation (.phrase .declarations)) (d₁ : Derivation (.phrase .declaration)),
        d = .node .declarationsNext (.cons ds (.cons d₁ .nil)) := by
  obtain ⟨p, hp, ds, rfl⟩ := d.exists_node
  cases p
  case declarationsFirst =>
    obtain ⟨d₁, rfl⟩ := ds.exists_singleton
    exact .inl ⟨d₁, rfl⟩
  case declarationsNext =>
    cases ds with
    | cons ds ds' =>
      obtain ⟨d₁, rfl⟩ := ds'.exists_singleton
      exact .inr ⟨ds, d₁, rfl⟩
  all_goals exact absurd hp (by decide)

variable {m : Relocation} {source source' : List Char} {h h₀ h₁ h₂ : Head}

/-- A declaration that is read where a program begins or behind declarations is also read behind
other declarations if it follows there. -/
theorem Derivation.exists_next (ds : Derivation (.phrase .declarations))
    (hds : ds.Reads 0 h₀ h₁) (hvalidAll : ds.invalidInteger? = none)
    (d : Derivation (.phrase .declaration)) {q : State} (hq : q = 0 ∨ q = 4)
    (hd : d.Reads q h h₂) (hvalid : d.invalidInteger? = none) (hfollows : h.Follows m.place h₁)
    (hbodies : ∀ b ∈ d.bodies,
      Block.ofSpan source' (b.relocated m) = (Block.ofSpan source b).relocated m) :
    ∃ (ds' : Derivation (.phrase .declarations)) (h' : Head), ds'.Reads 0 h₀ h' ∧
      ds'.invalidInteger? = none ∧ h₂.Follows m.place h' ∧
      ds'.value source' = List.append (ds.value source')
        ((Option.toList (d.value source)).map (Declaration.relocated m)) := by
  have hmove : (State.row 0).move? (.phrase .declarations) = some 4 := rfl
  obtain ⟨q', hmove'⟩ : ∃ q', (State.row 4).move? (.phrase .declaration) = some q' := ⟨_, rfl⟩
  have hparallel : State.Parallel 0 4 := by decide +kernel
  have hbegin : ∀ p ∈ Production.all, p.lhs = .declaration → ∀ s ∈ p.rhs.head?,
      (State.row 0).move? s = (State.row 4).move? s := by
    decide +kernel
  obtain ⟨d', h', hmoved, hreads, hnext⟩ : ∃ (d' : Derivation (.phrase .declaration)) (h' : Head),
      d.Moved m.place d' ∧ d'.Reads 4 h₁ h' ∧ h₂.Follows m.place h' := by
    rcases hq with rfl | rfl
    · exact d.exists_moved_of_parts hd hfollows hparallel
        fun p s hp hs => hbegin p p.mem_all hp s hs
    · exact d.exists_moved hd hfollows (.refl 4) rfl
  have hvalid' := hmoved.invalidInteger?_eq_none_iff.2 hvalid
  have hvalue : d'.value source' = Option.map (Declaration.relocated m) (d.value source) :=
    Derivation.value_of_moved hmoved hbodies
  refine ⟨.node .declarationsNext (.cons ds (.cons d' .nil)), h',
    ⟨h₁, 4, hds, hmove, h', q', hreads, hmove', rfl⟩, ?_, hnext, ?_⟩
  · exact (Derivations.invalidInteger?_cons _ _).2
      ⟨hvalidAll, (Derivations.invalidInteger?_cons _ _).2 ⟨hvalid', rfl⟩⟩
  · show List.append (ds.value source') (Option.toList (d'.value source')) = _
    rw [hvalue]
    exact congrArg _ Option.toList_map

/-- Declarations that are read where a program begins are also read behind other declarations if
they follow there. -/
theorem Derivation.exists_behind (ds₁ : Derivation (.phrase .declarations))
    (hds₁ : ds₁.Reads 0 h₀ h₁) (hvalid₁ : ds₁.invalidInteger? = none)
    (ds₂ : Derivation (.phrase .declarations)) (hds₂ : ds₂.Reads 0 h h₂)
    (hvalid₂ : ds₂.invalidInteger? = none) (hfollows : h.Follows m.place h₁)
    (hbodies : ∀ b ∈ ds₂.bodies,
      Block.ofSpan source' (b.relocated m) = (Block.ofSpan source b).relocated m) :
    ∃ (ds : Derivation (.phrase .declarations)) (h' : Head), ds.Reads 0 h₀ h' ∧
      ds.invalidInteger? = none ∧ h₂.Follows m.place h' ∧
      ds.value source' =
        List.append (ds₁.value source') ((ds₂.value source).map (Declaration.relocated m)) := by
  -- the last declaration follows what has been put together before
  induction hsize : sizeOf ds₂ using Nat.strong_induction_on generalizing ds₂ h₂ with
  | _ size ih =>
    rcases ds₂.declarations_cases with ⟨d, rfl⟩ | ⟨ds, d, rfl⟩
    · obtain ⟨h₃, q, hd, -, rfl⟩ := hds₂
      obtain ⟨hvalid, -⟩ := (Derivations.invalidInteger?_cons d .nil).1 hvalid₂
      exact ds₁.exists_next hds₁ hvalid₁ d (.inl rfl) hd hvalid hfollows fun b hb =>
        hbodies b (List.mem_append_left _ hb)
    · obtain ⟨h₃, q, hds, hq, h₄, q', hd, -, rfl⟩ := hds₂
      obtain rfl : 4 = q := Option.some.inj hq
      obtain ⟨hvalidAll, hvalid⟩ := (Derivations.invalidInteger?_cons ds _).1 hvalid₂
      obtain ⟨hvalid, -⟩ := (Derivations.invalidInteger?_cons d .nil).1 hvalid
      have hlt : sizeOf ds < size := by
        rw [← hsize]
        show sizeOf ds < 1 + sizeOf Production.declarationsNext + (1 + _ + _ + sizeOf ds + _)
        omega
      obtain ⟨ds', h₃', hreads, hvalidAll', hfollows₃, hvalues⟩ := ih _ hlt ds hds hvalidAll
        (fun b hb => hbodies b (List.mem_append_left _ hb)) rfl
      obtain ⟨ds'', h', hreads', hvalid', hnext, hvalue⟩ :=
        ds'.exists_next hreads hvalidAll' d (.inr rfl) hd hvalid hfollows₃ fun b hb =>
          hbodies b (List.mem_append_right _ (List.mem_append_left _ hb))
      refine ⟨ds'', h', hreads', hvalid', hnext, ?_⟩
      rw [hvalue, hvalues]
      exact (List.append_assoc _ _ _).trans (congrArg _ List.map_append.symm)

/-- Behind a program everything is found that a program can begin with. -/
theorem Derivation.extends_of_reads_program (d : Derivation (.phrase .program))
    (hd : d.Reads 0 h h₁) (hstate : h.state = 0) : State.Extends 0 h₁.state := by
  rcases d.program_cases with rfl | ⟨ds, rfl⟩
  · obtain rfl : h₁ = h := hd
    rw [hstate]
    exact State.extends_of_admits (by decide) (by decide)
  · obtain ⟨h₂, q, hds, -, rfl⟩ := hd
    exact ds.extends_of_reads hds hstate

end Grammar

section

variable {cs ds : List Char} {d d₁ d₂ : Derivation (.phrase .program)} {h h₁ h₂ : Head}

/-- Where a text is derived something is found at its beginning, or it has no words. -/
theorem Source.not_stuck_of_derive (h : derive .program cs = .ok d) (c : Cursor) :
    NextWord.read 0 (.ofText cs) ≠ .stuck c := by
  intro hstuck
  have hstuck' : NextWord.read (Stack.empty .program).state (.ofText cs) = .stuck c := hstuck
  rw [derive, deriveFrom_eq, hstuck'] at h
  exact absurd h (by simp)

/-- A program is also read before a line feed and another program, which is what comes next then. -/
theorem Source.exists_reads_of_derive (hderive₁ : derive .program cs = .ok d₁)
    (hderive₂ : derive .program ds = .ok d₂) :
    ∃ h, d₁.Reads 0 ⟨0, .ofText (cs ++ '\n' :: ds)⟩ h ∧
      Head.Follows (Position.behind cs) ⟨0, .ofText ds⟩ h := by
  obtain ⟨⟨q, p, y⟩, hreads, hfinish⟩ := derive_eq_ok_iff.1 hderive₁
  have hextends := d₁.extends_of_reads_program hreads rfl
  obtain ⟨segments, ⟨hrest, hplace, -⟩, -⟩ := d₁.exists_segments hreads
  obtain rfl : cs = Segment.join segments ++ y := hrest
  have hplace' : p = Position.origin.afterAll (Segment.join segments) := hplace
  refine ⟨⟨q, p, y ++ '\n' :: ds⟩, d₁.reads_before_lineFeed hreads ds, ?_⟩
  have hmoved := NextWord.read_moved 0 (Cursor.moved_behind (Segment.join segments ++ y) ds)
  have hstuck := Source.not_stuck_of_derive hderive₂
  have hfound : NextWord.read q ⟨p, y ++ '\n' :: ds⟩ =
      NextWord.read 0 ⟨Position.origin.afterAll (Segment.join segments ++ y ++ ['\n']), ds⟩ := by
    rw [NextWord.read_of_finish_append hfinish, hplace', ← Position.afterAll_append,
      ← List.append_assoc]
    refine NextWord.read_of_extends hextends fun c hc => ?_
    rw [hc] at hmoved
    generalize NextWord.read 0 (.ofText ds) = r at hmoved hstuck
    cases hmoved with
    | stuck => exact absurd rfl (hstuck _)
  unfold Head.Follows
  rw [hfound]
  exact hmoved

end

namespace Program

/-- What stands before a line feed and another program is the same there. -/
theorem value_before {cs : List Char} {d : Derivation (.phrase .program)}
    (hderive : Source.derive .program cs = .ok d) (ds : List Char) :
    d.value (cs ++ ds) = d.value cs := by
  obtain ⟨h, hreads, -⟩ := Source.derive_eq_ok_iff.1 hderive
  obtain ⟨segments, ⟨hrest, hplace, -⟩, -⟩ := d.exists_segments hreads
  refine d.value_congr fun b hb => ?_
  have hlt := ((d.ordered_bodies hreads).within b hb).lt
  have hle : h.cursor.place.offset ≤ cs.length := by
    have hlength : cs = Segment.join segments ++ h.cursor.rest := hrest
    have hoffset := Position.offset_afterAll .origin (Segment.join segments)
    rw [hplace, hlength, List.length_append]
    show (Position.origin.afterAll _).offset ≤ _
    rw [hoffset]
    show 0 + _ ≤ _
    omega
  have hsource : (Block.ofSpan (cs ++ ds) b).source = (Block.ofSpan (cs ++ []) b).source :=
    Block.source_congr_left (by omega)
  rw [List.append_nil] at hsource
  exact congrArg (Block.mk · _) hsource

/-- A body of the second program is cut out of the text of both as it was cut out of its own. -/
theorem ofSpan_behind {s : String} {cs : List Char} {p : Position} {b : Span}
    (hb : b.Within .origin p) :
    Block.ofSpan (s.toList ++ '\n' :: cs) (b.relocated (.behind s)) =
      (Block.ofSpan cs b).relocated (.behind s) := by
  have hplace : ∀ p : Position, 0 < p.line →
      (Position.behind s.toList p).offset = p.offset + (s.toList.length + 1) := by
    intro p hp
    rw [Position.behind_of_line_pos hp]
  have hstart := hplace b.start hb.start.line
  have hstop := hplace b.stop hb.stop.line
  have hsource : (Block.ofSpan ((s.toList ++ ['\n']) ++ cs) (b.relocated (.behind s))).source =
      (Block.ofSpan ([] ++ cs) b).source := by
    refine Block.source_congr_right (Nat.zero_le _) ?_ ?_
    · rw [List.length_append]
      exact hstart
    · rw [List.length_append]
      exact hstop
  rw [List.append_assoc] at hsource
  exact congrArg (Block.mk · _) hsource

/-- Two programs with a line feed between them are a program. Its declarations are those of the
first program, unchanged, and behind them those of the second one, with every place moved behind the
first program and the line feed. -/
theorem parse_append {s₁ s₂ : String} {p₁ p₂ : Program} (hp₁ : Program.parse s₁ = .ok p₁)
    (hp₂ : Program.parse s₂ = .ok p₂) :
    Program.parse (s₁ ++ "\n" ++ s₂) =
      .ok ⟨p₁.declarations ++ p₂.declarations.map (Declaration.relocated (.behind s₁))⟩ := by
  obtain ⟨d₁, hderive₁, hvalid₁, rfl⟩ := exists_derive_of_parse hp₁
  obtain ⟨d₂, hderive₂, hvalid₂, rfl⟩ := exists_derive_of_parse hp₂
  obtain ⟨h₂, hreads₂, hfinish⟩ := Source.derive_eq_ok_iff.1 hderive₂
  obtain ⟨h₁, hreads₁, hfollows⟩ := Source.exists_reads_of_derive hderive₁ hderive₂
  have hbodies : ∀ b ∈ d₂.bodies, Block.ofSpan (s₁.toList ++ '\n' :: s₂.toList)
      (b.relocated (.behind s₁)) = (Block.ofSpan s₂.toList b).relocated (.behind s₁) :=
    fun b hb => ofSpan_behind ((d₂.ordered_bodies hreads₂).within b hb)
  have htext : (s₁ ++ "\n" ++ s₂).toList = s₁.toList ++ '\n' :: s₂.toList := by
    simp
  have hvalue₁ := value_before hderive₁ ('\n' :: s₂.toList)
  suffices h : ∃ (d : Derivation (.phrase .program)) (h' : Head),
      d.Reads 0 ⟨0, .ofText (s₁.toList ++ '\n' :: s₂.toList)⟩ h' ∧ d.invalidInteger? = none ∧
      h₂.Follows (Position.behind s₁.toList) h' ∧
      d.value (s₁.toList ++ '\n' :: s₂.toList) = (⟨(d₁.value s₁.toList).declarations ++
        (d₂.value s₂.toList).declarations.map (Declaration.relocated (.behind s₁))⟩ : Program) by
    obtain ⟨d, h', hreads, hvalid, hnext, hvalue⟩ := h
    have hderive := Source.derive_of_reads (g := .program) hreads (hnext.finish hfinish)
    rw [← htext] at hderive hvalue
    rw [parse_of_derive hderive hvalid, hvalue]
  rcases d₁.program_cases with rfl | ⟨ds₁, rfl⟩
  · -- only the second program has declarations
    obtain rfl : h₁ = ⟨0, .ofText (s₁.toList ++ '\n' :: s₂.toList)⟩ := hreads₁
    obtain ⟨d', h', hmoved, hreads, hnext⟩ := d₂.exists_moved hreads₂ hfollows (.refl 0) rfl
    exact ⟨d', h', hreads, hmoved.invalidInteger?_eq_none_iff.2 hvalid₂, hnext,
      Derivation.value_of_moved hmoved hbodies⟩
  · rcases d₂.program_cases with rfl | ⟨ds₂, rfl⟩
    · -- only the first program has declarations
      obtain rfl : h₂ = ⟨0, .ofText s₂.toList⟩ := hreads₂
      refine ⟨_, h₁, hreads₁, hvalid₁, hfollows, hvalue₁.trans ?_⟩
      exact congrArg Program.mk (List.append_nil _).symm
    · obtain ⟨_, _, hreads₁, -, rfl⟩ := hreads₁
      obtain ⟨_, _, hreads₂, -, rfl⟩ := hreads₂
      obtain ⟨hvalid₁, -⟩ := (Derivations.invalidInteger?_cons ds₁ .nil).1 hvalid₁
      obtain ⟨hvalid₂, -⟩ := (Derivations.invalidInteger?_cons ds₂ .nil).1 hvalid₂
      obtain ⟨ds', h', hreads, hvalid, hnext, hvalue⟩ :=
        ds₁.exists_behind hreads₁ hvalid₁ ds₂ hreads₂ hvalid₂ hfollows fun b hb =>
          hbodies b (List.mem_append_left _ hb)
      refine ⟨.node .programSome (.cons ds' .nil), h', ⟨h', 4, hreads, rfl, rfl⟩,
        (Derivations.invalidInteger?_cons _ _).2 ⟨hvalid, rfl⟩, hnext, ?_⟩
      have hvalue₁' := congrArg Program.declarations hvalue₁
      refine congrArg Program.mk (hvalue.trans ?_)
      exact congrArg (List.append · _) hvalue₁'

/-- An import with a comment behind it, before a function. -/
theorem parse_append_importAndFunction : ∃ p₁ p₂ : Program,
    Program.parse "import A // from B" = .ok p₁ ∧
    Program.parse "fun main() \x7b \x7d /* \n */" = .ok p₂ ∧
    Program.parse ("import A // from B" ++ "\n" ++ "fun main() \x7b \x7d /* \n */") =
      .ok ⟨p₁.declarations ++
        p₂.declarations.map (Declaration.relocated (.behind "import A // from B"))⟩ := by
  obtain ⟨p₁, h₁⟩ : ∃ p, Program.parse "import A // from B" = .ok p :=
    exists_ok_of_isSome (by decide +kernel)
  obtain ⟨p₂, h₂⟩ : ∃ p, Program.parse "fun main() \x7b \x7d /* \n */" = .ok p :=
    exists_ok_of_isSome (by decide +kernel)
  exact ⟨p₁, p₂, h₁, h₂, parse_append h₁ h₂⟩

end Program

end CadenceEntry
