import CadenceEntry.Proofs.Syntax.Filling
import CadenceEntry.Proofs.Syntax.Names
import CadenceEntry.Proofs.Syntax.Places

/-!
# Derivations with a name left open

A template is a derivation with the hole in the place of a name. `Derivation.Filled` says that
another derivation has a word there instead, with what stands behind it moved; it then means what
the template means with the word filled in, `Derivation.value_of_filled`.
-/

set_option autoImplicit false

namespace CadenceEntry

open Grammar

/-- What becomes of the places of a template when `v` is filled in for the hole at `a`: what comes
behind the first character of the hole is moved. -/
def Relocation.filling (a : Position) (v : String) : Relocation where
  place := Position.movedFrom (a.after '?') (a.afterAll v.toList.dropLast)
  source := Block.source
  place_zero := Position.movedFrom_zero _ _

/-- The hole stays where it is. -/
theorem Relocation.place_filling (a : Position) (v : String) : (filling a v).place a = a := by
  refine Position.movedFrom_of_lt ?_
  rw [Position.offset_after]
  exact Nat.lt_succ_self _

/-- What comes behind the hole comes behind the name. -/
theorem Cursor.moved_filling {a : Position} (ha : 0 < a.line) {v : String}
    (hv : Terminal.name.Matches v.toList) (cs : List Char) :
    Cursor.Moved (Relocation.filling a v).place ⟨a.afterAll hole.toList, cs⟩
      ⟨a.afterAll v.toList, cs⟩ := by
  refine ⟨rfl, fun ds => ?_⟩
  have hne : v.toList ≠ [] := by
    intro hnil
    rw [hnil] at hv
    exact Terminal.not_matches_nil _ hv
  have hlast : v.toList.getLast hne ≠ '\n' := by
    have hcontinues := WordClass.continuesName_of_mem_name hv (List.getLast_mem hne)
    intro heq
    rw [heq] at hcontinues
    exact absurd hcontinues (by decide)
  -- a name and the hole both end within a line
  have hafter : ∀ p : Position, p.after (v.toList.getLast hne) = p.after '?' := by
    intro p
    rw [Position.after, if_neg hlast]
    rfl
  have hname : (a.afterAll v.toList).afterAll ds =
      (a.afterAll v.toList.dropLast).afterAll ('?' :: ds) := by
    conv_lhs => rw [← List.dropLast_append_getLast hne]
    rw [Position.afterAll_append, Position.afterAll_cons, Position.afterAll_nil, hafter]
    rfl
  show (a.afterAll v.toList).afterAll ds =
    Position.movedFrom (a.after '?') (a.afterAll v.toList.dropLast)
      ((a.after '?').afterAll ('?' :: ds))
  rw [hname, Position.movedFrom_afterAll (show 0 < (a.after '?').line from ha)]

/-- The word `w'` stands where the word `w` goes, and if that is the hole it is spelled `v`. -/
structure Lexeme.Filled (m : Relocation) (v : String) (t : Terminal) (w w' : Lexeme) : Prop where
  eq : w' = Symbol.filled v (.token t) (w.relocated m)
  stop : w'.stop = m.place w.stop

/-- A filled word begins where the word goes. -/
theorem Lexeme.Filled.start {m : Relocation} {v : String} {t : Terminal} {w w' : Lexeme}
    (h : w.Filled m v t w') : w'.start = m.place w.start := by
  rw [h.eq]
  cases t <;> rfl

/-- The name `v` is filled in for the hole. -/
theorem Lexeme.filled_hole {a : Position} (ha : 0 < a.line) (v : String) :
    Lexeme.Filled (.filling a v) v .name ⟨hole.toList, a⟩ ⟨v.toList, a⟩ := by
  have hplace := Relocation.place_filling a v
  refine ⟨?_, ?_⟩
  · show (⟨v.toList, a⟩ : Lexeme) = Lexeme.filled v ⟨hole.toList, (Relocation.filling a v).place a⟩
    rw [hplace, Lexeme.filled, Lexeme.spelling, String.ofList_toList, fillName, if_pos rfl]
  · have hmoved := Position.movedFrom_afterAll (show 0 < (a.after '?').line from ha)
      (a.afterAll v.toList.dropLast) []
    exact hmoved.symm

/-- A word that is not the hole is filled in by moving it. -/
theorem Lexeme.Moved.filled {m : Relocation} {v : String} {t : Terminal} {w w' : Lexeme}
    (h : w.Moved m.place w') (hw : t = .name → w.spelling ≠ hole) : w.Filled m v t w' := by
  have heq : w' = w.relocated m := by
    obtain ⟨text, start⟩ := w'
    obtain rfl : text = w.text := h.text
    obtain rfl : start = m.place w.start := h.start
    rfl
  refine ⟨?_, h.stop⟩
  by_cases ht : t = .name
  · subst ht
    have hspelling : (w.relocated m).spelling ≠ hole := hw rfl
    show w' = Lexeme.filled v (w.relocated m)
    rw [Lexeme.filled, fillName, if_neg hspelling, Lexeme.spelling, String.toList_ofList]
    exact heq
  · cases t <;> first | exact heq | exact absurd rfl ht

namespace Grammar

variable {m : Relocation} {v : String}

mutual

/-- Each word of the second derivation stands where the word of the first goes, and is spelled `v`
if that is the hole. Of a body only the extent counts. -/
def Derivation.Filled (m : Relocation) (v : String) :
    {s : Symbol} → Derivation s → Derivation s → Prop
  | _, .leaf t w, d' => ∃ w', d' = .leaf t w' ∧ w.Filled m v t w'
  | _, .node p ds, d' =>
    if p.lhs = .block then (Derivation.node p ds).ExtentMoved m.place d'
    else ∃ ds', d' = .node p ds' ∧ ds.Filled m v ds'

/-- The same for lists of derivations, one by one. -/
def Derivations.Filled (m : Relocation) (v : String) :
    {ss : List Symbol} → Derivations ss → Derivations ss → Prop
  | _, .nil, _ => True
  | _, .cons d ds, .cons d' ds' => d.Filled m v d' ∧ ds.Filled m v ds'

end

mutual

/-- A filled derivation begins and ends where the ends of the template go. -/
theorem Derivation.Filled.extent {s : Symbol} {d d' : Derivation s} (h : d.Filled m v d') :
    d.ExtentMoved m.place d' :=
  match s, d, d', h with
  | _, .leaf t w, d', h => by
    obtain ⟨w', rfl, hw⟩ := h
    refine ⟨.some hw.start, .some hw.stop, ?_⟩
    rw [Derivation.invalidInteger?, Derivation.invalidInteger?]
    by_cases ht : t = .integer
    · subst ht
      have htext : w'.text = w.text := by
        rw [hw.eq]
        rfl
      rw [htext]
      split
      · exact congrArg some htext
      · rfl
    · simp [ht]
  | _, .node p ds, d', h => by
    rw [Derivation.Filled] at h
    split at h
    · exact h
    · obtain ⟨ds', rfl, hds⟩ := h
      obtain ⟨hfirst, hlast, hinvalid⟩ := hds.extent
      exact ⟨hfirst, hlast, hinvalid⟩

/-- Filled derivations begin and end where the ends of the template go. -/
theorem Derivations.Filled.extent {ss : List Symbol} {ds ds' : Derivations ss}
    (h : ds.Filled m v ds') : ds.ExtentMoved m.place ds' :=
  match ss, ds, ds', h with
  | _, .nil, .nil, _ => ⟨.none, .none, rfl⟩
  | _, .cons _ _, .cons _ _, h => .cons h.1.extent h.2.extent

end

/-- A phrase is filled in by filling in its parts. -/
theorem Derivations.Filled.node {p : Production} {ds ds' : Derivations p.rhs}
    (h : ds.Filled m v ds') : (Derivation.node p ds).Filled m v (.node p ds') := by
  rw [Derivation.Filled]
  split
  · obtain ⟨hfirst, hlast, hinvalid⟩ := h.extent
    exact ⟨hfirst, hlast, hinvalid⟩
  · exact ⟨ds', rfl, h⟩

/-- The span of filled derivations goes where the span of the template goes. -/
theorem Derivations.Filled.span {p : Production} {ds ds' : Derivations p.rhs}
    (h : ds.Filled m v ds') : ds'.span = ds.span.relocated m :=
  h.node.extent.span

/-- A body has no names. -/
theorem Nonterminal.filled_of_block {n : Nonterminal} (h : n = .block) (x : n.Value) :
    n.filled v x = x := by
  subst h
  rfl

mutual

/-- A derivation with a word filled in means what the template means with the word filled in, if
each body is cut out of the text with the source that it has there. -/
theorem Derivation.value_of_filled {s : Symbol} {d d' : Derivation s} {source source' : List Char}
    (h : d.Filled m v d') (hbodies : ∀ b ∈ d.bodies,
      Block.ofSpan source' (b.relocated m) = (Block.ofSpan source b).relocated m) :
    d'.value source' = s.filled v (s.relocated m (d.value source)) :=
  match s, d, d', h, hbodies with
  | _, .leaf t w, d', h, _ => by
    obtain ⟨w', rfl, hw⟩ := h
    exact hw.eq
  | _, .node p ds, d', h, hbodies => by
    have hextent := h.extent
    rw [Derivation.Filled] at h
    rw [Derivation.bodies] at hbodies
    split at h
    · next hp =>
      rw [if_pos hp] at hbodies
      have hvalue := Production.relocated_value_block m hp hextent.span
        (hbodies _ (List.mem_singleton.2 rfl))
      exact hvalue.trans (Nonterminal.filled_of_block hp _).symm
    · next hp =>
      rw [if_neg hp] at hbodies
      obtain ⟨ds', rfl, hds⟩ := h
      have hrelocated : p.lhs.relocated m (p.meaning source (fun _ => ds.span) (ds.values source)) =
          p.meaning source' (fun _ => ds.span.relocated m)
            (Symbol.relocatedAll m p.rhs (ds.values source)) :=
        p.relocated_meaning m _ fun h => absurd h hp
      rw [Derivation.value, Derivation.value, Derivations.values_of_filled hds hbodies, hds.span]
      show _ = p.lhs.filled v (p.lhs.relocated m _)
      rw [hrelocated]
      exact (p.filled_meaning v source' _ _).symm

/-- What filled derivations mean is what the template means, moved and filled. -/
theorem Derivations.values_of_filled {ss : List Symbol} {ds ds' : Derivations ss}
    {source source' : List Char} (h : ds.Filled m v ds') (hbodies : ∀ b ∈ ds.bodies,
      Block.ofSpan source' (b.relocated m) = (Block.ofSpan source b).relocated m) :
    ds'.values source' =
      Symbol.filledAll v ss (Symbol.relocatedAll m ss (ds.values source)) :=
  match ss, ds, ds', h, hbodies with
  | _, .nil, .nil, _, _ => rfl
  | _, .cons d ds, .cons d' ds', h, hbodies => by
    have hd := Derivation.value_of_filled h.1 fun b hb => hbodies b (List.mem_append_left _ hb)
    have hds := Derivations.values_of_filled h.2 fun b hb =>
      hbodies b (List.mem_append_right _ hb)
    rw [Derivations.values, Derivations.values, hd, hds]
    rfl

end

/-! ## The names of a derivation -/

mutual

/-- The names that a derivation is read from. Bodies have none. -/
def Derivation.names {s : Symbol} : Derivation s → List String
  | .leaf t w => if t = .name then [w.spelling] else []
  | .node p ds => if p.lhs = .block then [] else ds.names

/-- The names that a list of derivations is read from. -/
def Derivations.names {ss : List Symbol} : Derivations ss → List String
  | .nil => []
  | .cons d ds => d.names ++ ds.names

end

mutual

/-- A derivation means nothing with other names than its own. -/
theorem Derivation.allNames_value {s : Symbol} (d : Derivation s) (source : List Char) :
    (s.allNames (d.value source)).Subperm d.names :=
  match d with
  | .leaf t w => by cases t <;> exact List.Subperm.refl _
  | .node p ds => by
    rw [Derivation.names]
    split
    · next hp =>
      have hnone : ∀ {n : Nonterminal} (x : n.Value), n = .block → n.allNames x = [] := by
        rintro n x rfl
        rfl
      have hempty : (Symbol.phrase p.lhs).allNames ((Derivation.node p ds).value source) = [] :=
        hnone _ hp
      rw [hempty]
    · have hmeaning := p.allNames_meaning source (fun _ => ds.span) (ds.values source)
      exact hmeaning.trans (ds.listNames_values source)

/-- The names in the values of derivations are among those they are read from. -/
theorem Derivations.listNames_values {ss : List Symbol} (ds : Derivations ss)
    (source : List Char) : (Symbol.listNames ss (ds.values source)).Subperm ds.names :=
  match ds with
  | .nil => List.Subperm.refl _
  | .cons d ds => (d.allNames_value source).append (ds.listNames_values source)

end

mutual

/-- A derivation without the hole is filled in by moving it. -/
theorem Derivation.Moved.filled {s : Symbol} {d d' : Derivation s} (h : d.Moved m.place d')
    (hnames : hole ∉ d.names) : d.Filled m v d' :=
  match s, d, d', h, hnames with
  | _, .leaf t w, d', h, hnames => by
    obtain ⟨w', rfl, hw⟩ := h
    refine ⟨w', rfl, hw.filled fun ht => ?_⟩
    rw [Derivation.names, if_pos ht, List.mem_singleton] at hnames
    exact Ne.symm hnames
  | _, .node p ds, d', h, hnames => by
    rw [Derivation.Moved] at h
    rw [Derivation.Filled]
    split at h
    · next hp =>
      rw [if_pos hp]
      exact h
    · next hp =>
      rw [Derivation.names, if_neg hp] at hnames
      rw [if_neg hp]
      obtain ⟨ds', rfl, hds⟩ := h
      exact ⟨ds', rfl, Derivations.Moved.filled hds hnames⟩

/-- Derivations without a hole that are moved are filled. -/
theorem Derivations.Moved.filled {ss : List Symbol} {ds ds' : Derivations ss}
    (h : ds.Moved m.place ds') (hnames : hole ∉ ds.names) : ds.Filled m v ds' :=
  match ss, ds, ds', h, hnames with
  | _, .nil, .nil, _, _ => trivial
  | _, .cons d ds, .cons d' ds', h, hnames => by
    rw [Derivations.names, List.mem_append, not_or] at hnames
    exact ⟨Derivation.Moved.filled h.1 hnames.1, Derivations.Moved.filled h.2 hnames.2⟩

end

mutual

/-- No name that is read is the hole. -/
theorem Derivation.hole_notMem {s : Symbol} (d : Derivation s) {q : State} {h h' : Source.Head}
    (hd : d.Reads q h h') : hole ∉ d.names :=
  match d with
  | .leaf t w => by
    rw [Derivation.names]
    split
    · next ht =>
      subst ht
      obtain ⟨-, hfound, -⟩ := NextWord.exists_skips_of_word hd.1
      have hmatches := (Piece.matches_of_next? hfound).2.1
      rw [List.take_left] at hmatches
      rw [List.mem_singleton]
      intro hspelling
      have htext : w.text = hole.toList := by
        rw [hspelling, Lexeme.spelling, String.toList_ofList]
      rw [htext] at hmatches
      exact absurd hmatches (by decide)
    · exact List.not_mem_nil
  | .node p ds => by
    rw [Derivation.names]
    split
    · exact List.not_mem_nil
    · exact ds.hole_notMem hd

/-- No name that is read is a hole. -/
theorem Derivations.hole_notMem {ss : List Symbol} (ds : Derivations ss) {q : State}
    {h h' : Source.Head} (hds : ds.Reads q h h') : hole ∉ ds.names :=
  match ds with
  | .nil => List.not_mem_nil
  | .cons d ds => by
    obtain ⟨h₁, q', hd, -, hds⟩ := hds
    rw [Derivations.names, List.mem_append, not_or]
    exact ⟨d.hole_notMem hd, ds.hole_notMem hds⟩

end

end Grammar

/-- Each body is cut out of the text with the name filled in as it is cut out of the template. -/
theorem Block.ofSpan_filling {a p' : Position} {s : Span} {pre post : List Char} {v : String}
    (ha : a.offset = pre.length) (hline : 0 < a.line) (hv : v.toList ≠ [])
    (hs : s.Within .origin a ∨ s.Within (a.afterAll hole.toList) p') :
    Block.ofSpan (pre ++ (v.toList ++ post)) (s.relocated (.filling a v)) =
      (Block.ofSpan (pre ++ (hole.toList ++ post)) s).relocated (.filling a v) := by
  have hlength : 0 < v.toList.length := List.length_pos_iff.2 hv
  have hhole : (a.afterAll hole.toList).offset = a.offset + 2 := Position.offset_afterAll a _
  have hafter : (a.after '?').offset = a.offset + 1 := Position.offset_after a _
  have hbehind : ∀ q : Position, 0 < q.line → a.offset + 2 ≤ q.offset →
      ((Relocation.filling a v).place q).offset + 2 = q.offset + v.toList.length := by
    intro q hq hle
    have hmoved := Position.offset_movedFrom (a := a.after '?')
      (b := a.afterAll v.toList.dropLast) hq (by omega)
    rw [Position.offset_afterAll, List.length_dropLast] at hmoved
    show (Position.movedFrom (a.after '?') (a.afterAll v.toList.dropLast) q).offset + 2 = _
    omega
  have hbefore : ∀ q : Position, q.offset ≤ a.offset → (Relocation.filling a v).place q = q := by
    intro q hq
    exact Position.movedFrom_of_lt (by omega)
  suffices hsource : (ofSpan (pre ++ (v.toList ++ post))
      ⟨(Relocation.filling a v).place s.start, (Relocation.filling a v).place s.stop⟩).source =
        (ofSpan (pre ++ (hole.toList ++ post)) s).source from congrArg (Block.mk · _) hsource
  rcases hs with hs | hs
  · have horder := hs.order
    have hlt := hs.lt
    rw [hbefore _ (by omega), hbefore _ (by omega)]
    exact source_congr_left (show s.stop.offset < pre.length by omega)
  · have horder := hs.order
    have hle := hs.start.offset
    have hstartline := hs.start.line
    have hstopline := hs.stop.line
    have haline := (Position.le_afterAll a hole.toList).1
    have hstart := hbehind s.start (by omega) (by omega)
    have hstop := hbehind s.stop (by omega) (by omega)
    have hlengthhole : hole.toList.length = 2 := rfl
    rw [← List.append_assoc, ← List.append_assoc]
    refine source_congr_right ?_ ?_ ?_
    all_goals
      simp only [List.length_append, hlengthhole]
      omega

end CadenceEntry
