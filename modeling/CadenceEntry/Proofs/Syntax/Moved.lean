import CadenceEntry.Proofs.Source.Moving
import CadenceEntry.Proofs.Syntax.Relocation
import Mathlib.Data.Option.Basic

/-!
# Derivations at other places

Two derivations of the same shape whose words stand at other places mean the same at other places:
`Derivation.value_of_moved`. The value of a body only depends on where it begins and ends, so bodies
may even differ in their words.
-/

set_option autoImplicit false

namespace CadenceEntry.Grammar

variable {f : Position → Position}

/-- The second derivation begins and ends where the ends of the first go, and the same integer
literal without a value comes first in both, if there is one. -/
structure Derivation.ExtentMoved (f : Position → Position) {s : Symbol} (d d' : Derivation s) :
    Prop where
  first : Option.Rel (fun w w' => w'.start = f w.start) d.first? d'.first?
  last : Option.Rel (fun w w' => w'.stop = f w.stop) d.last? d'.last?
  invalid : d'.invalidInteger?.map Lexeme.text = d.invalidInteger?.map Lexeme.text

mutual

/-- Each word of the second derivation stands where the word of the first goes. Of a body only the
extent counts. -/
def Derivation.Moved (f : Position → Position) :
    {s : Symbol} → Derivation s → Derivation s → Prop
  | _, .leaf t w, d' => ∃ w', d' = .leaf t w' ∧ w.Moved f w'
  | _, .node p ds, d' =>
    if p.lhs = .block then (Derivation.node p ds).ExtentMoved f d'
    else ∃ ds', d' = .node p ds' ∧ ds.Moved f ds'

/-- The derivations of the second list are those of the first, one by one, with their words where
those of the first go. -/
def Derivations.Moved (f : Position → Position) :
    {ss : List Symbol} → Derivations ss → Derivations ss → Prop
  | _, .nil, _ => True
  | _, .cons d ds, .cons d' ds' => d.Moved f d' ∧ ds.Moved f ds'

end

/-- What holds of the extent of a derivation, for a list of derivations. -/
structure Derivations.ExtentMoved (f : Position → Position) {ss : List Symbol}
    (ds ds' : Derivations ss) : Prop where
  first : Option.Rel (fun w w' => w'.start = f w.start) ds.first? ds'.first?
  last : Option.Rel (fun w w' => w'.stop = f w.stop) ds.last? ds'.last?
  invalid : ds'.invalidInteger?.map Lexeme.text = ds.invalidInteger?.map Lexeme.text

/-- The first of two derivations that has a word begins both. -/
theorem Derivations.ExtentMoved.cons {s : Symbol} {ss : List Symbol} {d d' : Derivation s}
    {ds ds' : Derivations ss} (hd : d.ExtentMoved f d') (hds : ds.ExtentMoved f ds') :
    (Derivations.cons d ds).ExtentMoved f (.cons d' ds') := by
  obtain ⟨hfirst, hlast, hinvalid⟩ := hd
  obtain ⟨hfirst', hlast', hinvalid'⟩ := hds
  refine ⟨?_, ?_, ?_⟩
  · rw [Derivations.first?, Derivations.first?]
    revert hfirst
    generalize d.first? = o
    generalize d'.first? = o'
    rintro (⟨h⟩ | _)
    · exact .some h
    · exact hfirst'
  · rw [Derivations.last?, Derivations.last?]
    revert hlast'
    generalize ds.last? = o
    generalize ds'.last? = o'
    rintro (⟨h⟩ | _)
    · exact .some h
    · exact hlast
  · rw [Derivations.invalidInteger?, Derivations.invalidInteger?]
    cases hd : d.invalidInteger? with
    | none =>
      rw [hd, Option.map_none, Option.map_eq_none_iff] at hinvalid
      rw [hinvalid]
      exact hinvalid'
    | some w =>
      rw [hd, Option.map_some, Option.map_eq_some_iff] at hinvalid
      obtain ⟨w', hw', htext⟩ := hinvalid
      rw [hw']
      exact congrArg some htext

mutual

/-- A derivation that is moved begins and ends where its ends go. -/
theorem Derivation.Moved.extent {s : Symbol} {d d' : Derivation s} (h : d.Moved f d') :
    d.ExtentMoved f d' :=
  match s, d, d', h with
  | _, .leaf t w, d', h => by
    obtain ⟨w', rfl, hw⟩ := h
    refine ⟨.some hw.start, .some hw.stop, ?_⟩
    rw [Derivation.invalidInteger?, Derivation.invalidInteger?, hw.text]
    split
    · exact congrArg some hw.text
    · rfl
  | _, .node p ds, d', h => by
    rw [Derivation.Moved] at h
    split at h
    · exact h
    · obtain ⟨ds', rfl, hds⟩ := h
      obtain ⟨hfirst, hlast, hinvalid⟩ := hds.extent
      exact ⟨hfirst, hlast, hinvalid⟩

/-- Derivations that are moved begin and end where their ends go. -/
theorem Derivations.Moved.extent {ss : List Symbol} {ds ds' : Derivations ss}
    (h : ds.Moved f ds') : ds.ExtentMoved f ds' :=
  match ss, ds, ds', h with
  | _, .nil, .nil, _ => ⟨.none, .none, rfl⟩
  | _, .cons _ _, .cons _ _, h => .cons h.1.extent h.2.extent

end

/-- Derivations are put together where their parts go. -/
theorem Derivations.Moved.node {p : Production} {ds ds' : Derivations p.rhs}
    (h : ds.Moved f ds') : (Derivation.node p ds).Moved f (.node p ds') := by
  rw [Derivation.Moved]
  split
  · obtain ⟨hfirst, hlast, hinvalid⟩ := h.extent
    exact ⟨hfirst, hlast, hinvalid⟩
  · exact ⟨ds', rfl, h⟩

mutual

/-- A derivation stays where it is if its words do. -/
theorem Derivation.moved_self {s : Symbol} (d : Derivation s)
    (h : ∀ x ∈ d.words, x.2.Moved f x.2) : d.Moved f d :=
  match d with
  | .leaf t w => ⟨w, rfl, h (t, w) (List.mem_singleton.2 rfl)⟩
  | .node p ds => (ds.moved_self h).node

/-- Derivations whose words stay where they are are not moved. -/
theorem Derivations.moved_self {ss : List Symbol} (ds : Derivations ss)
    (h : ∀ x ∈ ds.words, x.2.Moved f x.2) : ds.Moved f ds :=
  match ds with
  | .nil => trivial
  | .cons d ds =>
    ⟨d.moved_self fun x hx => h x (List.mem_append_left _ hx),
      ds.moved_self fun x hx => h x (List.mem_append_right _ hx)⟩

end

/-! ## What moved derivations mean -/

/-- From the first character of the first word to the last character of the last one. -/
def Derivation.span {s : Symbol} (d : Derivation s) : Span :=
  match d.first?, d.last? with
  | some a, some z => ⟨a.start, z.stop⟩
  | _, _ => {}

/-- The span of a derivation goes where its ends go. -/
theorem Derivation.ExtentMoved.span {m : Relocation} {s : Symbol} {d d' : Derivation s}
    (h : d.ExtentMoved m.place d') : d'.span = d.span.relocated m := by
  obtain ⟨hfirst, hlast, -⟩ := h
  unfold Derivation.span
  revert hfirst hlast
  generalize d.first? = a
  generalize d'.first? = a'
  generalize d.last? = z
  generalize d'.last? = z'
  rintro (⟨ha⟩ | _) (⟨hz⟩ | _)
  · dsimp only
    rw [ha, hz]
    rfl
  all_goals simp

/-- The span of the parts of a phrase goes where they go. -/
theorem Derivations.Moved.span {m : Relocation} {p : Production} {ds ds' : Derivations p.rhs}
    (h : ds.Moved m.place ds') : ds'.span = ds.span.relocated m :=
  h.node.extent.span

mutual

/-- Where the bodies of a derivation stand. -/
def Derivation.bodies {s : Symbol} : Derivation s → List Span
  | .leaf _ _ => []
  | .node p ds => if p.lhs = .block then [ds.span] else ds.bodies

/-- Where the bodies of a list of derivations stand. -/
def Derivations.bodies {ss : List Symbol} : Derivations ss → List Span
  | .nil => []
  | .cons d ds => d.bodies ++ ds.bodies

end

/-- A body means the text at its span, whatever its words are. -/
theorem Derivation.value_block (d : Derivation (.phrase .block)) (source : List Char) :
    d.value source = Block.ofSpan source d.span := by
  have hblock : ∀ {s : Symbol} (d : Derivation s), s = .phrase .block →
      HEq (d.value source) (Block.ofSpan source d.span) := by
    intro s d hs
    cases d with
    | leaf t w => exact absurd hs (by simp)
    | node p ds =>
      cases p
      case blockItems => exact HEq.rfl
      case blockEmpty => exact HEq.rfl
      all_goals exact absurd hs (by decide)
  exact eq_of_heq (hblock d rfl)

/-- Without places all bodies mean the same. -/
theorem Derivation.plainValue_block (d : Derivation (.phrase .block)) :
    d.plainValue = Block.ofSpan [] {} := by
  have hblock : ∀ {s : Symbol} (d : Derivation s), s = .phrase .block →
      HEq d.plainValue (Block.ofSpan [] {}) := by
    intro s d hs
    cases d with
    | leaf t w => exact absurd hs (by simp)
    | node p ds =>
      cases p
      case blockItems => exact HEq.rfl
      case blockEmpty => exact HEq.rfl
      all_goals exact absurd hs (by decide)
  exact eq_of_heq (hblock d rfl)

/-- A production that makes no body does not look at the text. -/
theorem Production.meaning_congr (p : Production) (hp : p.lhs ≠ .block) (source source' : List Char)
    (s : Unit → Span) (vs : Symbol.Values p.rhs) :
    p.meaning source s vs = p.meaning source' s vs := by
  cases p
  case blockItems => exact absurd rfl hp
  case blockEmpty => exact absurd rfl hp
  all_goals rfl

/-- A production that makes a body makes it from the extent of its parts. -/
theorem Production.relocated_value_block (m : Relocation) {p : Production} (hp : p.lhs = .block)
    {ds : Derivations p.rhs} {d' : Derivation (.phrase p.lhs)} {source source' : List Char}
    (hspan : d'.span = ds.span.relocated m)
    (hbody : Block.ofSpan source' (ds.span.relocated m) =
      (Block.ofSpan source ds.span).relocated m) :
    d'.value source' = p.lhs.relocated m ((Derivation.node p ds).value source) := by
  cases p
  case blockItems =>
    exact (d'.value_block source').trans ((congrArg _ hspan).trans hbody)
  case blockEmpty =>
    exact (d'.value_block source').trans ((congrArg _ hspan).trans hbody)
  all_goals exact absurd hp (by decide)

mutual

/-- A derivation whose words stand at other places means the same there, if each body is cut out of
the text with the source that it has there. -/
theorem Derivation.value_of_moved {m : Relocation} {s : Symbol} {d d' : Derivation s}
    {source source' : List Char} (h : d.Moved m.place d')
    (hbodies : ∀ b ∈ d.bodies,
      Block.ofSpan source' (b.relocated m) = (Block.ofSpan source b).relocated m) :
    d'.value source' = s.relocated m (d.value source) :=
  match s, d, d', h, hbodies with
  | _, .leaf t w, d', h, _ => by
    obtain ⟨⟨text, start⟩, rfl, hw⟩ := h
    obtain rfl : text = w.text := hw.text
    obtain rfl : start = m.place w.start := hw.start
    rfl
  | _, .node p ds, d', h, hbodies => by
    have hextent := h.extent
    rw [Derivation.Moved] at h
    rw [Derivation.bodies] at hbodies
    split at h
    · next hp =>
      rw [if_pos hp] at hbodies
      exact Production.relocated_value_block m hp hextent.span
        (hbodies _ (List.mem_singleton.2 rfl))
    · next hp =>
      rw [if_neg hp] at hbodies
      obtain ⟨ds', rfl, hds⟩ := h
      rw [Derivation.value, Derivation.value, Derivations.values_of_moved hds hbodies, hds.span]
      exact (p.relocated_meaning m (s := fun _ => ds.span) _ fun h => absurd h hp).symm

/-- Derivations that are moved mean the same at other places, if their bodies have their new
sources. -/
theorem Derivations.values_of_moved {m : Relocation} {ss : List Symbol} {ds ds' : Derivations ss}
    {source source' : List Char} (h : ds.Moved m.place ds')
    (hbodies : ∀ b ∈ ds.bodies,
      Block.ofSpan source' (b.relocated m) = (Block.ofSpan source b).relocated m) :
    ds'.values source' = Symbol.relocatedAll m ss (ds.values source) :=
  match ss, ds, ds', h, hbodies with
  | _, .nil, .nil, _, _ => rfl
  | _, .cons d ds, .cons d' ds', h, hbodies => by
    have hd := Derivation.value_of_moved h.1 fun b hb => hbodies b (List.mem_append_left _ hb)
    have hds := Derivations.values_of_moved h.2 fun b hb =>
      hbodies b (List.mem_append_right _ hb)
    rw [Derivations.values, Derivations.values, hd, hds]
    rfl

end

mutual

/-- The text around the bodies of a derivation has no part in its value. -/
theorem Derivation.value_congr {s : Symbol} (d : Derivation s) {source source' : List Char}
    (h : ∀ b ∈ d.bodies, Block.ofSpan source' b = Block.ofSpan source b) :
    d.value source' = d.value source :=
  match d with
  | .leaf t w => rfl
  | .node p ds => by
    rw [Derivation.bodies] at h
    split at h
    · next hp =>
      have hbody := h _ (List.mem_singleton.2 rfl)
      cases p
      case blockItems => exact hbody
      case blockEmpty => exact hbody
      all_goals exact absurd hp (by decide)
    · next hp =>
      rw [Derivation.value, Derivation.value, ds.values_congr h]
      exact p.meaning_congr hp _ _ _ _

/-- Derivations mean the same in every text that has the same bodies. -/
theorem Derivations.values_congr {ss : List Symbol} (ds : Derivations ss)
    {source source' : List Char}
    (h : ∀ b ∈ ds.bodies, Block.ofSpan source' b = Block.ofSpan source b) :
    ds.values source' = ds.values source :=
  match ds with
  | .nil => rfl
  | .cons d ds => by
    have hd := d.value_congr fun b hb => h b (List.mem_append_left _ hb)
    have hds := ds.values_congr fun b hb => h b (List.mem_append_right _ hb)
    rw [Derivations.values, Derivations.values, hd, hds]

end

mutual

/-- At other places a derivation means the same but for places. -/
theorem Derivation.plainValue_of_moved {s : Symbol} {d d' : Derivation s} (h : d.Moved f d') :
    d'.plainValue = d.plainValue :=
  match s, d, d', h with
  | _, .leaf t w, d', h => by
    obtain ⟨w', rfl, hw⟩ := h
    show w'.unplaced = w.unplaced
    rw [Lexeme.unplaced, Lexeme.unplaced, hw.text]
  | _, .node p ds, d', h => by
    rw [Derivation.Moved] at h
    split at h
    · next hp =>
      cases p
      case blockItems => exact d'.plainValue_block
      case blockEmpty => exact d'.plainValue_block
      all_goals exact absurd hp (by decide)
    · obtain ⟨ds', rfl, hds⟩ := h
      rw [Derivation.plainValue, Derivation.plainValue, Derivations.plainValues_of_moved hds]

/-- Derivations that are moved mean the same but for places. -/
theorem Derivations.plainValues_of_moved {ss : List Symbol} {ds ds' : Derivations ss}
    (h : ds.Moved f ds') : ds'.plainValues = ds.plainValues :=
  match ss, ds, ds', h with
  | _, .nil, .nil, _ => rfl
  | _, .cons d ds, .cons d' ds', h => by
    rw [Derivations.plainValues, Derivations.plainValues, Derivation.plainValue_of_moved h.1,
      Derivations.plainValues_of_moved h.2]

end

/-- A derivation is evaluated where it goes if it is evaluated at all. -/
theorem Derivation.Moved.invalidInteger?_eq_none_iff {s : Symbol} {d d' : Derivation s}
    (h : d.Moved f d') : d'.invalidInteger? = none ↔ d.invalidInteger? = none := by
  have hinvalid := h.extent.invalid
  rw [← Option.map_eq_none_iff (f := Lexeme.text), hinvalid, Option.map_eq_none_iff]

end CadenceEntry.Grammar
