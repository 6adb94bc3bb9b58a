import CadenceEntry.Proofs.Nodes.Standing
import CadenceEntry.Proofs.Nodes.Tree
import CadenceEntry.Proofs.Syntax.Soundness
import CadenceEntry.Proofs.TypeText.RoundTrip

/-!
# Where nodes stand

Every node of a syntax tree stands in the text from the first to the last word of the derivation
that makes it, the nodes in it stand inside, no two of them overlap, and those of one field come in
order. The nodes on top of a derivation stand in order (`SyntaxNode.LaidOut`), so what a production
makes of the nodes of its parts does not have to be looked at again.
-/

set_option autoImplicit false

namespace CadenceEntry

open Grammar

namespace Grammar

mutual

/-- A derivation and the derivations that it is put together from. -/
def Derivation.inner {s : Symbol} : Derivation s → List (Sigma Derivation)
  | .leaf t w => [⟨_, .leaf t w⟩]
  | .node p ds => ⟨_, .node p ds⟩ :: ds.inner

/-- The derivations of a list and those that they are put together from. -/
def Derivations.inner {ss : List Symbol} : Derivations ss → List (Sigma Derivation)
  | .nil => []
  | .cons d ds => d.inner ++ ds.inner

end

mutual

/-- The words of a part of a derivation stand side by side among its words. -/
theorem Derivation.words_infix {s : Symbol} (d : Derivation s) {e : Sigma Derivation}
    (he : e ∈ d.inner) : e.2.words <:+: d.words :=
  match d with
  | .leaf t w => by
    obtain rfl := List.mem_singleton.1 he
    exact List.infix_rfl
  | .node p ds => by
    rcases List.mem_cons.1 he with rfl | he
    · exact List.infix_rfl
    · exact ds.words_infix he

/-- The words of a part of a list of derivations stand side by side among their words. -/
theorem Derivations.words_infix {ss : List Symbol} (ds : Derivations ss) {e : Sigma Derivation}
    (he : e ∈ ds.inner) : e.2.words <:+: ds.words :=
  match ds with
  | .nil => absurd he List.not_mem_nil
  | .cons d ds => by
    rcases List.mem_append.1 he with he | he
    · exact (d.words_infix he).trans (List.prefix_append _ _).isInfix
    · exact (ds.words_infix he).trans (List.suffix_append _ _).isInfix

end

mutual

/-- A body stands where a part that is a body does. -/
theorem Derivation.exists_of_mem_bodies {s : Symbol} (d : Derivation s) {b : Span}
    (hb : b ∈ d.bodies) : ∃ e ∈ d.inner, e.1 = .phrase .block ∧ e.2.span = b :=
  match d with
  | .leaf t w => absurd hb List.not_mem_nil
  | .node p ds => by
    rw [Derivation.bodies] at hb
    split at hb
    · next hp =>
      exact ⟨_, List.mem_cons_self, congrArg Symbol.phrase hp, (List.mem_singleton.1 hb).symm⟩
    · obtain ⟨e, he, h⟩ := ds.exists_of_mem_bodies hb
      exact ⟨e, List.mem_cons_of_mem _ he, h⟩

/-- A body of a list of derivations stands where a part that is a body does. -/
theorem Derivations.exists_of_mem_bodies {ss : List Symbol} (ds : Derivations ss) {b : Span}
    (hb : b ∈ ds.bodies) : ∃ e ∈ ds.inner, e.1 = .phrase .block ∧ e.2.span = b :=
  match ds with
  | .nil => absurd hb List.not_mem_nil
  | .cons d ds => by
    rcases List.mem_append.1 hb with hb | hb
    · obtain ⟨e, he, h⟩ := d.exists_of_mem_bodies hb
      exact ⟨e, List.mem_append_left _ he, h⟩
    · obtain ⟨e, he, h⟩ := ds.exists_of_mem_bodies hb
      exact ⟨e, List.mem_append_right _ he, h⟩

end

/-- The span of a derivation goes from its first to its last word. -/
theorem Derivation.span_eq {s : Symbol} (d : Derivation s) {a z : Terminal × Lexeme}
    (ha : d.words.head? = some a) (hz : d.words.getLast? = some z) :
    d.span = ⟨a.2.start, z.2.stop⟩ := by
  rw [span, d.first?_eq, d.last?_eq, ha, hz]
  rfl

end Grammar

namespace SyntaxNode

/-- The node `n` ends before the node `m` starts. -/
def Before (n m : SyntaxNode) : Prop := n.span.stop.offset < m.span.start.offset

/-- The node `m` stands inside the node `n`. -/
def Encloses (n m : SyntaxNode) : Prop :=
  n.span.start.offset ≤ m.span.start.offset ∧ m.span.stop.offset ≤ n.span.stop.offset

/-- The node `n` is what the derivation `e` means, and it stands in the text from the first to the
last word of it. -/
structure Spells (source : List Char) (e : Sigma Derivation) (n : SyntaxNode) : Prop where
  nodes : e.1.nodes (e.2.value source) = [n]
  first : ∃ a, e.2.first? = some a ∧ n.span.start = a.start ∧ a.text <+: n.span.text source
  last : ∃ z, e.2.last? = some z ∧ n.span.stop = z.stop ∧ z.text <:+ n.span.text source

/-- The node `n`, which one of the derivations `es` means, stands where it should in the text. -/
structure Placed (source : List Char) (es : List (Sigma Derivation)) (n : SyntaxNode) : Prop where
  start : n.span.start.IsIn source
  stop : n.span.stop.IsIn source
  order : n.span.start.offset ≤ n.span.stop.offset
  spelled : ∃ e ∈ es, n.Spells source e
  encloses : ∀ m ∈ n.children, n.Encloses m
  apart : n.children.Pairwise fun m m' => m.Before m' ∨ m'.Before m
  ordered : ∀ ms ∈ n.parts, ms.Pairwise Before
  identifier : ∀ i, n = .identifier i → i.text.toList = n.span.text source
  block : ∀ b, n = .block b → b.source.toList = n.span.text source ∧
    ['\x7b'] <+: b.source.toList ∧ ['\x7d'] <:+ b.source.toList

/-- The nodes `ns`, which words among `ws` make up, stand in order, and what they contain stands
where it should. -/
structure LaidOut (source : List Char) (es : List (Sigma Derivation))
    (ws : List (Terminal × Lexeme)) (ns : List SyntaxNode) : Prop where
  hull : ∀ n ∈ ns, ∃ x ∈ ws, ∃ y ∈ ws, n.span = ⟨x.2.start, y.2.stop⟩
  order : ns.Pairwise Before
  placed : ∀ n ∈ ns, ∀ m, n.Contains m → m.Placed source es

variable {source : List Char} {es es' : List (Sigma Derivation)}
  {ws ws' : List (Terminal × Lexeme)} {ns ns' : List SyntaxNode}

/-- A node that stands where it should among some derivations does so among more. -/
theorem Placed.mono {n : SyntaxNode} (h : n.Placed source es) (hes : ∀ e ∈ es, e ∈ es') :
    n.Placed source es' := by
  obtain ⟨e, he, hspells⟩ := h.spelled
  exact { h with spelled := ⟨e, hes e he, hspells⟩ }

/-- Nothing is laid out by no node. -/
theorem laidOut_nil : LaidOut source es ws [] :=
  ⟨by simp, .nil, by simp⟩

/-- Some of the nodes that stand in order stand in order. -/
theorem LaidOut.sublist (h : LaidOut source es ws ns) (hns : ns'.Sublist ns) :
    LaidOut source es ws ns' :=
  ⟨fun n hn => h.hull n (hns.subset hn), h.order.sublist hns,
    fun n hn => h.placed n (hns.subset hn)⟩

/-- Nodes of more derivations. -/
theorem LaidOut.mono (h : LaidOut source es ws ns) (hes : ∀ e ∈ es, e ∈ es') :
    LaidOut source es' ws ns :=
  ⟨h.hull, h.order, fun n hn m hm => (h.placed n hn m hm).mono hes⟩

/-- Nodes of words that come one after the other. -/
theorem LaidOut.append (h : LaidOut source es ws ns) (h' : LaidOut source es' ws' ns')
    (hws : WordsStand source (ws ++ ws')) : LaidOut source (es ++ es') (ws ++ ws') (ns ++ ns') := by
  refine ⟨fun n hn => ?_, List.pairwise_append.2 ⟨h.order, h'.order, ?_⟩, fun n hn m hm => ?_⟩
  · rcases List.mem_append.1 hn with hn | hn
    · obtain ⟨x, hx, y, hy, hspan⟩ := h.hull n hn
      exact ⟨x, List.mem_append_left _ hx, y, List.mem_append_left _ hy, hspan⟩
    · obtain ⟨x, hx, y, hy, hspan⟩ := h'.hull n hn
      exact ⟨x, List.mem_append_right _ hx, y, List.mem_append_right _ hy, hspan⟩
  · intro n hn m hm
    obtain ⟨_, _, y, hy, hspan⟩ := h.hull n hn
    obtain ⟨x, hx, _, _, hspan'⟩ := h'.hull m hm
    rw [Before, hspan, hspan']
    exact (List.pairwise_append.1 hws.order).2.2 y hy x hx
  · rcases List.mem_append.1 hn with hn | hn
    · exact (h.placed n hn m hm).mono fun e he => List.mem_append_left _ he
    · exact (h'.placed n hn m hm).mono fun e he => List.mem_append_right _ he

/-- What a node contains besides itself is in one of its children. -/
theorem Contains.cases {n m : SyntaxNode} (h : n.Contains m) :
    m = n ∨ ∃ c ∈ n.children, c.Contains m := by
  rcases Relation.ReflTransGen.cases_head h with rfl | ⟨c, hc, hm⟩
  · exact .inl rfl
  · exact .inr ⟨c, hc, hm⟩

/-- What a derivation means stands where it should if it stands from the first to the last word of
the derivation, and if what is inside it does. -/
theorem Placed.of_words {s : Symbol} {d : Derivation s} {n : SyntaxNode}
    {x y : Terminal × Lexeme} (hws : WordsStand source d.words) (hx : d.words.head? = some x)
    (hy : d.words.getLast? = some y) (hspan : n.span = ⟨x.2.start, y.2.stop⟩)
    (hn : s.nodes (d.value source) = [n]) (hd : ⟨s, d⟩ ∈ es)
    (encloses : ∀ m ∈ n.children, n.Encloses m)
    (apart : n.children.Pairwise fun m m' => m.Before m' ∨ m'.Before m)
    (ordered : ∀ ms ∈ n.parts, ms.Pairwise Before)
    (identifier : ∀ i, n = .identifier i → i.text.toList = n.span.text source)
    (block : ∀ b, n = .block b → b.source.toList = n.span.text source ∧
      ['\x7b'] <+: x.2.text ∧ ['\x7d'] <:+ y.2.text) : n.Placed source es := by
  have hmem_x := List.mem_of_mem_head? hx
  have hmem_y := List.mem_of_getLast? hy
  have hstands_x := hws.stands x hmem_x
  have hstands_y := hws.stands y hmem_y
  have hstart : n.span.start = x.2.start := by rw [hspan]
  have hstop : n.span.stop = y.2.stop := by rw [hspan]
  have hle : x.2.stop.offset ≤ y.2.stop.offset := (hws.bounds hx hy hmem_x).2
  have hprefix : x.2.text <+: n.span.text source := by
    rw [hspan]
    exact hstands_x.text_isPrefix hle
  have hsuffix : y.2.text <:+ n.span.text source := by
    rw [hspan]
    exact hstands_y.text_isSuffix (hws.bounds hx hy hmem_y).1
  have hfirst : d.first? = some x.2 := by rw [d.first?_eq, hx, Option.map_some]
  have hlast : d.last? = some y.2 := by rw [d.last?_eq, hy, Option.map_some]
  constructor
  case start => exact hstart ▸ hstands_x.isIn_start
  case stop => exact hstop ▸ hstands_y.isIn_stop
  case order =>
    have hlength := hstands_x.length_text
    have hpos := List.length_pos_iff.2 hstands_x.1
    rw [hstart, hstop]
    omega
  case spelled =>
    exact ⟨⟨s, d⟩, hd, hn, ⟨x.2, hfirst, hstart, hprefix⟩, ⟨y.2, hlast, hstop, hsuffix⟩⟩
  case encloses => exact encloses
  case apart => exact apart
  case ordered => exact ordered
  case identifier => exact identifier
  case block =>
    intro b hb
    obtain ⟨hsource, hopen, hclose⟩ := block b hb
    rw [hsource]
    exact ⟨rfl, hopen.trans hprefix, hclose.trans hsuffix⟩

/-- A name that is read is a node that stands where it should. -/
theorem laidOut_name {w : Lexeme} (h : WordsStand source [(.name, w)]) :
    LaidOut source [⟨_, .leaf .name w⟩] [(.name, w)] [.identifier (.ofLexeme w)] := by
  have htoList : (Identifier.ofLexeme w).text.toList = w.text := String.toList_ofList
  have hspan : (SyntaxNode.identifier (.ofLexeme w)).span = w.span := by
    show (Identifier.ofLexeme w).span = w.span
    rw [Identifier.span, htoList]
    rfl
  refine ⟨?_, List.pairwise_singleton _ _, ?_⟩
  · intro n hn
    rw [List.mem_singleton.1 hn]
    exact ⟨_, List.mem_cons_self, _, List.mem_cons_self, hspan⟩
  · intro n hn m hm
    rw [List.mem_singleton.1 hn] at hm
    have hchildren : (SyntaxNode.identifier (.ofLexeme w)).children = [] := rfl
    obtain rfl | ⟨c, hc, -⟩ := hm.cases
    · refine Placed.of_words (d := .leaf .name w) h rfl rfl hspan rfl List.mem_cons_self ?_ ?_ ?_
        ?_ nofun
      · simp [hchildren]
      · simp [hchildren]
      · simp [parts]
      · rintro i ⟨⟩
        rw [hspan, (h.stands _ List.mem_cons_self).text_span, htoList]
    · exact absurd hc (by simp [hchildren])

end SyntaxNode

namespace Grammar

/-- A body is enclosed in braces. -/
theorem Production.braces_of_lhs {p : Production} (h : p.lhs = .block) :
    p.rhs.head? = some (.token .leftBrace) ∧ p.rhs.getLast? = some (.token .rightBrace) := by
  cases p <;> first | exact absurd h (by decide) | exact ⟨rfl, rfl⟩

/-- The first word of a list of derivations that begins with a word. -/
theorem Derivations.head?_words {ss : List Symbol} (ds : Derivations ss) {t : Terminal}
    (h : ss.head? = some (.token t)) : ∃ w, ds.words.head? = some (t, w) := by
  cases ds with
  | nil => exact absurd h (by simp)
  | cons d ds =>
    obtain rfl := Option.some.inj h
    cases d with
    | leaf t w => exact ⟨w, rfl⟩

/-- The last word of a list of derivations that ends with a word. -/
theorem Derivations.getLast?_words {ss : List Symbol} (ds : Derivations ss) {t : Terminal}
    (h : ss.getLast? = some (.token t)) : ∃ w, ds.words.getLast? = some (t, w) :=
  match ss, ds with
  | [], _ => absurd h (by simp)
  | [s], .cons d .nil => by
    obtain rfl : s = .token t := Option.some.inj h
    cases d with
    | leaf t w => exact ⟨w, rfl⟩
  | s :: s' :: ss, .cons d ds => by
    obtain ⟨w, hw⟩ := ds.getLast?_words (t := t) (by rw [← h, List.getLast?_cons_cons])
    refine ⟨w, ?_⟩
    rw [Derivations.words, List.getLast?_append, hw]
    rfl

/-- The node that a production makes stands where it should if the nodes it is made of do. -/
theorem Production.Makes.laidOut {p : Production} {ds : Derivations p.rhs} {source : List Char}
    {n : SyntaxNode} {ns : List SyntaxNode} (h : p.Makes source ds.span ns n)
    (hn : p.lhs.nodes ((Derivation.node p ds).value source) = [n])
    (hws : WordsStand source ds.words) (hns : SyntaxNode.LaidOut source ds.inner ds.words ns) :
    SyntaxNode.LaidOut source (Derivation.node p ds).inner ds.words [n] := by
  obtain ⟨x, hx⟩ : ∃ x, ds.words.head? = some x := by
    obtain ⟨t, w, ws, hwords, -⟩ := (Derivation.node p ds).exists_first
      fun heq => h.program (Symbol.phrase.inj heq)
    exact ⟨(t, w), congrArg List.head? hwords⟩
  obtain ⟨y, hy⟩ : ∃ y, ds.words.getLast? = some y := by
    obtain ⟨ws, hwords⟩ := List.head?_eq_some_iff.1 hx
    exact ⟨_, List.getLast?_eq_some_getLast (by simp [hwords])⟩
  have hspan : n.span = ⟨x.2.start, y.2.stop⟩ := by
    rw [h.span, Derivations.span, ds.first?_eq, ds.last?_eq, hx, hy]
    rfl
  refine ⟨?_, List.pairwise_singleton _ _, ?_⟩
  · intro m hm
    rw [List.mem_singleton.1 hm]
    exact ⟨x, List.mem_of_mem_head? hx, y, List.mem_of_getLast? hy, hspan⟩
  · intro m hm m' hm'
    rw [List.mem_singleton.1 hm] at hm'
    obtain rfl | ⟨c, hc, hm'⟩ := hm'.cases
    · refine SyntaxNode.Placed.of_words (d := .node p ds) hws hx hy hspan hn List.mem_cons_self
        ?_ ?_ ?_ ?_ ?_
      · intro c hc
        obtain ⟨x', hx', y', hy', hspan'⟩ := hns.hull c (h.parts.children.subset hc)
        rw [SyntaxNode.Encloses, hspan, hspan']
        exact ⟨(hws.bounds hx hy hx').1, (hws.bounds hx hy hy').2⟩
      · -- nodes that come in order are apart, and being apart does not depend on the order
        obtain ⟨l, hperm, hsublist⟩ := h.parts.children
        refine (hperm.pairwise_iff fun hor => hor.symm).1 ?_
        exact (hns.order.sublist hsublist).imp .inl
      · exact fun ms hms => hns.order.sublist (h.parts.parts ms hms)
      · exact fun i hi => absurd hi (h.identifier i)
      · intro b hb
        obtain ⟨hlhs, rfl⟩ := h.block b hb
        obtain ⟨hhead, hgetLast⟩ := p.braces_of_lhs hlhs
        obtain ⟨w, hw⟩ := ds.head?_words hhead
        obtain ⟨w', hw'⟩ := ds.getLast?_words hgetLast
        obtain rfl := Option.some.inj (hx.symm.trans hw)
        obtain rfl := Option.some.inj (hy.symm.trans hw')
        have hopen : ['\x7b'] = w.text :=
          Option.some.inj (hws.fits _ (List.mem_of_mem_head? hx))
        have hclose : ['\x7d'] = w'.text :=
          Option.some.inj (hws.fits _ (List.mem_of_getLast? hy))
        refine ⟨?_, hopen ▸ List.prefix_rfl, hclose ▸ List.suffix_rfl⟩
        rw [h.span]
        exact String.toList_ofList
    · exact (hns.placed c (h.parts.children.subset hc) m' hm').mono
        fun e he => List.mem_cons_of_mem _ he

mutual

/-- The nodes on top of a derivation, and all nodes in them, stand where they should. -/
theorem Derivation.laidOut {s : Symbol} (d : Derivation s) {source : List Char}
    (hws : WordsStand source d.words) :
    SyntaxNode.LaidOut source d.inner d.words (s.nodes (d.value source)) :=
  match d with
  | .leaf t w => by
    cases t
    case name => exact SyntaxNode.laidOut_name hws
    all_goals exact SyntaxNode.laidOut_nil
  | .node p ds => by
    have hns := ds.laidOut hws
    rcases p.nodes_meaning source (fun _ => ds.span) (ds.values source) with
      hsublist | ⟨n, hn, hmakes⟩
    · exact (hns.sublist hsublist).mono fun e he => List.mem_cons_of_mem _ he
    · show SyntaxNode.LaidOut source _ ds.words (p.lhs.nodes ((Derivation.node p ds).value source))
      rw [show p.lhs.nodes ((Derivation.node p ds).value source) = [n] from hn]
      exact hmakes.laidOut hn hws hns

/-- The nodes on top of derivations, and all nodes in them, stand where they should. -/
theorem Derivations.laidOut {ss : List Symbol} (ds : Derivations ss) {source : List Char}
    (hws : WordsStand source ds.words) :
    SyntaxNode.LaidOut source ds.inner ds.words (Symbol.nodesAll ss (ds.values source)) :=
  match ds with
  | .nil => SyntaxNode.laidOut_nil
  | .cons d ds => (d.laidOut hws.left).append (ds.laidOut hws.right) hws

end

/-- The text is covered by pieces, and the words among them are the words of the derivation. -/
def Derivation.Covers {s : Symbol} (source : List Char) (d : Derivation s) : Prop :=
  ∃ ss : List Segment, Segment.join ss = source ∧ (∀ x ∈ ss, x.Valid) ∧
    Segment.words .origin ss = d.words

/-- The words of a derivation that covers a text stand in it. -/
theorem Derivation.Covers.stand {s : Symbol} {source : List Char} {d : Derivation s}
    (h : d.Covers source) : WordsStand source d.words := by
  obtain ⟨ss, rfl, hvalid, hwords⟩ := h
  rw [← hwords]
  exact Segment.stand_words hvalid

end Grammar

namespace SyntaxNode

/-- The declarations of a program that is read stand in order, and every node of it, and every node
of a type that is read, stands in the text where it should: its places have the line and the column
that they should have, the text between them begins with the first and ends with the last word of
the derivation that means the node, the nodes in it stand inside and apart from each other, those of
one field in order, a name is the text where it stands, and a body too, with its braces. -/
theorem placed_of_parse (text : String) :
    (∀ p, Program.parse text = .ok p →
      ∃ d : Derivation (.phrase .program), d.Covers text.toList ∧ p = d.value text.toList ∧
        p.nodes.Pairwise Before ∧
        ∀ n ∈ p.nodes, ∀ m, n.Contains m → m.Placed text.toList d.inner) ∧
    ∀ t, TypeExpr.parse text = .ok t →
      ∃ d : Derivation (.phrase .typeText), d.Covers text.toList ∧
        t = (d.annotation text.toList).type ∧
        ∀ m, t.node.Contains m → m.Placed text.toList d.inner := by
  constructor
  · intro p hp
    obtain ⟨d, hderive, -, rfl⟩ := Program.exists_derive_of_parse hp
    have hcovers : d.Covers text.toList :=
      Source.exists_segments_of_derive (g := .program) hderive
    have hlaid := d.laidOut hcovers.stand
    exact ⟨d, hcovers, rfl, hlaid.order, hlaid.placed⟩
  · intro t ht
    obtain ⟨d, hderive, -, rfl⟩ := TypeExpr.parse_eq_ok_iff.1 ht
    have hcovers : d.Covers text.toList :=
      Source.exists_segments_of_derive (g := .typeText) hderive
    have hlaid := d.laidOut hcovers.stand
    refine ⟨d, hcovers, rfl, fun m hm => ?_⟩
    -- the type is the only child of the type with its resource marker
    exact hlaid.placed (.annotated (d.annotation text.toList)) List.mem_cons_self m
      (.head List.mem_cons_self hm)

/-- A transaction without parameters and with its phases in another order, after a comment of two
lines, and a function with a type in parentheses. -/
def outOfOrder : String :=
  "/* a\n*/ transaction \x7b post \x7b \x7d let x: Int\n pre \x7b a \x7d \x7d\n" ++
    "fun f(a: (T)?): [U; 3] \x7b return \x7d"

/-- The nodes of a program and of a type. -/
theorem placed_of_parse_outOfOrder :
    (∃ p, Program.parse outOfOrder = .ok p ∧
      ∃ d : Derivation (.phrase .program), d.Covers outOfOrder.toList ∧
        p = d.value outOfOrder.toList ∧ p.nodes.Pairwise Before ∧
        ∀ n ∈ p.nodes, ∀ m, n.Contains m → m.Placed outOfOrder.toList d.inner) ∧
    ∃ t, TypeExpr.parse "@ \x7bString: (Int)\x7d" = .ok t ∧
      ∃ d : Derivation (.phrase .typeText), d.Covers "@ \x7bString: (Int)\x7d".toList ∧
        t = (d.annotation "@ \x7bString: (Int)\x7d".toList).type ∧
        ∀ m, t.node.Contains m → m.Placed "@ \x7bString: (Int)\x7d".toList d.inner := by
  constructor
  · obtain ⟨p, hp⟩ := exists_ok_of_isSome
      (r := Program.parse outOfOrder) (by decide +kernel)
    exact ⟨p, hp, (placed_of_parse outOfOrder).1 p hp⟩
  · obtain ⟨t, ht⟩ := exists_ok_of_isSome
      (r := TypeExpr.parse "@ \x7bString: (Int)\x7d") (by decide +kernel)
    exact ⟨t, ht, (placed_of_parse _).2 t ht⟩

/-- Where the two declarations start and stop. -/
example : (Program.parse outOfOrder).toOption.map (fun p => p.nodes.map span) =
    some [⟨⟨8, 2, 3⟩, ⟨53, 3, 11⟩⟩, ⟨⟨55, 4, 0⟩, ⟨87, 4, 32⟩⟩] := by
  decide +kernel

end SyntaxNode

end CadenceEntry
