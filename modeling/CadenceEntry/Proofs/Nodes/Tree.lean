import CadenceEntry.Proofs.Syntax.Places
import Mathlib.Data.List.Perm.Subperm

/-!
# The nodes of a syntax tree

Everything in a syntax tree that has a place of its own is a node: names, types, parameters, bodies
and declarations. A node has parts, one for each of its fields that hold nodes, and the nodes in its
parts are its children. The value of a derivation has some nodes on top, and a production either
passes on the nodes of what it puts together or makes one node, whose children are among them:
`Production.nodes_meaning`.
-/

set_option autoImplicit false

namespace CadenceEntry

open Grammar

/-- A node of a syntax tree. -/
inductive SyntaxNode where
  | identifier (i : Identifier)
  | nominal (t : NominalType)
  | type (t : TypeExpr)
  | annotated (a : AnnotatedType)
  | parameter (p : Parameter)
  | parameters (ps : ParameterList)
  | block (b : Block)
  | field (d : FieldDeclaration)
  | phase (d : PhaseDeclaration)
  | declaration (d : Declaration)

/-- From the first to the last character of a name. -/
def Identifier.span (i : Identifier) : Span := ⟨i.place, i.place.afterAll i.text.toList.dropLast⟩

/-- Where a type stands. -/
def TypeExpr.span : TypeExpr → Span
  | .nominal t => t.span
  | .optional _ s | .variableSized _ s | .constantSized _ _ _ s | .dictionary _ _ s
  | .instantiation _ _ s | .reference _ _ _ s | .intersection _ s | .restricted _ _ s
  | .function _ _ s => s

/-- Where a declaration stands. -/
def Declaration.span : Declaration → Span
  | .imports d => d.span
  | .pragma d => d.span
  | .transaction d => d.span
  | .function d => d.span
  | .composite d => d.span
  | .event d => d.span
  | .entitlement d => d.span

/-- The node that a type is. A type name is a node by itself. -/
def TypeExpr.node : TypeExpr → SyntaxNode
  | .nominal t => .nominal t
  | t => .type t

/-- The node of a parameter list; none for the list of a transaction that is written without one. -/
def ParameterList.nodes (ps : ParameterList) : List SyntaxNode :=
  if ps.span = {} then [] else [.parameters ps]

/-- The nodes in the fields of a type. -/
def TypeExpr.parts : TypeExpr → List (List SyntaxNode)
  | .nominal t => [[.identifier t.head], t.nested.map .identifier]
  | .optional t _ | .variableSized t _ | .constantSized t _ _ _ => [[t.node]]
  | .dictionary k v _ => [[k.node], [v.node]]
  | .instantiation t as _ => [[t.node], as.map .annotated]
  | .reference _ es t _ => [es.map .nominal, [t.node]]
  | .intersection ts _ => [ts.map .nominal]
  | .restricted t ts _ => [[.nominal t], ts.map .nominal]
  | .function ps r _ => [ps.map .annotated, r.toList.map .annotated]

/-- The nodes in the fields of a declaration. -/
def Declaration.parts : Declaration → List (List SyntaxNode)
  | .imports d => [d.names.map .identifier]
  | .pragma _ => []
  | .transaction d =>
    [d.parameters.nodes, d.fields.map .field, d.prepare.toList.map .phase, d.pre.toList.map .phase,
      d.execute.toList.map .phase, d.post.toList.map .phase]
  | .function d =>
    [[.identifier d.name], [.parameters d.parameters], d.result.toList.map .annotated,
      d.body.toList.map .block]
  | .composite d => [[.identifier d.name], d.conformances.map .nominal, [.block d.body]]
  | .event d => [[.identifier d.name], [.parameters d.parameters]]
  | .entitlement d => [[.identifier d.name]]

namespace SyntaxNode

/-- Where a node stands. -/
def span : SyntaxNode → Span
  | identifier i => i.span
  | nominal t => t.span
  | type t => t.span
  | annotated a => a.span
  | parameter p => p.span
  | parameters ps => ps.span
  | block b => b.span
  | field d => d.span
  | phase d => d.span
  | declaration d => d.span

/-- The nodes in the fields of a node, one list for each field. -/
def parts : SyntaxNode → List (List SyntaxNode)
  | identifier _ => []
  | nominal t => (TypeExpr.nominal t).parts
  | type t => t.parts
  | annotated a => [[a.type.node]]
  | parameter p => [[.identifier p.name], [.annotated p.type]]
  | parameters ps => [ps.parameters.map .parameter]
  | block _ => []
  | field d => [[.identifier d.name], [.annotated d.type]]
  | phase d => [d.parameters.toList.map .parameters, [.block d.body]]
  | declaration d => d.parts

/-- The nodes in the fields of a node. -/
def children (n : SyntaxNode) : List SyntaxNode := n.parts.flatten

/-- The node `m` is the node `n` or somewhere inside it. -/
def Contains : SyntaxNode → SyntaxNode → Prop := Relation.ReflTransGen fun n m => m ∈ n.children

/-- The parts of the node `n` are taken from the nodes `ns`, none of them twice. -/
structure MadeOf (n : SyntaxNode) (ns : List SyntaxNode) : Prop where
  parts : ∀ cs ∈ n.parts, cs.Sublist ns
  children : n.children.Subperm ns

/-- A node whose fields come in the order of the nodes `ns` is made of them. -/
theorem madeOf_of_sublist {n : SyntaxNode} {ns : List SyntaxNode} (h : n.children.Sublist ns) :
    n.MadeOf ns :=
  ⟨fun _ hcs => (List.sublist_flatten_of_mem hcs).trans h, h.subperm⟩

/-- A node that is made of some nodes is made of more nodes. -/
theorem MadeOf.mono {n : SyntaxNode} {ns ns' : List SyntaxNode} (h : n.MadeOf ns)
    (hns : ns.Sublist ns') : n.MadeOf ns' :=
  ⟨fun cs hcs => (h.parts cs hcs).trans hns, h.children.trans hns.subperm⟩

end SyntaxNode

/-- The nodes of a program. -/
def Program.nodes (p : Program) : List SyntaxNode := p.declarations.map .declaration

/-! ## The members of a transaction -/

/-- The elements of a list of some sorts, sort by sort, are some of its elements. -/
theorem flatMap_filter_subperm {α κ : Type} [DecidableEq κ] (sort : α → κ) {ks : List κ}
    (hks : ks.Nodup) (l : List α) :
    (ks.flatMap fun k => l.filter fun a => sort a = k).Subperm l := by
  induction ks generalizing l with
  | nil => exact List.nil_subperm
  | cons k ks ih =>
    obtain ⟨hk, hks⟩ := List.nodup_cons.1 hks
    have hrest : (ks.flatMap fun k' => l.filter fun a => sort a = k') =
        ks.flatMap fun k' =>
          (l.filter fun a => !decide (sort a = k)).filter fun a => sort a = k' := by
      refine List.flatMap_congr fun k' hk' => ?_
      rw [List.filter_filter]
      refine List.filter_congr fun a _ => ?_
      by_cases ha : sort a = k'
      · have hne : k' ≠ k := fun heq => hk (heq ▸ hk')
        simp [ha, hne]
      · simp [ha]
    rw [List.flatMap_cons, hrest]
    have hsplit := List.filter_append_perm (fun a => decide (sort a = k)) l
    exact ((List.Subperm.refl _).append (ih hks _)).trans hsplit.subperm

namespace TransactionMember

/-- The node of a member. -/
def node : TransactionMember → SyntaxNode
  | field d => .field d
  | phase d => .phase d

/-- What a member is: a field, or some phase. -/
def sort : TransactionMember → Option (Option Phase)
  | field _ => none
  | phase d => some d.phase

/-- The nodes of the fields are those of the members that are fields. -/
theorem map_field_fields (ms : List TransactionMember) :
    (fields ms).map SyntaxNode.field = (ms.filter fun m => m.sort = none).map node := by
  induction ms with
  | nil => rfl
  | cons m ms ih =>
    cases m with
    | field d => exact congrArg (SyntaxNode.field d :: ·) ih
    | phase d => exact ih

/-- The node of a phase is that of one of the members that are this phase. -/
theorem map_phase_lastPhase?_sublist (p : Phase) (ms : List TransactionMember) :
    ((lastPhase? p ms).toList.map SyntaxNode.phase).Sublist
      ((ms.filter fun m => m.sort = some (some p)).map node) := by
  have hphases : (ms.filterMap fun
      | field _ => none
      | phase d => if d.phase = some p then some d else none).map SyntaxNode.phase =
      (ms.filter fun m => m.sort = some (some p)).map node := by
    induction ms with
    | nil => rfl
    | cons m ms ih =>
      cases m with
      | field d => exact ih
      | phase d => by_cases hd : d.phase = some p <;> simp [sort, node, hd, ih]
  have hlast : ∀ ds : List PhaseDeclaration, ds.getLast?.toList.Sublist ds := by
    intro ds
    rcases List.eq_nil_or_concat ds with rfl | ⟨ds, d, rfl⟩ <;> simp
  rw [← hphases, lastPhase?]
  exact (hlast _).map _

/-- The nodes of the fields and of the phases are nodes of the members, none of them twice. -/
theorem nodes_subperm (ms : List TransactionMember) :
    ((fields ms).map SyntaxNode.field ++ [Phase.prepare, .pre, .execute, .post].flatMap fun p =>
      (lastPhase? p ms).toList.map SyntaxNode.phase).Subperm (ms.map node) := by
  have hphases := fun p => map_phase_lastPhase?_sublist p ms
  let sorts : List (Option (Option Phase)) :=
    [none, some (some .prepare), some (some .pre), some (some .execute), some (some .post)]
  have hsorts : (sorts.flatMap fun k => (ms.filter fun m => m.sort = k).map node).Subperm
      (ms.map node) := by
    rw [← List.map_flatMap]
    obtain ⟨ns, hperm, hsublist⟩ := flatMap_filter_subperm sort (show sorts.Nodup by decide) ms
    exact ⟨_, hperm.map _, hsublist.map _⟩
  refine List.Subperm.trans (List.Sublist.subperm ?_) hsorts
  refine List.Sublist.append ?_ ?_
  · exact map_field_fields ms ▸ List.Sublist.refl _
  · exact (hphases _).append ((hphases _).append ((hphases _).append
      ((hphases _).append (List.Sublist.refl _))))

end TransactionMember

/-- The parameter list, if it is written, is a node. -/
theorem ParameterList.nodes_sublist (ps : ParameterList) :
    ps.nodes.Sublist [SyntaxNode.parameters ps] := by
  unfold nodes
  split
  · exact List.nil_sublist _
  · exact List.Sublist.refl _

/-- A transaction is made of its parameter list and its members, in whatever order the phases
come. -/
theorem TransactionDeclaration.madeOf_ofMembers (ps : ParameterList) (ms : List TransactionMember)
    (span : Span) :
    (SyntaxNode.declaration (.transaction (ofMembers ps ms span))).MadeOf
      (ps.nodes ++ ms.map TransactionMember.node) := by
  have hfields := TransactionMember.map_field_fields ms
  have hphases := fun p => TransactionMember.map_phase_lastPhase?_sublist p ms
  have hfilter : ∀ k, ((ms.filter fun m => m.sort = k).map TransactionMember.node).Sublist
      (ps.nodes ++ ms.map TransactionMember.node) := fun k =>
    (List.filter_sublist.map _).trans (List.sublist_append_right _ _)
  constructor
  · intro cs hcs
    simp only [SyntaxNode.parts, Declaration.parts, ofMembers, List.mem_cons, List.not_mem_nil,
      or_false] at hcs
    rcases hcs with rfl | rfl | rfl | rfl | rfl | rfl
    · exact List.sublist_append_left _ _
    · rw [hfields]
      exact hfilter none
    all_goals exact (hphases _).trans (hfilter _)
  · exact (List.Subperm.refl ps.nodes).append (TransactionMember.nodes_subperm ms)

namespace Grammar

/-- The nodes on top of the value of a phrase. -/
def Nonterminal.nodes : (n : Nonterminal) → n.Value → List SyntaxNode
  | .program => Program.nodes
  | .typeText | .annotatedType | .annotatedResult => fun a => [.annotated a]
  | .declarations => List.map .declaration
  | .declaration => fun d => (Option.toList d).map .declaration
  | .importDeclaration => fun d => [.declaration (.imports d)]
  | .importNames | .moreImportNames | .moreNameParts => List.map .identifier
  | .pragmaDeclaration => fun d => [.declaration (.pragma d)]
  | .transactionDeclaration => fun d => [.declaration (.transaction d)]
  | .transactionMembers => List.map TransactionMember.node
  | .transactionMember => fun m => [TransactionMember.node m]
  | .fieldDeclaration => fun d => [.field d]
  | .prepareBlock | .preBlock | .executeBlock | .postBlock => fun d => [.phase d]
  | .functionDeclaration => fun d => [.declaration (.function d)]
  | .compositeDeclaration => fun d => [.declaration (.composite d)]
  | .conformances | .moreNominals | .authorization | .moreAuthorized => List.map .nominal
  | .eventDeclaration => fun d => [.declaration (.event d)]
  | .entitlementDeclaration => fun d => [.declaration (.entitlement d)]
  | .parameterList => fun ps => [.parameters ps]
  | .moreParameters => List.map .parameter
  | .parameter => fun p => [.parameter p]
  | .block => fun b => [.block b]
  | .moreAnnotatedTypes => List.map .annotated
  | .type | .postfixType | .primaryType | .resultType | .resultPostfix | .resultPrimary
  | .instantiationType | .referenceType | .functionType => fun t => [TypeExpr.node t]
  | .nominalType => fun t => [.nominal t]
  | .importLocation | .variableKind | .compositeKind | .accessModifier | .moreAccessNames
  | .nestedBlock | .blockItems | .blockItem => fun _ => []

/-- The nodes on top of the value of a symbol. A word that is a name can be a node. -/
def Symbol.nodes : (s : Symbol) → s.Value → List SyntaxNode
  | .token .name => fun w => [.identifier (.ofLexeme w)]
  | .token _ => fun _ => []
  | .phrase n => n.nodes

/-- The nodes on top of the values of a list of symbols. -/
def Symbol.nodesAll : (ss : List Symbol) → Symbol.Values ss → List SyntaxNode
  | [], _ => []
  | s :: ss, (v, vs) => s.nodes v ++ Symbol.nodesAll ss vs

/-- The production `p` makes the node `n` of the nodes `ns` at the span `s` of a text. It is not a
name, and if it is a body, it has the text at its span. -/
structure Production.Makes (p : Production) (source : List Char) (s : Span)
    (ns : List SyntaxNode) (n : SyntaxNode) : Prop where
  span : n.span = s
  parts : n.MadeOf ns
  program : p.lhs ≠ .program
  identifier : ∀ i, n ≠ .identifier i
  block : ∀ b, n = .block b → p.lhs = .block ∧ b = Block.ofSpan source s

/-- A production passes on nodes of its parts, or it makes one node of them that stands at its
span. -/
theorem Production.nodes_meaning (p : Production) (source : List Char) (s : Unit → Span)
    (vs : Symbol.Values p.rhs) :
    (p.lhs.nodes (p.meaning source s vs)).Sublist (Symbol.nodesAll p.rhs vs) ∨
      ∃ n, p.lhs.nodes (p.meaning source s vs) = [n] ∧
        p.Makes source (s ()) (Symbol.nodesAll p.rhs vs) n := by
  have hlist : ∀ {α : Type} (f : α → SyntaxNode) (xs : List α),
      (xs.map f).Sublist (xs.map f ++ []) := fun f xs => List.sublist_append_left _ _
  have hconcat : ∀ {α : Type} (f : α → SyntaxNode) (xs : List α) (x : α),
      ((xs.concat x).map f).Sublist (xs.map f ++ [f x]) := by
    intro α f xs x
    rw [List.concat_eq_append, List.map_append]
    exact List.Sublist.refl _
  cases p
  -- the members of a transaction can come in another order than its fields
  case transactionParametersMembers =>
    obtain ⟨_, ps, _, ms, _, _⟩ := vs
    refine .inr ⟨_, rfl, rfl, (TransactionDeclaration.madeOf_ofMembers ps ms _).mono ?_, nofun,
      nofun, nofun⟩
    exact ps.nodes_sublist.append (hlist _ ms)
  case transactionParameters =>
    obtain ⟨_, ps, _, _, _⟩ := vs
    refine .inr ⟨_, rfl, rfl, (TransactionDeclaration.madeOf_ofMembers ps [] _).mono ?_, nofun,
      nofun, nofun⟩
    exact ps.nodes_sublist.append (List.Sublist.refl _)
  case transactionMembers =>
    obtain ⟨_, _, ms, _, _⟩ := vs
    exact .inr ⟨_, rfl, rfl, (TransactionDeclaration.madeOf_ofMembers {} ms _).mono (hlist _ ms),
      nofun, nofun, nofun⟩
  case transactionBare =>
    exact .inr ⟨_, rfl, rfl, TransactionDeclaration.madeOf_ofMembers {} [] _, nofun, nofun, nofun⟩
  -- names that are no nodes of their own
  case pragma =>
    exact .inr ⟨_, rfl, rfl, SyntaxNode.madeOf_of_sublist (List.nil_sublist _), nofun, nofun, nofun⟩
  case parameterLabeled =>
    exact .inr ⟨_, rfl, rfl, SyntaxNode.madeOf_of_sublist (List.sublist_cons_self _ _), nofun,
      nofun, nofun⟩
  -- lists
  case programSome => exact .inl (hlist _ _)
  case importNamesMany => exact .inl ((hlist _ _).cons_cons _)
  case conformancesMany => exact .inl ((hlist _ _).cons_cons _)
  case authorizedMany => exact .inl ((hlist _ _).cons_cons _)
  case declarationsFirst => exact .inl (hlist _ _)
  case declarationsNext =>
    obtain ⟨ds, d, _⟩ := vs
    have hmap : (List.append ds (Option.toList d)).map SyntaxNode.declaration =
        ds.map .declaration ++ (Option.toList d).map .declaration := List.map_append
    left
    show ((List.append ds (Option.toList d)).map SyntaxNode.declaration).Sublist _
    rw [hmap]
    exact (List.Sublist.refl _).append (hlist _ _)
  case importNameNext => exact .inl (hconcat _ _ _)
  case memberNext => exact .inl (hconcat _ _ _)
  case nominalNext => exact .inl (hconcat _ _ _)
  case parameterNext => exact .inl (hconcat _ _ _)
  case annotationNext => exact .inl (hconcat _ _ _)
  case namePartNext => exact .inl (hconcat _ _ _)
  case authorizedCommaNext => exact .inl (hconcat _ _ _)
  case authorizedBarNext => exact .inl (hconcat _ _ _)
  -- bodies
  case blockItems =>
    refine .inr ⟨_, rfl, rfl, SyntaxNode.madeOf_of_sublist (List.nil_sublist _), nofun, nofun, ?_⟩
    rintro b ⟨⟩
    exact ⟨rfl, rfl⟩
  case blockEmpty =>
    refine .inr ⟨_, rfl, rfl, SyntaxNode.madeOf_of_sublist (List.nil_sublist _), nofun, nofun, ?_⟩
    rintro b ⟨⟩
    exact ⟨rfl, rfl⟩
  all_goals first
    | exact .inl (List.nil_sublist _)
    | exact .inl (List.Sublist.refl _)
    | exact .inr ⟨_, rfl, rfl, SyntaxNode.madeOf_of_sublist (List.Sublist.refl _), nofun, nofun,
        nofun⟩

end Grammar

end CadenceEntry
