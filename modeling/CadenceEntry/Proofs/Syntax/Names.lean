import CadenceEntry.Proofs.Nodes.Tree
import Mathlib.Data.List.Flatten

/-!
# The names in a syntax tree

Every name in a syntax tree was read from a word of the text, and no word is taken twice: the names
of what a production makes are among the names of its parts, `Production.allNames_meaning`. They
need not come in the same order, because a transaction keeps its phases apart from its fields, nor
do all of them come through, because a phase that is repeated is lost.
-/

set_option autoImplicit false

namespace CadenceEntry

open Grammar

/-- The names in a type name. -/
def NominalType.allNames (t : NominalType) : List String :=
  t.head.text :: t.nested.map Identifier.text

mutual

/-- The names in a type. -/
def TypeExpr.allNames : TypeExpr → List String
  | .nominal n => n.allNames
  | .optional t _ => t.allNames
  | .variableSized t _ => t.allNames
  | .constantSized t _ _ _ => t.allNames
  | .dictionary k v _ => [k.allNames, v.allNames].flatten
  | .instantiation t args _ => t.allNames ++ AnnotatedType.listNames args
  | .reference _ es t _ => [es.flatMap NominalType.allNames, t.allNames].flatten
  | .intersection ts _ => ts.flatMap NominalType.allNames
  | .restricted t ts _ => t.allNames ++ ts.flatMap NominalType.allNames
  | .function ps none _ => AnnotatedType.listNames ps
  | .function ps (some r) _ => [AnnotatedType.listNames ps, r.allNames].flatten

/-- The names in a type with its resource marker. -/
def AnnotatedType.allNames : AnnotatedType → List String
  | .mk _ t _ => t.allNames

/-- The names in a list of types. -/
def AnnotatedType.listNames : List AnnotatedType → List String
  | [] => []
  | a :: as => a.allNames ++ AnnotatedType.listNames as

end

/-- The names in a list of types, type by type. -/
theorem AnnotatedType.listNames_eq_flatMap (as : List AnnotatedType) :
    AnnotatedType.listNames as = as.flatMap AnnotatedType.allNames := by
  induction as with
  | nil => rw [listNames, List.flatMap_nil]
  | cons a as ih => rw [listNames, List.flatMap_cons, ih]

/-- The names of a parameter. An empty label is none. -/
def Parameter.allNames (p : Parameter) : List String :=
  [if p.label = "" then [] else [p.label], [p.name.text], p.type.allNames].flatten

/-- The names in a list of parameters. -/
def ParameterList.allNames (ps : ParameterList) : List String :=
  ps.parameters.flatMap Parameter.allNames

/-- The names in an access modifier. -/
def Access.allNames : Access → List String
  | pub => []
  | priv => []
  | pubSet => []
  | names first rest => first :: rest.map Prod.snd

/-- The names of an access modifier that may be left out. -/
def Access.optionalNames : Option Access → List String
  | none => []
  | some a => a.allNames

/-- The name in the location of an import, if it is one. -/
def ImportLocation.allNames : ImportLocation → List String
  | address _ => []
  | string _ => []
  | identifier s => [s]

/-- The names in a field. -/
def FieldDeclaration.allNames (d : FieldDeclaration) : List String :=
  [Access.optionalNames d.access, [d.name.text], d.type.allNames].flatten

/-- The names in a phase, outside its body. -/
def PhaseDeclaration.allNames (d : PhaseDeclaration) : List String :=
  d.parameters.elim [] ParameterList.allNames

/-- The names in a member of a transaction. -/
def TransactionMember.allNames : TransactionMember → List String
  | field d => d.allNames
  | phase d => d.allNames

/-- The names in a transaction, outside its bodies. -/
def TransactionDeclaration.allNames (d : TransactionDeclaration) : List String :=
  d.parameters.allNames ++ (d.fields.flatMap FieldDeclaration.allNames ++
    [d.prepare, d.pre, d.execute, d.post].flatMap fun p =>
      p.toList.flatMap PhaseDeclaration.allNames)

/-- The names in a declaration, outside its bodies. -/
def Declaration.allNames : Declaration → List String
  | imports d => [d.names.map Identifier.text, d.location.allNames].flatten
  | pragma d => [d.name]
  | transaction d => d.allNames
  | function d =>
    [Access.optionalNames d.access, [d.name.text], d.parameters.allNames,
      d.result.elim [] AnnotatedType.allNames].flatten
  | composite d =>
    [Access.optionalNames d.access, [d.name.text],
      d.conformances.flatMap NominalType.allNames].flatten
  | event d => [Access.optionalNames d.access, [d.name.text], d.parameters.allNames].flatten
  | entitlement d => [Access.optionalNames d.access, [d.name.text]].flatten

/-- The names in a program: its identifiers, and the names in labels, pragmas, access modifiers and
locations of imports. -/
def Program.allNames (p : Program) : List String := p.declarations.flatMap Declaration.allNames

/-- The names in the node of a member of a transaction. -/
def SyntaxNode.memberNames : SyntaxNode → List String
  | field d => d.allNames
  | phase d => d.allNames
  | _ => []

/-- A transaction has no names but those of its parameters and its members. -/
theorem TransactionDeclaration.allNames_ofMembers (ps : ParameterList)
    (ms : List TransactionMember) (span : Span) :
    (ofMembers ps ms span).allNames.Subperm
      (ps.allNames ++ ms.flatMap TransactionMember.allNames) := by
  obtain ⟨ns, hperm, hsublist⟩ := TransactionMember.nodes_subperm ms
  have hmembers : (ms.map TransactionMember.node).flatMap SyntaxNode.memberNames =
      ms.flatMap TransactionMember.allNames := by
    rw [List.flatMap_map]
    refine List.flatMap_congr fun m _ => ?_
    cases m <;> rfl
  have hnames : (ofMembers ps ms span).allNames = ps.allNames ++
      ((TransactionMember.fields ms).map SyntaxNode.field ++
        [Phase.prepare, .pre, .execute, .post].flatMap fun p =>
          (TransactionMember.lastPhase? p ms).toList.map SyntaxNode.phase).flatMap
        SyntaxNode.memberNames := by
    simp only [allNames, ofMembers, List.flatMap_append, List.flatMap_cons, List.flatMap_nil,
      List.append_nil, List.flatMap_map]
    rfl
  rw [hnames, ← hmembers]
  refine (List.Subperm.refl _).append ?_
  exact (hperm.flatMap_right SyntaxNode.memberNames).symm.subperm.trans
    (hsublist.flatMap SyntaxNode.memberNames).subperm

namespace Grammar

/-- The names in the value of a phrase. -/
def Nonterminal.allNames : (n : Nonterminal) → n.Value → List String
  | .program => Program.allNames
  | .typeText | .annotatedType | .annotatedResult => AnnotatedType.allNames
  | .declarations => List.flatMap Declaration.allNames
  | .declaration => fun d => (Option.toList d).flatMap Declaration.allNames
  | .importDeclaration => fun d => (Declaration.imports d).allNames
  | .importNames | .moreImportNames | .moreNameParts => List.map Identifier.text
  | .importLocation => ImportLocation.allNames
  | .pragmaDeclaration => fun d => (Declaration.pragma d).allNames
  | .transactionDeclaration => TransactionDeclaration.allNames
  | .transactionMembers => List.flatMap TransactionMember.allNames
  | .transactionMember => TransactionMember.allNames
  | .fieldDeclaration => FieldDeclaration.allNames
  | .prepareBlock | .preBlock | .executeBlock | .postBlock => PhaseDeclaration.allNames
  | .functionDeclaration => fun d => (Declaration.function d).allNames
  | .compositeDeclaration => fun d => (Declaration.composite d).allNames
  | .conformances | .moreNominals | .authorization | .moreAuthorized =>
    List.flatMap NominalType.allNames
  | .eventDeclaration => fun d => (Declaration.event d).allNames
  | .entitlementDeclaration => fun d => (Declaration.entitlement d).allNames
  | .accessModifier => Access.allNames
  | .moreAccessNames => List.map Prod.snd
  | .parameterList => ParameterList.allNames
  | .moreParameters => List.flatMap Parameter.allNames
  | .parameter => Parameter.allNames
  | .variableKind | .compositeKind | .block | .nestedBlock | .blockItems | .blockItem => fun _ => []
  | .moreAnnotatedTypes => List.flatMap AnnotatedType.allNames
  | .type | .postfixType | .primaryType | .resultType | .resultPostfix | .resultPrimary
  | .instantiationType | .referenceType | .functionType => TypeExpr.allNames
  | .nominalType => NominalType.allNames

/-- The names in the value of a symbol. -/
def Symbol.allNames : (s : Symbol) → s.Value → List String
  | .token .name => fun w => [Lexeme.spelling w]
  | .token _ => fun _ => []
  | .phrase n => n.allNames

/-- The names in the values of a list of symbols. -/
def Symbol.listNames : (ss : List Symbol) → Symbol.Values ss → List String
  | [], _ => []
  | s :: ss, (v, vs) => s.allNames v ++ Symbol.listNames ss vs

/-- The names of what a production makes are among the names of its parts. -/
theorem Production.allNames_meaning (p : Production) (source : List Char) (s : Unit → Span)
    (vs : Symbol.Values p.rhs) :
    (p.lhs.allNames (p.meaning source s vs)).Subperm (Symbol.listNames p.rhs vs) := by
  have hcons : ∀ {α : Type} (f : α → List String) (x : α) (xs : List α),
      ((x :: xs).flatMap f).Subperm (f x ++ (xs.flatMap f ++ [])) := by
    intro α f x xs
    rw [List.append_nil, List.flatMap_cons]
  have hconcat : ∀ {α : Type} (f : α → List String) (xs : List α) (x : α),
      ((xs.concat x).flatMap f).Subperm (xs.flatMap f ++ (f x ++ [])) := by
    intro α f xs x
    rw [List.concat_eq_append, List.flatMap_append, List.flatMap_singleton, List.append_nil]
  have hmap : ∀ {α : Type} (f : α → String) (xs : List α) (x : α),
      ((xs.concat x).map f).Subperm (xs.map f ++ [f x]) := by
    intro α f xs x
    rw [List.concat_eq_append, List.map_append, List.map_singleton]
  have htypes : ∀ (a : AnnotatedType) (as : List AnnotatedType) (ns : List String),
      (AnnotatedType.listNames (a :: as) ++ ns).Subperm
        (a.allNames ++ (as.flatMap AnnotatedType.allNames ++ ns)) := by
    intro a as ns
    rw [AnnotatedType.listNames_eq_flatMap, List.flatMap_cons, List.append_assoc]
  cases p
  -- the members of a transaction can come in another order than its fields
  case transactionParametersMembers =>
    obtain ⟨_, ps, _, ms, _, _⟩ := vs
    refine (TransactionDeclaration.allNames_ofMembers ps ms (s ())).trans ?_
    exact (List.Subperm.refl ps.allNames).append (List.sublist_append_left _ _).subperm
  case transactionParameters =>
    obtain ⟨_, ps, _⟩ := vs
    exact TransactionDeclaration.allNames_ofMembers ps [] (s ())
  case transactionMembers =>
    obtain ⟨_, _, ms, _, _⟩ := vs
    refine (TransactionDeclaration.allNames_ofMembers {} ms (s ())).trans ?_
    exact (List.sublist_append_left _ _).subperm
  case transactionBare => exact TransactionDeclaration.allNames_ofMembers {} [] (s ())
  case parameterLabeled =>
    obtain ⟨l, n, _, t, _⟩ := vs
    refine List.Subperm.append (List.Sublist.subperm ?_) (List.Subperm.refl _)
    show (if Lexeme.spelling l = "" then [] else [Lexeme.spelling l]).Sublist _
    split
    · exact List.nil_sublist _
    · exact List.Sublist.refl _
  -- lists
  case conformancesMany | authorizedMany | parametersMany | primaryIntersectionMany
      | resultIntersectionMany => exact hcons _ _ _
  case restrictedMany => exact (List.Subperm.refl _).append (hcons _ _ _)
  case instantiationMany =>
    obtain ⟨t, _, a, as, _, _⟩ := vs
    refine (List.Subperm.refl t.allNames).append ?_
    show (AnnotatedType.listNames (a :: as)).Subperm
      (a.allNames ++ (as.flatMap AnnotatedType.allNames ++ []))
    have h := htypes a as []
    rwa [List.append_nil] at h
  case functionTypeMany | resultFunctionMany => exact htypes _ _ _
  case functionTypeOne | resultFunctionOne => exact htypes _ [] _
  case declarationsNext =>
    obtain ⟨ds, d, _⟩ := vs
    have happend : ∀ (ds : List Declaration) (d : Option Declaration),
        ((ds ++ d.toList).flatMap Declaration.allNames).Subperm
          (ds.flatMap Declaration.allNames ++ (d.toList.flatMap Declaration.allNames ++ [])) := by
      intro ds d
      rw [List.flatMap_append, List.append_nil]
    exact happend ds d
  case importNameNext | namePartNext | accessCommaNext | accessBarNext => exact hmap _ _ _
  case memberNext | nominalNext | parameterNext | annotationNext | authorizedCommaNext
      | authorizedBarNext => exact hconcat _ _ _
  all_goals first
    | exact List.nil_subperm
    | exact List.Subperm.refl _
    | exact (List.sublist_append_left _ _).subperm

end Grammar

end CadenceEntry
