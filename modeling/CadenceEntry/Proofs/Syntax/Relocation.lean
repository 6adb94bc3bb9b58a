import CadenceEntry.Proofs.Syntax.Unplaced

/-!
# Syntax trees at other places

A relocation says where each place of a syntax tree goes and what the source of each body becomes;
everything else in the tree stays as it is. Relocating commutes with the meaning of every
production, `Production.relocated_meaning`, so a tree is relocated by moving the words it was read
from.
-/

set_option autoImplicit false

namespace CadenceEntry

/-- Where places go, and what the sources of bodies become. What nothing was written for has no
place afterwards either. -/
structure Relocation where
  place : Position → Position
  source : Block → String
  place_zero : place {} = {}

section

variable (m : Relocation)

/-- A span at its new place. -/
def Span.relocated (s : Span) : Span := ⟨m.place s.start, m.place s.stop⟩

/-- The span of what nothing was written for stays the same. -/
@[simp] theorem Span.relocated_empty : Span.relocated m {} = {} := by
  rw [Span.relocated, m.place_zero]

/-- A word at its new place. -/
def Lexeme.relocated (w : Lexeme) : Lexeme := ⟨w.text, m.place w.start⟩

/-- A name at its new place. -/
def Identifier.relocated (n : Identifier) : Identifier := ⟨n.text, m.place n.place⟩

/-- A type name at its new place. -/
def NominalType.relocated (t : NominalType) : NominalType :=
  ⟨t.head.relocated m, t.nested.map (Identifier.relocated m), t.span.relocated m⟩

mutual

/-- A type at its new place. -/
def TypeExpr.relocated : TypeExpr → TypeExpr
  | .nominal n => .nominal (n.relocated m)
  | .optional t s => .optional t.relocated (s.relocated m)
  | .variableSized t s => .variableSized t.relocated (s.relocated m)
  | .constantSized t size literal s => .constantSized t.relocated size literal (s.relocated m)
  | .dictionary k v s => .dictionary k.relocated v.relocated (s.relocated m)
  | .instantiation t args s =>
    .instantiation t.relocated (AnnotatedType.relocatedAll args) (s.relocated m)
  | .reference authorized es t s =>
    .reference authorized (es.map (NominalType.relocated m)) t.relocated (s.relocated m)
  | .intersection ts s => .intersection (ts.map (NominalType.relocated m)) (s.relocated m)
  | .restricted t ts s =>
    .restricted (t.relocated m) (ts.map (NominalType.relocated m)) (s.relocated m)
  | .function ps none s => .function (AnnotatedType.relocatedAll ps) none (s.relocated m)
  | .function ps (some r) s =>
    .function (AnnotatedType.relocatedAll ps) (some r.relocated) (s.relocated m)

/-- A type with its resource marker at its new place. -/
def AnnotatedType.relocated : AnnotatedType → AnnotatedType
  | .mk r t s => .mk r t.relocated (s.relocated m)

/-- A list of types at their new places. -/
def AnnotatedType.relocatedAll : List AnnotatedType → List AnnotatedType
  | [] => []
  | a :: as => a.relocated :: AnnotatedType.relocatedAll as

end

/-- The types of a list are relocated one by one. -/
@[simp] theorem AnnotatedType.relocatedAll_eq_map (as : List AnnotatedType) :
    AnnotatedType.relocatedAll m as = as.map (AnnotatedType.relocated m) := by
  induction as with
  | nil => rw [relocatedAll, List.map_nil]
  | cons a as ih => rw [relocatedAll, List.map_cons, ih]

/-- A parameter at its new place. -/
def Parameter.relocated (p : Parameter) : Parameter :=
  ⟨p.label, p.name.relocated m, p.type.relocated m, p.span.relocated m⟩

/-- A list of parameters at its new place. -/
def ParameterList.relocated (ps : ParameterList) : ParameterList :=
  ⟨ps.parameters.map (Parameter.relocated m), ps.span.relocated m⟩

/-- A body at its new place, with its new source. -/
def Block.relocated (b : Block) : Block := ⟨m.source b, b.span.relocated m⟩

/-- An import at its new place. -/
def ImportDeclaration.relocated (d : ImportDeclaration) : ImportDeclaration :=
  ⟨d.names.map (Identifier.relocated m), d.location, d.span.relocated m⟩

/-- A pragma at its new place. -/
def PragmaDeclaration.relocated (d : PragmaDeclaration) : PragmaDeclaration :=
  ⟨d.name, d.span.relocated m⟩

/-- A field at its new place. -/
def FieldDeclaration.relocated (d : FieldDeclaration) : FieldDeclaration :=
  ⟨d.access, d.kind, d.name.relocated m, d.type.relocated m, d.span.relocated m⟩

/-- A phase at its new place. -/
def PhaseDeclaration.relocated (d : PhaseDeclaration) : PhaseDeclaration :=
  ⟨d.phase, d.parameters.map (ParameterList.relocated m), d.body.relocated m, d.span.relocated m⟩

/-- A member of a transaction at its new place. -/
def TransactionMember.relocated : TransactionMember → TransactionMember
  | .field d => .field (d.relocated m)
  | .phase d => .phase (d.relocated m)

/-- A transaction at its new place. -/
def TransactionDeclaration.relocated (d : TransactionDeclaration) : TransactionDeclaration :=
  { parameters := d.parameters.relocated m
    fields := d.fields.map (FieldDeclaration.relocated m)
    prepare := d.prepare.map (PhaseDeclaration.relocated m)
    pre := d.pre.map (PhaseDeclaration.relocated m)
    execute := d.execute.map (PhaseDeclaration.relocated m)
    post := d.post.map (PhaseDeclaration.relocated m)
    span := d.span.relocated m }

/-- A function at its new place. -/
def FunctionDeclaration.relocated (d : FunctionDeclaration) : FunctionDeclaration :=
  ⟨d.access, d.isView, d.name.relocated m, d.parameters.relocated m,
    d.result.map (AnnotatedType.relocated m), d.body.map (Block.relocated m), d.span.relocated m⟩

/-- A composite at its new place. -/
def CompositeDeclaration.relocated (d : CompositeDeclaration) : CompositeDeclaration :=
  ⟨d.access, d.kind, d.isInterface, d.name.relocated m,
    d.conformances.map (NominalType.relocated m), d.body.relocated m, d.span.relocated m⟩

/-- An event at its new place. -/
def EventDeclaration.relocated (d : EventDeclaration) : EventDeclaration :=
  ⟨d.access, d.name.relocated m, d.parameters.relocated m, d.span.relocated m⟩

/-- An entitlement at its new place. -/
def EntitlementDeclaration.relocated (d : EntitlementDeclaration) : EntitlementDeclaration :=
  ⟨d.access, d.name.relocated m, d.span.relocated m⟩

/-- A declaration at its new place. -/
def Declaration.relocated : Declaration → Declaration
  | .imports d => .imports (d.relocated m)
  | .pragma d => .pragma (d.relocated m)
  | .transaction d => .transaction (d.relocated m)
  | .function d => .function (d.relocated m)
  | .composite d => .composite (d.relocated m)
  | .event d => .event (d.relocated m)
  | .entitlement d => .entitlement (d.relocated m)

/-- A program at its new place. -/
def Program.relocated (p : Program) : Program :=
  ⟨p.declarations.map (Declaration.relocated m)⟩

/-- The fields among members at new places are the fields at their new places. -/
theorem TransactionMember.fields_map_relocated (ms : List TransactionMember) :
    fields (ms.map (relocated m)) = (fields ms).map (FieldDeclaration.relocated m) := by
  induction ms with
  | nil => rfl
  | cons x ms ih =>
    cases x <;> simp_all [fields, relocated]

/-- The last of the phases stays the last. -/
theorem TransactionMember.lastPhase?_map_relocated (p : Phase) (ms : List TransactionMember) :
    lastPhase? p (ms.map (relocated m)) =
      (lastPhase? p ms).map (PhaseDeclaration.relocated m) := by
  unfold lastPhase?
  rw [List.filterMap_map, ← List.getLast?_map, List.map_filterMap]
  congr 2
  funext x
  cases x with
  | field d => rfl
  | phase d =>
    simp only [Function.comp, relocated, PhaseDeclaration.relocated]
    split <;> rfl

/-- A transaction of members at new places is the transaction at its new place. -/
theorem TransactionDeclaration.relocated_ofMembers (ps : ParameterList)
    (ms : List TransactionMember) (s : Span) :
    (ofMembers ps ms s).relocated m =
      ofMembers (ps.relocated m) (ms.map (TransactionMember.relocated m)) (s.relocated m) := by
  simp only [ofMembers, relocated, TransactionMember.fields_map_relocated,
    TransactionMember.lastPhase?_map_relocated]

/-- An absent list of parameters stays where it is. -/
theorem ParameterList.relocated_empty : ParameterList.relocated m {} = {} := by
  simp [relocated]

namespace Grammar

/-- The value of a phrase at other places. -/
def Nonterminal.relocated : (n : Nonterminal) → n.Value → n.Value
  | .program => Program.relocated m
  | .typeText | .annotatedType | .annotatedResult => AnnotatedType.relocated m
  | .declarations => List.map (Declaration.relocated m)
  | .declaration => Option.map (Declaration.relocated m)
  | .importDeclaration => ImportDeclaration.relocated m
  | .importNames | .moreImportNames | .moreNameParts => List.map (Identifier.relocated m)
  | .importLocation => id
  | .pragmaDeclaration => PragmaDeclaration.relocated m
  | .transactionDeclaration => TransactionDeclaration.relocated m
  | .transactionMembers => List.map (TransactionMember.relocated m)
  | .transactionMember => TransactionMember.relocated m
  | .fieldDeclaration => FieldDeclaration.relocated m
  | .variableKind => id
  | .prepareBlock | .preBlock | .executeBlock | .postBlock => PhaseDeclaration.relocated m
  | .functionDeclaration => FunctionDeclaration.relocated m
  | .compositeDeclaration => CompositeDeclaration.relocated m
  | .compositeKind => id
  | .conformances | .moreNominals | .authorization | .moreAuthorized =>
    List.map (NominalType.relocated m)
  | .eventDeclaration => EventDeclaration.relocated m
  | .entitlementDeclaration => EntitlementDeclaration.relocated m
  | .accessModifier => id
  | .moreAccessNames => id
  | .parameterList => ParameterList.relocated m
  | .moreParameters => List.map (Parameter.relocated m)
  | .parameter => Parameter.relocated m
  | .block => Block.relocated m
  | .nestedBlock | .blockItems | .blockItem => id
  | .moreAnnotatedTypes => List.map (AnnotatedType.relocated m)
  | .type | .postfixType | .primaryType | .resultType | .resultPostfix | .resultPrimary
  | .instantiationType | .referenceType | .functionType => TypeExpr.relocated m
  | .nominalType => NominalType.relocated m

/-- The value of a symbol at other places. -/
def Symbol.relocated : (s : Symbol) → s.Value → s.Value
  | .token _ => Lexeme.relocated m
  | .phrase n => n.relocated m

/-- The values of a list of symbols at other places. -/
def Symbol.relocatedAll : (ss : List Symbol) → Symbol.Values ss → Symbol.Values ss
  | [], _ => ()
  | s :: ss, (v, vs) => (s.relocated m v, Symbol.relocatedAll ss vs)

/-- What a production means at other places it makes of its parts there. A body is cut out of the
text, so the source there must be the one that the relocation gives it. -/
theorem Production.relocated_meaning (p : Production) {source source' : List Char}
    {s : Unit → Span} (vs : Symbol.Values p.rhs)
    (hblock : p.lhs = .block →
      Block.ofSpan source' ((s ()).relocated m) = (Block.ofSpan source (s ())).relocated m) :
    p.lhs.relocated m (p.meaning source s vs) =
      p.meaning source' (fun _ => (s ()).relocated m) (Symbol.relocatedAll m p.rhs vs) := by
  cases p
  case blockItems => exact (hblock rfl).symm
  case blockEmpty => exact (hblock rfl).symm
  case transactionParametersMembers =>
    obtain ⟨_, ps, _, ms, _, _⟩ := vs
    exact TransactionDeclaration.relocated_ofMembers m ps ms (s ())
  case transactionMembers =>
    obtain ⟨_, _, ms, _, _⟩ := vs
    refine (TransactionDeclaration.relocated_ofMembers m {} ms (s ())).trans ?_
    rw [ParameterList.relocated_empty]
    rfl
  case transactionBare =>
    refine (TransactionDeclaration.relocated_ofMembers m {} [] (s ())).trans ?_
    rw [ParameterList.relocated_empty]
    rfl
  case functionTypeMany =>
    obtain ⟨_, _, a, as, _, _, r, _⟩ := vs
    exact congrArg
      (fun as => TypeExpr.function (a.relocated m :: as) (some (r.relocated m))
        ((s ()).relocated m))
      (AnnotatedType.relocatedAll_eq_map m as)
  case resultFunctionMany =>
    obtain ⟨_, _, a, as, _, _, r, _⟩ := vs
    exact congrArg
      (fun as => TypeExpr.function (a.relocated m :: as) (some (r.relocated m))
        ((s ()).relocated m))
      (AnnotatedType.relocatedAll_eq_map m as)
  case instantiationMany =>
    obtain ⟨t, _, a, as, _, _⟩ := vs
    exact congrArg
      (fun as => TypeExpr.instantiation (.nominal (t.relocated m)) (a.relocated m :: as)
        ((s ()).relocated m))
      (AnnotatedType.relocatedAll_eq_map m as)
  case declarationsFirst =>
    obtain ⟨d, _⟩ := vs
    cases d <;> rfl
  case declarationsNext =>
    obtain ⟨ds, d, _⟩ := vs
    cases d <;> exact List.map_append
  case importNameNext => exact List.map_concat
  case memberNext => exact List.map_concat
  case nominalNext => exact List.map_concat
  case parameterNext => exact List.map_concat
  case annotationNext => exact List.map_concat
  case namePartNext => exact List.map_concat
  case authorizedCommaNext => exact List.map_concat
  case authorizedBarNext => exact List.map_concat
  all_goals rfl

end Grammar

end

end CadenceEntry
