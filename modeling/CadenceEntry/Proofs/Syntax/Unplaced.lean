import CadenceEntry.Syntax.Meaning

/-!
# Values without places

Two derivations with the same words at different places mean the same but for the places in their
values and for the source of bodies, which shows how the words of a body are laid out. `unplaced`
leaves both out. It commutes with the meaning of every production, so a value without places is
computed from a derivation without places: `Derivation.unplaced_value`.
-/

set_option autoImplicit false

namespace CadenceEntry

/-- A word without its place. -/
def Lexeme.unplaced (w : Lexeme) : Lexeme := ⟨w.text, {}⟩

/-- A name without its place. -/
def Identifier.unplaced (n : Identifier) : Identifier := ⟨n.text, {}⟩

/-- A type name without its place. -/
def NominalType.unplaced (t : NominalType) : NominalType :=
  ⟨t.head.unplaced, t.nested.map Identifier.unplaced, {}⟩

mutual

/-- A type without its places. -/
def TypeExpr.unplaced : TypeExpr → TypeExpr
  | .nominal n => .nominal n.unplaced
  | .optional t _ => .optional t.unplaced {}
  | .variableSized t _ => .variableSized t.unplaced {}
  | .constantSized t size literal _ => .constantSized t.unplaced size literal {}
  | .dictionary k v _ => .dictionary k.unplaced v.unplaced {}
  | .instantiation t args _ => .instantiation t.unplaced (AnnotatedType.unplacedAll args) {}
  | .reference authorized es t _ =>
    .reference authorized (es.map NominalType.unplaced) t.unplaced {}
  | .intersection ts _ => .intersection (ts.map NominalType.unplaced) {}
  | .restricted t ts _ => .restricted t.unplaced (ts.map NominalType.unplaced) {}
  | .function ps none _ => .function (AnnotatedType.unplacedAll ps) none {}
  | .function ps (some r) _ => .function (AnnotatedType.unplacedAll ps) (some r.unplaced) {}

/-- A type with its resource marker without its places. -/
def AnnotatedType.unplaced : AnnotatedType → AnnotatedType
  | .mk r t _ => .mk r t.unplaced {}

/-- A list of types without their places. -/
def AnnotatedType.unplacedAll : List AnnotatedType → List AnnotatedType
  | [] => []
  | a :: as => a.unplaced :: AnnotatedType.unplacedAll as

end

/-- The types of a list lose their places one by one. -/
@[simp] theorem AnnotatedType.unplacedAll_eq_map (as : List AnnotatedType) :
    AnnotatedType.unplacedAll as = as.map AnnotatedType.unplaced := by
  induction as with
  | nil => rw [unplacedAll, List.map_nil]
  | cons a as ih => rw [unplacedAll, List.map_cons, ih]

/-- A parameter without its places. -/
def Parameter.unplaced (p : Parameter) : Parameter :=
  ⟨p.label, p.name.unplaced, p.type.unplaced, {}⟩

/-- A list of parameters without its places. -/
def ParameterList.unplaced (ps : ParameterList) : ParameterList :=
  ⟨ps.parameters.map Parameter.unplaced, {}⟩

/-- A body without its place and its source. -/
def Block.unplaced (_ : Block) : Block := {}

/-- An import without its places. -/
def ImportDeclaration.unplaced (d : ImportDeclaration) : ImportDeclaration :=
  ⟨d.names.map Identifier.unplaced, d.location, {}⟩

/-- A pragma without its place. -/
def PragmaDeclaration.unplaced (d : PragmaDeclaration) : PragmaDeclaration := ⟨d.name, {}⟩

/-- A field without its places. -/
def FieldDeclaration.unplaced (d : FieldDeclaration) : FieldDeclaration :=
  ⟨d.access, d.kind, d.name.unplaced, d.type.unplaced, {}⟩

/-- A phase without its places. -/
def PhaseDeclaration.unplaced (d : PhaseDeclaration) : PhaseDeclaration :=
  ⟨d.phase, d.parameters.map ParameterList.unplaced, d.body.unplaced, {}⟩

/-- A member of a transaction without its places. -/
def TransactionMember.unplaced : TransactionMember → TransactionMember
  | .field d => .field d.unplaced
  | .phase d => .phase d.unplaced

/-- A transaction without its places. -/
def TransactionDeclaration.unplaced (d : TransactionDeclaration) : TransactionDeclaration :=
  { parameters := d.parameters.unplaced
    fields := d.fields.map FieldDeclaration.unplaced
    prepare := d.prepare.map PhaseDeclaration.unplaced
    pre := d.pre.map PhaseDeclaration.unplaced
    execute := d.execute.map PhaseDeclaration.unplaced
    post := d.post.map PhaseDeclaration.unplaced }

/-- A function without its places. -/
def FunctionDeclaration.unplaced (d : FunctionDeclaration) : FunctionDeclaration :=
  ⟨d.access, d.isView, d.name.unplaced, d.parameters.unplaced,
    d.result.map AnnotatedType.unplaced, d.body.map Block.unplaced, {}⟩

/-- A composite without its places. -/
def CompositeDeclaration.unplaced (d : CompositeDeclaration) : CompositeDeclaration :=
  ⟨d.access, d.kind, d.isInterface, d.name.unplaced, d.conformances.map NominalType.unplaced,
    d.body.unplaced, {}⟩

/-- An event without its places. -/
def EventDeclaration.unplaced (d : EventDeclaration) : EventDeclaration :=
  ⟨d.access, d.name.unplaced, d.parameters.unplaced, {}⟩

/-- An entitlement without its places. -/
def EntitlementDeclaration.unplaced (d : EntitlementDeclaration) : EntitlementDeclaration :=
  ⟨d.access, d.name.unplaced, {}⟩

/-- A declaration without its places. -/
def Declaration.unplaced : Declaration → Declaration
  | .imports d => .imports d.unplaced
  | .pragma d => .pragma d.unplaced
  | .transaction d => .transaction d.unplaced
  | .function d => .function d.unplaced
  | .composite d => .composite d.unplaced
  | .event d => .event d.unplaced
  | .entitlement d => .entitlement d.unplaced

/-- A program without its places. -/
def Program.unplaced (p : Program) : Program := ⟨p.declarations.map Declaration.unplaced⟩

/-- Leaving out places keeps the fields of a transaction in order. -/
theorem TransactionMember.fields_map_unplaced (ms : List TransactionMember) :
    fields (ms.map unplaced) = (fields ms).map FieldDeclaration.unplaced := by
  induction ms with
  | nil => rfl
  | cons m ms ih =>
    cases m <;> simp_all [fields, unplaced]

/-- Leaving out places keeps which of the phases of a transaction is the last. -/
theorem TransactionMember.lastPhase?_map_unplaced (p : Phase) (ms : List TransactionMember) :
    lastPhase? p (ms.map unplaced) = (lastPhase? p ms).map PhaseDeclaration.unplaced := by
  unfold lastPhase?
  rw [List.filterMap_map, ← List.getLast?_map, List.map_filterMap]
  congr 2
  funext m
  cases m with
  | field d => rfl
  | phase d =>
    simp only [Function.comp, unplaced, PhaseDeclaration.unplaced]
    split <;> rfl

/-- A transaction loses its places with its members. -/
theorem TransactionDeclaration.unplaced_ofMembers (ps : ParameterList)
    (ms : List TransactionMember) (s : Span) :
    (ofMembers ps ms s).unplaced = ofMembers ps.unplaced (ms.map TransactionMember.unplaced)
    {} := by
  simp only [ofMembers, unplaced, TransactionMember.fields_map_unplaced,
    TransactionMember.lastPhase?_map_unplaced]

namespace Grammar

/-- The value of a phrase without places. -/
def Nonterminal.unplaced : (n : Nonterminal) → n.Value → n.Value
  | .program => Program.unplaced
  | .typeText | .annotatedType | .annotatedResult => AnnotatedType.unplaced
  | .declarations => List.map Declaration.unplaced
  | .declaration => Option.map Declaration.unplaced
  | .importDeclaration => ImportDeclaration.unplaced
  | .importNames | .moreImportNames | .moreNameParts => List.map Identifier.unplaced
  | .importLocation => id
  | .pragmaDeclaration => PragmaDeclaration.unplaced
  | .transactionDeclaration => TransactionDeclaration.unplaced
  | .transactionMembers => List.map TransactionMember.unplaced
  | .transactionMember => TransactionMember.unplaced
  | .fieldDeclaration => FieldDeclaration.unplaced
  | .variableKind => id
  | .prepareBlock | .preBlock | .executeBlock | .postBlock => PhaseDeclaration.unplaced
  | .functionDeclaration => FunctionDeclaration.unplaced
  | .compositeDeclaration => CompositeDeclaration.unplaced
  | .compositeKind => id
  | .conformances | .moreNominals | .authorization | .moreAuthorized =>
    List.map NominalType.unplaced
  | .eventDeclaration => EventDeclaration.unplaced
  | .entitlementDeclaration => EntitlementDeclaration.unplaced
  | .accessModifier => id
  | .moreAccessNames => id
  | .parameterList => ParameterList.unplaced
  | .moreParameters => List.map Parameter.unplaced
  | .parameter => Parameter.unplaced
  | .block => Block.unplaced
  | .nestedBlock | .blockItems | .blockItem => id
  | .moreAnnotatedTypes => List.map AnnotatedType.unplaced
  | .type | .postfixType | .primaryType | .resultType | .resultPostfix | .resultPrimary
  | .instantiationType | .referenceType | .functionType => TypeExpr.unplaced
  | .nominalType => NominalType.unplaced

/-- The value of a symbol without places. -/
def Symbol.unplaced : (s : Symbol) → s.Value → s.Value
  | .token _ => Lexeme.unplaced
  | .phrase n => n.unplaced

/-- The values of a list of symbols without places. -/
def Symbol.unplacedAll : (ss : List Symbol) → Symbol.Values ss → Symbol.Values ss
  | [], _ => ()
  | s :: ss, (v, vs) => (s.unplaced v, Symbol.unplacedAll ss vs)

mutual

/-- A derivation without the places of its words. -/
def Derivation.unplaced {s : Symbol} : Derivation s → Derivation s
  | .leaf t w => .leaf t w.unplaced
  | .node p ds => .node p ds.unplaced

/-- A list of derivations without the places of their words. -/
def Derivations.unplaced {ss : List Symbol} : Derivations ss → Derivations ss
  | .nil => .nil
  | .cons d ds => .cons d.unplaced ds.unplaced

end

mutual

/-- Leaving out places keeps the words. -/
theorem Derivation.words_unplaced {s : Symbol} (d : Derivation s) :
    d.unplaced.words = d.words.map fun x => (x.1, x.2.unplaced) :=
  match d with
  | .leaf t w => rfl
  | .node p ds => ds.words_unplaced

/-- Leaving out places keeps the words. -/
theorem Derivations.words_unplaced {ss : List Symbol} (ds : Derivations ss) :
    ds.unplaced.words = ds.words.map fun x => (x.1, x.2.unplaced) :=
  match ds with
  | .nil => rfl
  | .cons d ds => by
    rw [Derivations.unplaced, Derivations.words, Derivations.words, List.map_append,
      d.words_unplaced, ds.words_unplaced]

end

/-- Places have no part in what a production means. -/
theorem Production.unplaced_meaning (p : Production) (source : List Char) (s : Unit → Span)
    (vs : Symbol.Values p.rhs) :
    p.lhs.unplaced (p.meaning source s vs) =
      p.meaning [] (fun _ => {}) (Symbol.unplacedAll p.rhs vs) := by
  cases p
  case transactionParametersMembers =>
    obtain ⟨_, ps, _, ms, _, _⟩ := vs
    exact TransactionDeclaration.unplaced_ofMembers ps ms (s ())
  case transactionMembers =>
    obtain ⟨_, _, ms, _, _⟩ := vs
    exact TransactionDeclaration.unplaced_ofMembers {} ms (s ())
  case functionTypeMany =>
    obtain ⟨_, _, a, as, _, _, r, _⟩ := vs
    exact congrArg (fun as => TypeExpr.function (a.unplaced :: as) (some r.unplaced) {})
      (AnnotatedType.unplacedAll_eq_map as)
  case resultFunctionMany =>
    obtain ⟨_, _, a, as, _, _, r, _⟩ := vs
    exact congrArg (fun as => TypeExpr.function (a.unplaced :: as) (some r.unplaced) {})
      (AnnotatedType.unplacedAll_eq_map as)
  case instantiationMany =>
    obtain ⟨t, _, a, as, _, _⟩ := vs
    exact congrArg (fun as => TypeExpr.instantiation (.nominal t.unplaced) (a.unplaced :: as) {})
      (AnnotatedType.unplacedAll_eq_map as)
  case declarationsFirst =>
    obtain ⟨d, _⟩ := vs
    cases d <;> rfl
  case declarationsNext =>
    obtain ⟨ds, d, _⟩ := vs
    cases d <;> exact List.map_append
  case importNameNext => exact List.map_concat
  case memberNext => exact List.map_concat
  case nominalNext => exact List.map_concat
  case parameterNext => exact List.map_concat
  case annotationNext => exact List.map_concat
  case namePartNext => exact List.map_concat
  case authorizedCommaNext => exact List.map_concat
  case authorizedBarNext => exact List.map_concat
  all_goals rfl

mutual

/-- What a derivation means, computed without places. -/
def Derivation.plainValue {s : Symbol} : Derivation s → s.Value
  | .leaf _ w => w.unplaced
  | .node p ds => p.meaning [] (fun _ => {}) ds.plainValues

/-- What a list of derivations means, computed without places. -/
def Derivations.plainValues {ss : List Symbol} : Derivations ss → Symbol.Values ss
  | .nil => ()
  | .cons d ds => (d.plainValue, ds.plainValues)

end

mutual

/-- The places of its words have no part in the plain value of a derivation. -/
theorem Derivation.plainValue_unplaced {s : Symbol} (d : Derivation s) :
    d.unplaced.plainValue = d.plainValue :=
  match d with
  | .leaf t w => rfl
  | .node p ds => by
    rw [Derivation.unplaced, Derivation.plainValue, Derivation.plainValue, ds.plainValues_unplaced]

/-- The places of their words have no part in the plain values of derivations. -/
theorem Derivations.plainValues_unplaced {ss : List Symbol} (ds : Derivations ss) :
    ds.unplaced.plainValues = ds.plainValues :=
  match ds with
  | .nil => rfl
  | .cons d ds => by
    rw [Derivations.unplaced, Derivations.plainValues, Derivations.plainValues,
      d.plainValue_unplaced, ds.plainValues_unplaced]

end

mutual

/-- The value of a derivation without places is computed without places. -/
theorem Derivation.unplaced_value {s : Symbol} (d : Derivation s) (source : List Char) :
    s.unplaced (d.value source) = d.plainValue :=
  match d with
  | .leaf t w => rfl
  | .node p ds => by
    rw [Derivation.value, Derivation.plainValue, ← ds.unplaced_values source]
    exact p.unplaced_meaning source _ _

/-- The values of a list of derivations without places are computed without places. -/
theorem Derivations.unplaced_values {ss : List Symbol} (ds : Derivations ss)
    (source : List Char) : Symbol.unplacedAll ss (ds.values source) = ds.plainValues :=
  match ds with
  | .nil => rfl
  | .cons d ds => by
    rw [Derivations.values, Derivations.plainValues, Symbol.unplacedAll, d.unplaced_value source,
      ds.unplaced_values source]

end

/-- Derivations that differ in the places of their words only mean the same but for places. -/
theorem Derivation.unplaced_value_eq {s : Symbol} {d d' : Derivation s}
    (h : d'.unplaced = d.unplaced) (source source' : List Char) :
    s.unplaced (d'.value source') = s.unplaced (d.value source) := by
  rw [d'.unplaced_value, d.unplaced_value, ← d'.plainValue_unplaced, h, d.plainValue_unplaced]

end Grammar

end CadenceEntry
