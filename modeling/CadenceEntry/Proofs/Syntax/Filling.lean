import CadenceEntry.Syntax.Meaning

/-!
# Syntax trees with a name left open

In a template the name `hole` stands for a name that is left open. Filling the template with a word
puts the word wherever the tree keeps that name: in identifiers, parameter labels, pragmas, access
modifiers and locations of imports. Filling commutes with the meaning of every production,
`Production.filled_meaning`, so a template is filled by changing the words it was read from.
-/

set_option autoImplicit false

namespace CadenceEntry

/-- The name that is left open in a template. No source text has such a name; with its two
characters it does not stop where it starts. -/
def hole : String := "??"

section

variable (v : String)

/-- The word `v` in the place of the hole. -/
def fillName (n : String) : String := if n = hole then v else n

/-- No word has no hole. -/
theorem fillName_empty : fillName v "" = "" := if_neg (by decide)

/-- A word with the hole filled. -/
def Lexeme.filled (w : Lexeme) : Lexeme := ⟨(fillName v w.spelling).toList, w.start⟩

/-- How a filled word is spelled. -/
theorem Lexeme.spelling_filled (w : Lexeme) : (w.filled v).spelling = fillName v w.spelling :=
  String.ofList_toList

/-- A name with the hole filled. -/
def Identifier.filled (n : Identifier) : Identifier := ⟨fillName v n.text, n.place⟩

/-- The name that a filled word is. -/
theorem Identifier.ofLexeme_filled (w : Lexeme) :
    ofLexeme (w.filled v) = (ofLexeme w).filled v := by
  rw [ofLexeme, Lexeme.spelling_filled]
  rfl

/-- A type name with its holes filled. -/
def NominalType.filled (t : NominalType) : NominalType :=
  ⟨t.head.filled v, t.nested.map (Identifier.filled v), t.span⟩

mutual

/-- A type with its holes filled. -/
def TypeExpr.filled : TypeExpr → TypeExpr
  | .nominal n => .nominal (n.filled v)
  | .optional t s => .optional t.filled s
  | .variableSized t s => .variableSized t.filled s
  | .constantSized t size literal s => .constantSized t.filled size literal s
  | .dictionary k u s => .dictionary k.filled u.filled s
  | .instantiation t args s => .instantiation t.filled (AnnotatedType.filledAll args) s
  | .reference authorized es t s =>
    .reference authorized (es.map (NominalType.filled v)) t.filled s
  | .intersection ts s => .intersection (ts.map (NominalType.filled v)) s
  | .restricted t ts s => .restricted (t.filled v) (ts.map (NominalType.filled v)) s
  | .function ps none s => .function (AnnotatedType.filledAll ps) none s
  | .function ps (some r) s => .function (AnnotatedType.filledAll ps) (some r.filled) s

/-- A type with its resource marker and with its holes filled. -/
def AnnotatedType.filled : AnnotatedType → AnnotatedType
  | .mk r t s => .mk r t.filled s

/-- A list of types with their holes filled. -/
def AnnotatedType.filledAll : List AnnotatedType → List AnnotatedType
  | [] => []
  | a :: as => a.filled :: AnnotatedType.filledAll as

end

/-- The types of a list are filled one by one. -/
@[simp] theorem AnnotatedType.filledAll_eq_map (as : List AnnotatedType) :
    AnnotatedType.filledAll v as = as.map (AnnotatedType.filled v) := by
  induction as with
  | nil => rw [filledAll, List.map_nil]
  | cons a as ih => rw [filledAll, List.map_cons, ih]

/-- A parameter with its holes filled. -/
def Parameter.filled (p : Parameter) : Parameter :=
  ⟨fillName v p.label, p.name.filled v, p.type.filled v, p.span⟩

/-- A list of parameters with its holes filled. -/
def ParameterList.filled (ps : ParameterList) : ParameterList :=
  ⟨ps.parameters.map (Parameter.filled v), ps.span⟩

/-- An access modifier with its holes filled. -/
def Access.filled : Access → Access
  | pub => pub
  | priv => priv
  | pubSet => pubSet
  | names first rest => names (fillName v first) (rest.map (Prod.map id (fillName v)))

/-- The location of an import with its hole filled. -/
def ImportLocation.filled : ImportLocation → ImportLocation
  | address s => address s
  | string s => string s
  | identifier s => identifier (fillName v s)

/-- An import with its holes filled. -/
def ImportDeclaration.filled (d : ImportDeclaration) : ImportDeclaration :=
  ⟨d.names.map (Identifier.filled v), d.location.filled v, d.span⟩

/-- A pragma with its hole filled. -/
def PragmaDeclaration.filled (d : PragmaDeclaration) : PragmaDeclaration :=
  ⟨fillName v d.name, d.span⟩

/-- A field with its holes filled. -/
def FieldDeclaration.filled (d : FieldDeclaration) : FieldDeclaration :=
  ⟨d.access.map (Access.filled v), d.kind, d.name.filled v, d.type.filled v, d.span⟩

/-- A phase with its holes filled; a body has none. -/
def PhaseDeclaration.filled (d : PhaseDeclaration) : PhaseDeclaration :=
  ⟨d.phase, d.parameters.map (ParameterList.filled v), d.body, d.span⟩

/-- A member of a transaction with its holes filled. -/
def TransactionMember.filled : TransactionMember → TransactionMember
  | .field d => .field (d.filled v)
  | .phase d => .phase (d.filled v)

/-- A transaction with its holes filled. -/
def TransactionDeclaration.filled (d : TransactionDeclaration) : TransactionDeclaration :=
  { parameters := d.parameters.filled v
    fields := d.fields.map (FieldDeclaration.filled v)
    prepare := d.prepare.map (PhaseDeclaration.filled v)
    pre := d.pre.map (PhaseDeclaration.filled v)
    execute := d.execute.map (PhaseDeclaration.filled v)
    post := d.post.map (PhaseDeclaration.filled v)
    span := d.span }

/-- A function with its holes filled; its body has none. -/
def FunctionDeclaration.filled (d : FunctionDeclaration) : FunctionDeclaration :=
  ⟨d.access.map (Access.filled v), d.isView, d.name.filled v, d.parameters.filled v,
    d.result.map (AnnotatedType.filled v), d.body, d.span⟩

/-- A composite with its holes filled; its body has none. -/
def CompositeDeclaration.filled (d : CompositeDeclaration) : CompositeDeclaration :=
  ⟨d.access.map (Access.filled v), d.kind, d.isInterface, d.name.filled v,
    d.conformances.map (NominalType.filled v), d.body, d.span⟩

/-- An event with its holes filled. -/
def EventDeclaration.filled (d : EventDeclaration) : EventDeclaration :=
  ⟨d.access.map (Access.filled v), d.name.filled v, d.parameters.filled v, d.span⟩

/-- An entitlement with its holes filled. -/
def EntitlementDeclaration.filled (d : EntitlementDeclaration) : EntitlementDeclaration :=
  ⟨d.access.map (Access.filled v), d.name.filled v, d.span⟩

/-- A declaration with its holes filled. -/
def Declaration.filled : Declaration → Declaration
  | .imports d => .imports (d.filled v)
  | .pragma d => .pragma (d.filled v)
  | .transaction d => .transaction (d.filled v)
  | .function d => .function (d.filled v)
  | .composite d => .composite (d.filled v)
  | .event d => .event (d.filled v)
  | .entitlement d => .entitlement (d.filled v)

/-- A program with its holes filled. -/
def Program.filled (p : Program) : Program := ⟨p.declarations.map (Declaration.filled v)⟩

/-- The fields among filled members are the filled fields. -/
theorem TransactionMember.fields_map_filled (ms : List TransactionMember) :
    fields (ms.map (filled v)) = (fields ms).map (FieldDeclaration.filled v) := by
  induction ms with
  | nil => rfl
  | cons x ms ih =>
    cases x <;> simp_all [fields, filled]

/-- The last of the phases stays the last. -/
theorem TransactionMember.lastPhase?_map_filled (p : Phase) (ms : List TransactionMember) :
    lastPhase? p (ms.map (filled v)) = (lastPhase? p ms).map (PhaseDeclaration.filled v) := by
  unfold lastPhase?
  rw [List.filterMap_map, ← List.getLast?_map, List.map_filterMap]
  congr 2
  funext x
  cases x with
  | field d => rfl
  | phase d =>
    simp only [Function.comp, filled, PhaseDeclaration.filled]
    split <;> rfl

/-- A transaction of filled members is the filled transaction. -/
theorem TransactionDeclaration.filled_ofMembers (ps : ParameterList)
    (ms : List TransactionMember) (s : Span) :
    (ofMembers ps ms s).filled v =
      ofMembers (ps.filled v) (ms.map (TransactionMember.filled v)) s := by
  simp only [ofMembers, filled, TransactionMember.fields_map_filled,
    TransactionMember.lastPhase?_map_filled]

namespace Grammar

/-- The value of a phrase with the hole filled. -/
def Nonterminal.filled : (n : Nonterminal) → n.Value → n.Value
  | .program => Program.filled v
  | .typeText | .annotatedType | .annotatedResult => AnnotatedType.filled v
  | .declarations => List.map (Declaration.filled v)
  | .declaration => Option.map (Declaration.filled v)
  | .importDeclaration => ImportDeclaration.filled v
  | .importNames | .moreImportNames | .moreNameParts => List.map (Identifier.filled v)
  | .importLocation => ImportLocation.filled v
  | .pragmaDeclaration => PragmaDeclaration.filled v
  | .transactionDeclaration => TransactionDeclaration.filled v
  | .transactionMembers => List.map (TransactionMember.filled v)
  | .transactionMember => TransactionMember.filled v
  | .fieldDeclaration => FieldDeclaration.filled v
  | .prepareBlock | .preBlock | .executeBlock | .postBlock => PhaseDeclaration.filled v
  | .functionDeclaration => FunctionDeclaration.filled v
  | .compositeDeclaration => CompositeDeclaration.filled v
  | .conformances | .moreNominals | .authorization | .moreAuthorized =>
    List.map (NominalType.filled v)
  | .eventDeclaration => EventDeclaration.filled v
  | .entitlementDeclaration => EntitlementDeclaration.filled v
  | .accessModifier => Access.filled v
  | .moreAccessNames => List.map (Prod.map id (fillName v))
  | .parameterList => ParameterList.filled v
  | .moreParameters => List.map (Parameter.filled v)
  | .parameter => Parameter.filled v
  | .variableKind | .compositeKind | .block | .nestedBlock | .blockItems | .blockItem => id
  | .moreAnnotatedTypes => List.map (AnnotatedType.filled v)
  | .type | .postfixType | .primaryType | .resultType | .resultPostfix | .resultPrimary
  | .instantiationType | .referenceType | .functionType => TypeExpr.filled v
  | .nominalType => NominalType.filled v

/-- The value of a symbol with the hole filled. Only a name can be the hole. -/
def Symbol.filled : (s : Symbol) → s.Value → s.Value
  | .token .name => Lexeme.filled v
  | .token _ => id
  | .phrase n => n.filled v

/-- The values of a list of symbols with the hole filled. -/
def Symbol.filledAll : (ss : List Symbol) → Symbol.Values ss → Symbol.Values ss
  | [], _ => ()
  | s :: ss, (x, xs) => (s.filled v x, Symbol.filledAll ss xs)

/-- What a production means with the hole filled it makes of its parts with the hole filled. -/
theorem Production.filled_meaning (p : Production) (source : List Char) (s : Unit → Span)
    (vs : Symbol.Values p.rhs) :
    p.lhs.filled v (p.meaning source s vs) =
      p.meaning source s (Symbol.filledAll v p.rhs vs) := by
  cases p
  case transactionParametersMembers =>
    obtain ⟨_, ps, _, ms, _, _⟩ := vs
    exact TransactionDeclaration.filled_ofMembers v ps ms (s ())
  case transactionMembers =>
    obtain ⟨_, _, ms, _, _⟩ := vs
    exact TransactionDeclaration.filled_ofMembers v {} ms (s ())
  case transactionBare => exact TransactionDeclaration.filled_ofMembers v {} [] (s ())
  case functionTypeMany =>
    obtain ⟨_, _, a, as, _, _, r, _⟩ := vs
    exact congrArg
      (fun as => TypeExpr.function (a.filled v :: as) (some (r.filled v)) (s ()))
      (AnnotatedType.filledAll_eq_map v as)
  case resultFunctionMany =>
    obtain ⟨_, _, a, as, _, _, r, _⟩ := vs
    exact congrArg
      (fun as => TypeExpr.function (a.filled v :: as) (some (r.filled v)) (s ()))
      (AnnotatedType.filledAll_eq_map v as)
  case instantiationMany =>
    obtain ⟨t, _, a, as, _, _⟩ := vs
    exact congrArg
      (fun as => TypeExpr.instantiation (.nominal (t.filled v)) (a.filled v :: as) (s ()))
      (AnnotatedType.filledAll_eq_map v as)
  case declarationsFirst =>
    obtain ⟨d, _⟩ := vs
    cases d <;> rfl
  case declarationsNext =>
    obtain ⟨ds, d, _⟩ := vs
    cases d <;> exact List.map_append
  case memberNext => exact List.map_concat
  case nominalNext => exact List.map_concat
  case parameterNext => exact List.map_concat
  case annotationNext => exact List.map_concat
  case authorizedCommaNext => exact List.map_concat
  case authorizedBarNext => exact List.map_concat
  -- the names
  case importNamesMany | importNamesOne | importNameFirst | namePartFirst =>
    exact congrArg (List.cons · _) (Identifier.ofLexeme_filled v _).symm
  case importNameNext | namePartNext =>
    obtain ⟨ns, _, n, _⟩ := vs
    exact List.map_concat.trans (congrArg (List.concat _) (Identifier.ofLexeme_filled v n).symm)
  case locationName => exact congrArg ImportLocation.identifier (Lexeme.spelling_filled v _).symm
  case pragma => exact congrArg (PragmaDeclaration.mk · _) (Lexeme.spelling_filled v _).symm
  case fieldAccess | field =>
    exact congrArg (FieldDeclaration.mk _ _ · _ _) (Identifier.ofLexeme_filled v _).symm
  case functionAccessViewResult | functionAccessView | functionAccessResult | functionAccess
      | functionViewResult | functionView | functionResult | function =>
    exact congrArg (FunctionDeclaration.mk _ _ · _ _ _ _) (Identifier.ofLexeme_filled v _).symm
  case interfaceAccessConforming | interfaceAccess | compositeAccessConforming | compositeAccess
      | interfaceConforming | interface | compositeConforming | composite =>
    exact congrArg (CompositeDeclaration.mk _ _ _ · _ _ _) (Identifier.ofLexeme_filled v _).symm
  case eventAccess | event =>
    exact congrArg (EventDeclaration.mk _ · _ _) (Identifier.ofLexeme_filled v _).symm
  case entitlementAccess | entitlement =>
    exact congrArg (EntitlementDeclaration.mk _ · _) (Identifier.ofLexeme_filled v _).symm
  case accessNamesMany | accessNamesOne =>
    exact congrArg (Access.names · _) (Lexeme.spelling_filled v _).symm
  case accessCommaFirst | accessBarFirst =>
    exact congrArg (fun n => [(_, n)]) (Lexeme.spelling_filled v _).symm
  case accessCommaNext | accessBarNext =>
    obtain ⟨ns, _, n, _⟩ := vs
    exact List.map_concat.trans
      (congrArg (fun n => List.concat _ (_, n)) (Lexeme.spelling_filled v n).symm)
  case parameter =>
    obtain ⟨n, _, t, _⟩ := vs
    exact congr (congrArg (fun l n => Parameter.mk l n (t.filled v) (s ())) (fillName_empty v))
      (Identifier.ofLexeme_filled v n).symm
  case parameterLabeled =>
    obtain ⟨l, n, _, t, _⟩ := vs
    exact congr
      (congrArg (fun l n => Parameter.mk l n (t.filled v) (s ())) (Lexeme.spelling_filled v l).symm)
      (Identifier.ofLexeme_filled v n).symm
  case nominalQualified | nominalSimple =>
    exact congrArg (NominalType.mk · _ _) (Identifier.ofLexeme_filled v _).symm
  all_goals rfl

end Grammar

end

end CadenceEntry
