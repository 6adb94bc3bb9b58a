import CadenceEntry.Grammar.Derivation
import CadenceEntry.Number.IntegerLiteral
import CadenceEntry.Syntax.Declaration

/-!
# What derivations mean

Every symbol has a type of values, and every production says what the phrase it builds means from
what its parts mean. A derivation means what its last production makes of the meanings of its parts.
Separators, brackets and keywords have no meaning of their own, and parentheses around a type mean
that type, but all of them count for where a node starts and stops.
-/

set_option autoImplicit false

namespace CadenceEntry

/-- A member of a transaction. -/
inductive TransactionMember where
  | field (d : FieldDeclaration)
  | phase (d : PhaseDeclaration)

namespace TransactionMember

/-- The fields among some members in order. -/
def fields (ms : List TransactionMember) : List FieldDeclaration :=
  ms.filterMap fun
    | field d => some d
    | phase _ => none

/-- The last of the members that is the phase `p`. -/
def lastPhase? (p : Phase) (ms : List TransactionMember) : Option PhaseDeclaration :=
  (ms.filterMap fun
    | field _ => none
    | phase d => if d.phase = some p then some d else none).getLast?

end TransactionMember

/-- A transaction with the given members. Of a phase that is repeated the last one counts. -/
def TransactionDeclaration.ofMembers (ps : ParameterList) (ms : List TransactionMember)
    (span : Span) : TransactionDeclaration :=
  { parameters := ps
    fields := TransactionMember.fields ms
    prepare := TransactionMember.lastPhase? .prepare ms
    pre := TransactionMember.lastPhase? .pre ms
    execute := TransactionMember.lastPhase? .execute ms
    post := TransactionMember.lastPhase? .post ms
    span }

/-- The name that a word is. -/
def Identifier.ofLexeme (w : Lexeme) : Identifier := ⟨w.spelling, w.start⟩

/-- The body that stands at a span of a text. -/
def Block.ofSpan (source : List Char) (s : Span) : Block :=
  { source := String.ofList
      ((source.drop s.start.offset).take (s.stop.offset + 1 - s.start.offset))
    span := s }

/-- The size that an integer literal gives; zero if it has no value. -/
def Lexeme.size (w : Lexeme) : Int := (Number.IntegerLiteral.value? w.text).getD 0

/-- A text without the quotes around it. -/
def Lexeme.unquoted (w : Lexeme) : String := String.ofList (w.text.drop 1).dropLast

namespace Grammar

/-- The values that a phrase can have. -/
def Nonterminal.Value : Nonterminal → Type
  | .program => Program
  | .typeText | .annotatedType | .annotatedResult => AnnotatedType
  | .declarations => List Declaration
  | .declaration => Option Declaration
  | .importDeclaration => ImportDeclaration
  | .importNames | .moreImportNames | .moreNameParts => List Identifier
  | .importLocation => ImportLocation
  | .pragmaDeclaration => PragmaDeclaration
  | .transactionDeclaration => TransactionDeclaration
  | .transactionMembers => List TransactionMember
  | .transactionMember => TransactionMember
  | .fieldDeclaration => FieldDeclaration
  | .variableKind => VariableKind
  | .prepareBlock | .preBlock | .executeBlock | .postBlock => PhaseDeclaration
  | .functionDeclaration => FunctionDeclaration
  | .compositeDeclaration => CompositeDeclaration
  | .compositeKind => CompositeKind
  | .conformances | .moreNominals | .authorization | .moreAuthorized => List NominalType
  | .eventDeclaration => EventDeclaration
  | .entitlementDeclaration => EntitlementDeclaration
  | .accessModifier => Access
  | .moreAccessNames => List (AccessSeparator × String)
  | .parameterList => ParameterList
  | .moreParameters => List Parameter
  | .parameter => Parameter
  | .block => Block
  | .nestedBlock | .blockItems | .blockItem => Unit
  | .moreAnnotatedTypes => List AnnotatedType
  | .type | .postfixType | .primaryType | .resultType | .resultPostfix | .resultPrimary
  | .instantiationType | .referenceType | .functionType => TypeExpr
  | .nominalType => NominalType

/-- The values that a symbol can have: a word is its own value. -/
def Symbol.Value : Symbol → Type
  | .token _ => Lexeme
  | .phrase n => n.Value

/-- One value for each symbol of a list. -/
def Symbol.Values : List Symbol → Type
  | [] => Unit
  | s :: ss => s.Value × Symbol.Values ss

/-- What a production makes of the values of its parts, for a phrase at the span `s ()` of the
text `source`. Few phrases need to know their span. -/
def Production.meaning (source : List Char) (s : Unit → Span) :
    (p : Production) → Symbol.Values p.rhs → p.lhs.Value
  | .programSome => fun ⟨ds, _⟩ => (⟨ds⟩ : Program)
  | .programEmpty => fun _ => (⟨[]⟩ : Program)
  | .typeText => fun ⟨a, _⟩ => a
  | .declarationImport => fun ⟨d, _⟩ => some (Declaration.imports d)
  | .declarationPragma => fun ⟨d, _⟩ => some (Declaration.pragma d)
  | .declarationTransaction => fun ⟨d, _⟩ => some (Declaration.transaction d)
  | .declarationFunction => fun ⟨d, _⟩ => some (Declaration.function d)
  | .declarationComposite => fun ⟨d, _⟩ => some (Declaration.composite d)
  | .declarationEvent => fun ⟨d, _⟩ => some (Declaration.event d)
  | .declarationEntitlement => fun ⟨d, _⟩ => some (Declaration.entitlement d)
  | .declarationSemicolon => fun _ => (none : Option Declaration)
  | .importFrom => fun ⟨_, ns, _, l, _⟩ => (⟨ns, l, s ()⟩ : ImportDeclaration)
  | .importWhole => fun ⟨_, l, _⟩ => (⟨[], l, s ()⟩ : ImportDeclaration)
  | .importNamesMany => fun ⟨n, ns, _⟩ => Identifier.ofLexeme n :: ns
  | .importNamesOne => fun ⟨n, _⟩ => [Identifier.ofLexeme n]
  | .locationAddress => fun ⟨w, _⟩ => ImportLocation.address w.spelling
  | .locationString => fun ⟨w, _⟩ => ImportLocation.string w.unquoted
  | .locationName => fun ⟨w, _⟩ => ImportLocation.identifier w.spelling
  | .pragma => fun ⟨_, n, _⟩ => (⟨n.spelling, s ()⟩ : PragmaDeclaration)
  | .transactionParametersMembers => fun ⟨_, ps, _, ms, _⟩ =>
    TransactionDeclaration.ofMembers ps ms (s ())
  | .transactionParameters => fun ⟨_, ps, _⟩ => TransactionDeclaration.ofMembers ps [] (s ())
  | .transactionMembers => fun ⟨_, _, ms, _⟩ => TransactionDeclaration.ofMembers {} ms (s ())
  | .transactionBare => fun _ => TransactionDeclaration.ofMembers {} [] (s ())
  | .memberField => fun ⟨d, _⟩ => TransactionMember.field d
  | .memberPrepare => fun ⟨d, _⟩ => TransactionMember.phase d
  | .memberPre => fun ⟨d, _⟩ => TransactionMember.phase d
  | .memberExecute => fun ⟨d, _⟩ => TransactionMember.phase d
  | .memberPost => fun ⟨d, _⟩ => TransactionMember.phase d
  | .fieldAccess => fun ⟨a, k, n, _, t, _⟩ =>
    (⟨some a, k, .ofLexeme n, t, s ()⟩ : FieldDeclaration)
  | .field => fun ⟨k, n, _, t, _⟩ => (⟨none, k, .ofLexeme n, t, s ()⟩ : FieldDeclaration)
  | .kindLet => fun _ => VariableKind.immutable
  | .kindVar => fun _ => VariableKind.mutable
  | .prepare => fun ⟨_, ps, b, _⟩ => (⟨some .prepare, some ps, b, s ()⟩ : PhaseDeclaration)
  | .pre => fun ⟨_, b, _⟩ => (⟨some .pre, none, b, s ()⟩ : PhaseDeclaration)
  | .execute => fun ⟨_, b, _⟩ => (⟨some .execute, none, b, s ()⟩ : PhaseDeclaration)
  | .post => fun ⟨_, b, _⟩ => (⟨some .post, none, b, s ()⟩ : PhaseDeclaration)
  | .functionAccessViewResult => fun ⟨a, _, _, n, ps, _, r, b, _⟩ =>
    (⟨some a, true, .ofLexeme n, ps, some r, some b, s ()⟩ : FunctionDeclaration)
  | .functionAccessView => fun ⟨a, _, _, n, ps, b, _⟩ =>
    (⟨some a, true, .ofLexeme n, ps, none, some b, s ()⟩ : FunctionDeclaration)
  | .functionAccessResult => fun ⟨a, _, n, ps, _, r, b, _⟩ =>
    (⟨some a, false, .ofLexeme n, ps, some r, some b, s ()⟩ : FunctionDeclaration)
  | .functionAccess => fun ⟨a, _, n, ps, b, _⟩ =>
    (⟨some a, false, .ofLexeme n, ps, none, some b, s ()⟩ : FunctionDeclaration)
  | .functionViewResult => fun ⟨_, _, n, ps, _, r, b, _⟩ =>
    (⟨none, true, .ofLexeme n, ps, some r, some b, s ()⟩ : FunctionDeclaration)
  | .functionView => fun ⟨_, _, n, ps, b, _⟩ =>
    (⟨none, true, .ofLexeme n, ps, none, some b, s ()⟩ : FunctionDeclaration)
  | .functionResult => fun ⟨_, n, ps, _, r, b, _⟩ =>
    (⟨none, false, .ofLexeme n, ps, some r, some b, s ()⟩ : FunctionDeclaration)
  | .function => fun ⟨_, n, ps, b, _⟩ =>
    (⟨none, false, .ofLexeme n, ps, none, some b, s ()⟩ : FunctionDeclaration)
  | .interfaceAccessConforming => fun ⟨a, k, _, n, cs, b, _⟩ =>
    (⟨some a, some k, true, .ofLexeme n, cs, b, s ()⟩ : CompositeDeclaration)
  | .interfaceAccess => fun ⟨a, k, _, n, b, _⟩ =>
    (⟨some a, some k, true, .ofLexeme n, [], b, s ()⟩ : CompositeDeclaration)
  | .compositeAccessConforming => fun ⟨a, k, n, cs, b, _⟩ =>
    (⟨some a, some k, false, .ofLexeme n, cs, b, s ()⟩ : CompositeDeclaration)
  | .compositeAccess => fun ⟨a, k, n, b, _⟩ =>
    (⟨some a, some k, false, .ofLexeme n, [], b, s ()⟩ : CompositeDeclaration)
  | .interfaceConforming => fun ⟨k, _, n, cs, b, _⟩ =>
    (⟨none, some k, true, .ofLexeme n, cs, b, s ()⟩ : CompositeDeclaration)
  | .interface => fun ⟨k, _, n, b, _⟩ =>
    (⟨none, some k, true, .ofLexeme n, [], b, s ()⟩ : CompositeDeclaration)
  | .compositeConforming => fun ⟨k, n, cs, b, _⟩ =>
    (⟨none, some k, false, .ofLexeme n, cs, b, s ()⟩ : CompositeDeclaration)
  | .composite => fun ⟨k, n, b, _⟩ =>
    (⟨none, some k, false, .ofLexeme n, [], b, s ()⟩ : CompositeDeclaration)
  | .kindContract => fun _ => CompositeKind.contract
  | .kindResource => fun _ => CompositeKind.resource
  | .kindStruct => fun _ => CompositeKind.struct
  | .kindEnum => fun _ => CompositeKind.enum
  | .conformancesMany => fun ⟨_, t, ts, _⟩ => (t :: ts : List NominalType)
  | .conformancesOne => fun ⟨_, t, _⟩ => ([t] : List NominalType)
  | .eventAccess => fun ⟨a, _, n, ps, _⟩ => (⟨some a, .ofLexeme n, ps, s ()⟩ : EventDeclaration)
  | .event => fun ⟨_, n, ps, _⟩ => (⟨none, .ofLexeme n, ps, s ()⟩ : EventDeclaration)
  | .entitlementAccess => fun ⟨a, _, n, _⟩ =>
    (⟨some a, .ofLexeme n, s ()⟩ : EntitlementDeclaration)
  | .entitlement => fun ⟨_, n, _⟩ => (⟨none, .ofLexeme n, s ()⟩ : EntitlementDeclaration)
  | .accessPub => fun _ => Access.pub
  | .accessPriv => fun _ => Access.priv
  | .accessPubSet => fun _ => Access.pubSet
  | .accessNamesMany => fun ⟨_, _, n, ns, _⟩ => Access.names n.spelling ns
  | .accessNamesOne => fun ⟨_, _, n, _⟩ => Access.names n.spelling []
  | .parametersMany => fun ⟨_, p, ps, _⟩ => (⟨p :: ps, s ()⟩ : ParameterList)
  | .parametersOne => fun ⟨_, p, _⟩ => (⟨[p], s ()⟩ : ParameterList)
  | .parametersNone => fun _ => (⟨[], s ()⟩ : ParameterList)
  | .parameter => fun ⟨n, _, t, _⟩ => (⟨"", .ofLexeme n, t, s ()⟩ : Parameter)
  | .parameterLabeled => fun ⟨l, n, _, t, _⟩ => (⟨l.spelling, .ofLexeme n, t, s ()⟩ : Parameter)
  | .blockItems => fun _ => Block.ofSpan source (s ())
  | .blockEmpty => fun _ => Block.ofSpan source (s ())
  | .nestedItems => fun _ => ()
  | .nestedEmpty => fun _ => ()
  | .itemNested => fun _ => ()
  | .itemString => fun _ => ()
  | .itemStatement => fun _ => ()
  | .annotationResource => fun ⟨_, t, _⟩ => AnnotatedType.mk true t (s ())
  | .annotationPlain => fun ⟨t, _⟩ => AnnotatedType.mk false t (s ())
  | .typePostfix => fun ⟨t, _⟩ => t
  | .typeFunction => fun ⟨t, _⟩ => t
  | .postfixPrimary => fun ⟨t, _⟩ => t
  | .postfixOptional => fun ⟨t, _⟩ => TypeExpr.optional t (s ())
  | .primaryNominal => fun ⟨t, _⟩ => TypeExpr.nominal t
  | .primaryInstantiation => fun ⟨t, _⟩ => t
  | .primaryReference => fun ⟨t, _⟩ => t
  | .restrictedMany => fun ⟨b, _, t, ts, _⟩ => TypeExpr.restricted b (t :: ts) (s ())
  | .restrictedOne => fun ⟨b, _, t, _⟩ => TypeExpr.restricted b [t] (s ())
  | .restrictedNone => fun ⟨b, _⟩ => TypeExpr.restricted b [] (s ())
  | .primaryArray => fun ⟨_, t, _⟩ => TypeExpr.variableSized t (s ())
  | .primarySizedArray => fun ⟨_, t, _, n, _⟩ => TypeExpr.constantSized t n.size n.spelling (s ())
  | .primaryDictionary => fun ⟨_, k, _, v, _⟩ => TypeExpr.dictionary k v (s ())
  | .primaryIntersectionMany => fun ⟨_, t, ts, _⟩ => TypeExpr.intersection (t :: ts) (s ())
  | .primaryIntersectionOne => fun ⟨_, t, _⟩ => TypeExpr.intersection [t] (s ())
  | .primaryIntersectionNone => fun _ => TypeExpr.intersection [] (s ())
  | .primaryGroup => fun ⟨_, t, _⟩ => t
  | .resultResource => fun ⟨_, t, _⟩ => AnnotatedType.mk true t (s ())
  | .resultPlain => fun ⟨t, _⟩ => AnnotatedType.mk false t (s ())
  | .resultPostfix => fun ⟨t, _⟩ => t
  | .resultFunctionMany => fun ⟨_, _, a, as, _, _, r, _⟩ =>
    TypeExpr.function (a :: as) (some r) (s ())
  | .resultFunctionOne => fun ⟨_, _, a, _, _, r, _⟩ => TypeExpr.function [a] (some r) (s ())
  | .resultFunctionNone => fun ⟨_, _, _, _, r, _⟩ => TypeExpr.function [] (some r) (s ())
  | .resultPrimary => fun ⟨t, _⟩ => t
  | .resultOptional => fun ⟨t, _⟩ => TypeExpr.optional t (s ())
  | .resultNominal => fun ⟨t, _⟩ => TypeExpr.nominal t
  | .resultInstantiation => fun ⟨t, _⟩ => t
  | .resultAuthorizedReference => fun ⟨es, _, t, _⟩ => TypeExpr.reference true es t (s ())
  | .resultReference => fun ⟨_, t, _⟩ => TypeExpr.reference false [] t (s ())
  | .resultArray => fun ⟨_, t, _⟩ => TypeExpr.variableSized t (s ())
  | .resultSizedArray => fun ⟨_, t, _, n, _⟩ => TypeExpr.constantSized t n.size n.spelling (s ())
  | .resultDictionary => fun ⟨_, k, _, v, _⟩ => TypeExpr.dictionary k v (s ())
  | .resultIntersectionMany => fun ⟨_, t, ts, _⟩ => TypeExpr.intersection (t :: ts) (s ())
  | .resultIntersectionOne => fun ⟨_, t, _⟩ => TypeExpr.intersection [t] (s ())
  | .resultIntersectionNone => fun _ => TypeExpr.intersection [] (s ())
  | .resultGroup => fun ⟨_, t, _⟩ => t
  | .nominalQualified => fun ⟨n, ns, _⟩ => (⟨.ofLexeme n, ns, s ()⟩ : NominalType)
  | .nominalSimple => fun ⟨n, _⟩ => (⟨.ofLexeme n, [], s ()⟩ : NominalType)
  | .instantiationMany => fun ⟨t, _, a, as, _⟩ =>
    TypeExpr.instantiation (.nominal t) (a :: as) (s ())
  | .instantiationOne => fun ⟨t, _, a, _⟩ => TypeExpr.instantiation (.nominal t) [a] (s ())
  | .instantiationNone => fun ⟨t, _⟩ => TypeExpr.instantiation (.nominal t) [] (s ())
  | .referenceAuthorized => fun ⟨es, _, t, _⟩ => TypeExpr.reference true es t (s ())
  | .reference => fun ⟨_, t, _⟩ => TypeExpr.reference false [] t (s ())
  | .authorizedMany => fun ⟨_, _, t, ts, _⟩ => (t :: ts : List NominalType)
  | .authorizedOne => fun ⟨_, _, t, _⟩ => ([t] : List NominalType)
  | .authorizedBare => fun _ => ([] : List NominalType)
  | .functionTypeMany => fun ⟨_, _, a, as, _, _, r, _⟩ =>
    TypeExpr.function (a :: as) (some r) (s ())
  | .functionTypeOne => fun ⟨_, _, a, _, _, r, _⟩ => TypeExpr.function [a] (some r) (s ())
  | .functionTypeNone => fun ⟨_, _, _, _, r, _⟩ => TypeExpr.function [] (some r) (s ())
  | .declarationsFirst => fun ⟨d, _⟩ => Option.toList d
  | .declarationsNext => fun ⟨ds, d, _⟩ => List.append ds (Option.toList d)
  | .importNameFirst => fun ⟨_, n, _⟩ => [Identifier.ofLexeme n]
  | .importNameNext => fun ⟨ns, _, n, _⟩ => List.concat ns (Identifier.ofLexeme n)
  | .memberFirst => fun ⟨m, _⟩ => ([m] : List TransactionMember)
  | .memberNext => fun ⟨ms, m, _⟩ => List.concat ms m
  | .nominalFirst => fun ⟨_, t, _⟩ => ([t] : List NominalType)
  | .nominalNext => fun ⟨ts, _, t, _⟩ => List.concat ts t
  | .accessCommaFirst => fun ⟨_, n, _⟩ => [(AccessSeparator.all, n.spelling)]
  | .accessBarFirst => fun ⟨_, n, _⟩ => [(AccessSeparator.any, n.spelling)]
  | .accessCommaNext => fun ⟨ns, _, n, _⟩ => List.concat ns (AccessSeparator.all, n.spelling)
  | .accessBarNext => fun ⟨ns, _, n, _⟩ => List.concat ns (AccessSeparator.any, n.spelling)
  | .parameterFirst => fun ⟨_, p, _⟩ => ([p] : List Parameter)
  | .parameterNext => fun ⟨ps, _, p, _⟩ => List.concat ps p
  | .blockItemFirst => fun _ => ()
  | .blockItemNext => fun _ => ()
  | .annotationFirst => fun ⟨_, a, _⟩ => ([a] : List AnnotatedType)
  | .annotationNext => fun ⟨as, _, a, _⟩ => List.concat as a
  | .namePartFirst => fun ⟨_, n, _⟩ => [Identifier.ofLexeme n]
  | .namePartNext => fun ⟨ns, _, n, _⟩ => List.concat ns (Identifier.ofLexeme n)
  | .authorizedCommaFirst => fun ⟨_, t, _⟩ => ([t] : List NominalType)
  | .authorizedBarFirst => fun ⟨_, t, _⟩ => ([t] : List NominalType)
  | .authorizedCommaNext => fun ⟨ts, _, t, _⟩ => List.concat ts t
  | .authorizedBarNext => fun ⟨ts, _, t, _⟩ => List.concat ts t

mutual

/-- The value of a derivation of words of the text `source`. -/
def Derivation.value (source : List Char) {s : Symbol} : Derivation s → s.Value
  | .leaf _ w => w
  | .node p ds => p.meaning source (fun _ => ds.span) (ds.values source)

/-- The values of a list of derivations. -/
def Derivations.values (source : List Char) {ss : List Symbol} :
    Derivations ss → Symbol.Values ss
  | .nil => ()
  | .cons d ds => (d.value source, ds.values source)

end

mutual

/-- The first integer literal of a derivation that has no value. -/
def Derivation.invalidInteger? {s : Symbol} : Derivation s → Option Lexeme
  | .leaf t w =>
    if t == .integer && (Number.IntegerLiteral.value? w.text).isNone then some w else none
  | .node _ ds => ds.invalidInteger?

/-- The first integer literal of a list of derivations that has no value. -/
def Derivations.invalidInteger? {ss : List Symbol} : Derivations ss → Option Lexeme
  | .nil => none
  | .cons d ds =>
    match d.invalidInteger? with
    | some w => some w
    | none => ds.invalidInteger?

end

end Grammar

end CadenceEntry
