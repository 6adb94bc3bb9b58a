import CadenceEntry.Grammar.Symbol

/-!
# The productions of the Cadence declaration grammar

Each constructor of `Production` is one way to build a phrase. Optional parts are written out as
separate productions and repetitions are left-recursive `more...` phrases, so the only phrase that
can be empty is a program without declarations. Bodies are balanced brace blocks; what may follow a
nested block differs from what may follow a whole body, so the two are phrases of their own. A
result type has its own copy of the type syntax, without restriction lists: an opening brace there
opens the body of the function.
-/

set_option autoImplicit false

namespace CadenceEntry.Grammar

/-- One way to build a phrase from symbols. -/
inductive Production where
  | programSome | programEmpty
  | typeText
  | declarationImport | declarationPragma | declarationTransaction | declarationFunction
  | declarationComposite | declarationEvent | declarationEntitlement | declarationSemicolon
  | importFrom | importWhole
  | importNamesMany | importNamesOne
  | locationAddress | locationString | locationName
  | pragma
  | transactionParametersMembers | transactionParameters | transactionMembers | transactionBare
  | memberField | memberPrepare | memberPre | memberExecute | memberPost
  | fieldAccess | field
  | kindLet | kindVar
  | prepare | pre | execute | post
  | functionAccessViewResult | functionAccessView | functionAccessResult | functionAccess
  | functionViewResult | functionView | functionResult | function
  | interfaceAccessConforming | interfaceAccess | compositeAccessConforming | compositeAccess
  | interfaceConforming | interface | compositeConforming | composite
  | kindContract | kindResource | kindStruct | kindEnum
  | conformancesMany | conformancesOne
  | eventAccess | event
  | entitlementAccess | entitlement
  | accessPub | accessPriv | accessPubSet | accessNamesMany | accessNamesOne
  | parametersMany | parametersOne | parametersNone
  | parameter | parameterLabeled
  | blockItems | blockEmpty
  | nestedItems | nestedEmpty
  | itemNested | itemString | itemStatement
  | annotationResource | annotationPlain
  | typePostfix | typeFunction
  | postfixPrimary | postfixOptional
  | primaryNominal | primaryInstantiation | primaryReference | restrictedMany | restrictedOne
  | restrictedNone | primaryArray | primarySizedArray | primaryDictionary
  | primaryIntersectionMany | primaryIntersectionOne | primaryIntersectionNone | primaryGroup
  | resultResource | resultPlain
  | resultPostfix | resultFunctionMany | resultFunctionOne | resultFunctionNone
  | resultPrimary | resultOptional
  | resultNominal | resultInstantiation | resultAuthorizedReference | resultReference
  | resultArray | resultSizedArray | resultDictionary | resultIntersectionMany
  | resultIntersectionOne | resultIntersectionNone | resultGroup
  | nominalQualified | nominalSimple
  | instantiationMany | instantiationOne | instantiationNone
  | referenceAuthorized | reference
  | authorizedMany | authorizedOne | authorizedBare
  | functionTypeMany | functionTypeOne | functionTypeNone
  | declarationsFirst | declarationsNext
  | importNameFirst | importNameNext
  | memberFirst | memberNext
  | nominalFirst | nominalNext
  | accessCommaFirst | accessBarFirst | accessCommaNext | accessBarNext
  | parameterFirst | parameterNext
  | blockItemFirst | blockItemNext
  | annotationFirst | annotationNext
  | namePartFirst | namePartNext
  | authorizedCommaFirst | authorizedBarFirst | authorizedCommaNext | authorizedBarNext
  deriving DecidableEq, Repr

/-- The two sides of a production. -/
structure Rule where
  lhs : Nonterminal
  rhs : List Symbol

namespace Production

/-- The phrase a production builds and the symbols it builds it from. -/
def rule : Production → Rule
  | .programSome => ⟨.program, [.phrase .declarations]⟩
  | .programEmpty => ⟨.program, []⟩
  | .typeText => ⟨.typeText, [.phrase .annotatedType]⟩
  | .declarationImport => ⟨.declaration, [.phrase .importDeclaration]⟩
  | .declarationPragma => ⟨.declaration, [.phrase .pragmaDeclaration]⟩
  | .declarationTransaction => ⟨.declaration, [.phrase .transactionDeclaration]⟩
  | .declarationFunction => ⟨.declaration, [.phrase .functionDeclaration]⟩
  | .declarationComposite => ⟨.declaration, [.phrase .compositeDeclaration]⟩
  | .declarationEvent => ⟨.declaration, [.phrase .eventDeclaration]⟩
  | .declarationEntitlement => ⟨.declaration, [.phrase .entitlementDeclaration]⟩
  | .declarationSemicolon => ⟨.declaration, [.token .semicolon]⟩
  | .importFrom => ⟨.importDeclaration, [.token .importWord, .phrase .importNames,
      .token .fromWord, .phrase .importLocation]⟩
  | .importWhole => ⟨.importDeclaration, [.token .importWord, .phrase .importLocation]⟩
  | .importNamesMany => ⟨.importNames, [.token .name, .phrase .moreImportNames]⟩
  | .importNamesOne => ⟨.importNames, [.token .name]⟩
  | .locationAddress => ⟨.importLocation, [.token .address]⟩
  | .locationString => ⟨.importLocation, [.token .string]⟩
  | .locationName => ⟨.importLocation, [.token .name]⟩
  | .pragma => ⟨.pragmaDeclaration, [.token .hash, .token .name]⟩
  | .transactionParametersMembers => ⟨.transactionDeclaration, [.token .transactionWord,
      .phrase .parameterList, .token .leftBrace, .phrase .transactionMembers, .token .rightBrace]⟩
  | .transactionParameters => ⟨.transactionDeclaration, [.token .transactionWord,
      .phrase .parameterList, .token .leftBrace, .token .rightBrace]⟩
  | .transactionMembers => ⟨.transactionDeclaration, [.token .transactionWord,
      .token .leftBrace, .phrase .transactionMembers, .token .rightBrace]⟩
  | .transactionBare => ⟨.transactionDeclaration, [.token .transactionWord, .token .leftBrace,
      .token .rightBrace]⟩
  | .memberField => ⟨.transactionMember, [.phrase .fieldDeclaration]⟩
  | .memberPrepare => ⟨.transactionMember, [.phrase .prepareBlock]⟩
  | .memberPre => ⟨.transactionMember, [.phrase .preBlock]⟩
  | .memberExecute => ⟨.transactionMember, [.phrase .executeBlock]⟩
  | .memberPost => ⟨.transactionMember, [.phrase .postBlock]⟩
  | .fieldAccess => ⟨.fieldDeclaration, [.phrase .accessModifier, .phrase .variableKind,
      .token .name, .token .colon, .phrase .annotatedType]⟩
  | .field => ⟨.fieldDeclaration, [.phrase .variableKind, .token .name, .token .colon,
      .phrase .annotatedType]⟩
  | .kindLet => ⟨.variableKind, [.token .letWord]⟩
  | .kindVar => ⟨.variableKind, [.token .varWord]⟩
  | .prepare => ⟨.prepareBlock, [.token .prepareWord, .phrase .parameterList, .phrase .block]⟩
  | .pre => ⟨.preBlock, [.token .preWord, .phrase .block]⟩
  | .execute => ⟨.executeBlock, [.token .executeWord, .phrase .block]⟩
  | .post => ⟨.postBlock, [.token .postWord, .phrase .block]⟩
  | .functionAccessViewResult => ⟨.functionDeclaration, [.phrase .accessModifier,
      .token .viewWord, .token .funWord, .token .name, .phrase .parameterList, .token .colon,
      .phrase .annotatedResult, .phrase .block]⟩
  | .functionAccessView => ⟨.functionDeclaration, [.phrase .accessModifier, .token .viewWord,
      .token .funWord, .token .name, .phrase .parameterList, .phrase .block]⟩
  | .functionAccessResult => ⟨.functionDeclaration, [.phrase .accessModifier, .token .funWord,
      .token .name, .phrase .parameterList, .token .colon, .phrase .annotatedResult,
      .phrase .block]⟩
  | .functionAccess => ⟨.functionDeclaration, [.phrase .accessModifier, .token .funWord,
      .token .name, .phrase .parameterList, .phrase .block]⟩
  | .functionViewResult => ⟨.functionDeclaration, [.token .viewWord, .token .funWord,
      .token .name, .phrase .parameterList, .token .colon, .phrase .annotatedResult,
      .phrase .block]⟩
  | .functionView => ⟨.functionDeclaration, [.token .viewWord, .token .funWord, .token .name,
      .phrase .parameterList, .phrase .block]⟩
  | .functionResult => ⟨.functionDeclaration, [.token .funWord, .token .name,
      .phrase .parameterList, .token .colon, .phrase .annotatedResult, .phrase .block]⟩
  | .function => ⟨.functionDeclaration, [.token .funWord, .token .name, .phrase .parameterList,
      .phrase .block]⟩
  | .interfaceAccessConforming => ⟨.compositeDeclaration, [.phrase .accessModifier,
      .phrase .compositeKind, .token .interfaceWord, .token .name, .phrase .conformances,
      .phrase .block]⟩
  | .interfaceAccess => ⟨.compositeDeclaration, [.phrase .accessModifier,
      .phrase .compositeKind, .token .interfaceWord, .token .name, .phrase .block]⟩
  | .compositeAccessConforming => ⟨.compositeDeclaration, [.phrase .accessModifier,
      .phrase .compositeKind, .token .name, .phrase .conformances, .phrase .block]⟩
  | .compositeAccess => ⟨.compositeDeclaration, [.phrase .accessModifier,
      .phrase .compositeKind, .token .name, .phrase .block]⟩
  | .interfaceConforming => ⟨.compositeDeclaration, [.phrase .compositeKind,
      .token .interfaceWord, .token .name, .phrase .conformances, .phrase .block]⟩
  | .interface => ⟨.compositeDeclaration, [.phrase .compositeKind, .token .interfaceWord,
      .token .name, .phrase .block]⟩
  | .compositeConforming => ⟨.compositeDeclaration, [.phrase .compositeKind, .token .name,
      .phrase .conformances, .phrase .block]⟩
  | .composite => ⟨.compositeDeclaration, [.phrase .compositeKind, .token .name, .phrase .block]⟩
  | .kindContract => ⟨.compositeKind, [.token .contractWord]⟩
  | .kindResource => ⟨.compositeKind, [.token .resourceWord]⟩
  | .kindStruct => ⟨.compositeKind, [.token .structWord]⟩
  | .kindEnum => ⟨.compositeKind, [.token .enumWord]⟩
  | .conformancesMany => ⟨.conformances, [.token .colon, .phrase .nominalType,
      .phrase .moreNominals]⟩
  | .conformancesOne => ⟨.conformances, [.token .colon, .phrase .nominalType]⟩
  | .eventAccess => ⟨.eventDeclaration, [.phrase .accessModifier, .token .eventWord,
      .token .name, .phrase .parameterList]⟩
  | .event => ⟨.eventDeclaration, [.token .eventWord, .token .name, .phrase .parameterList]⟩
  | .entitlementAccess => ⟨.entitlementDeclaration, [.phrase .accessModifier,
      .token .entitlementWord, .token .name]⟩
  | .entitlement => ⟨.entitlementDeclaration, [.token .entitlementWord, .token .name]⟩
  | .accessPub => ⟨.accessModifier, [.token .pubWord]⟩
  | .accessPriv => ⟨.accessModifier, [.token .privWord]⟩
  | .accessPubSet => ⟨.accessModifier, [.token .pubWord, .token .leftParen, .token .setWord,
      .token .rightParen]⟩
  | .accessNamesMany => ⟨.accessModifier, [.token .accessWord, .token .leftParen, .token .name,
      .phrase .moreAccessNames, .token .rightParen]⟩
  | .accessNamesOne => ⟨.accessModifier, [.token .accessWord, .token .leftParen, .token .name,
      .token .rightParen]⟩
  | .parametersMany => ⟨.parameterList, [.token .leftParen, .phrase .parameter,
      .phrase .moreParameters, .token .rightParen]⟩
  | .parametersOne => ⟨.parameterList, [.token .leftParen, .phrase .parameter,
      .token .rightParen]⟩
  | .parametersNone => ⟨.parameterList, [.token .leftParen, .token .rightParen]⟩
  | .parameter => ⟨.parameter, [.token .name, .token .colon, .phrase .annotatedType]⟩
  | .parameterLabeled => ⟨.parameter, [.token .name, .token .name, .token .colon,
      .phrase .annotatedType]⟩
  | .blockItems => ⟨.block, [.token .leftBrace, .phrase .blockItems, .token .rightBrace]⟩
  | .blockEmpty => ⟨.block, [.token .leftBrace, .token .rightBrace]⟩
  | .nestedItems => ⟨.nestedBlock, [.token .leftBrace, .phrase .blockItems, .token .rightBrace]⟩
  | .nestedEmpty => ⟨.nestedBlock, [.token .leftBrace, .token .rightBrace]⟩
  | .itemNested => ⟨.blockItem, [.phrase .nestedBlock]⟩
  | .itemString => ⟨.blockItem, [.token .string]⟩
  | .itemStatement => ⟨.blockItem, [.token .statement]⟩
  | .annotationResource => ⟨.annotatedType, [.token .atSign, .phrase .type]⟩
  | .annotationPlain => ⟨.annotatedType, [.phrase .type]⟩
  | .typePostfix => ⟨.type, [.phrase .postfixType]⟩
  | .typeFunction => ⟨.type, [.phrase .functionType]⟩
  | .postfixPrimary => ⟨.postfixType, [.phrase .primaryType]⟩
  | .postfixOptional => ⟨.postfixType, [.phrase .postfixType, .token .question]⟩
  | .primaryNominal => ⟨.primaryType, [.phrase .nominalType]⟩
  | .primaryInstantiation => ⟨.primaryType, [.phrase .instantiationType]⟩
  | .primaryReference => ⟨.primaryType, [.phrase .referenceType]⟩
  | .restrictedMany => ⟨.primaryType, [.phrase .nominalType, .token .leftBrace,
      .phrase .nominalType, .phrase .moreNominals, .token .rightBrace]⟩
  | .restrictedOne => ⟨.primaryType, [.phrase .nominalType, .token .leftBrace,
      .phrase .nominalType, .token .rightBrace]⟩
  | .restrictedNone => ⟨.primaryType, [.phrase .nominalType, .token .leftBrace,
      .token .rightBrace]⟩
  | .primaryArray => ⟨.primaryType, [.token .leftBracket, .phrase .type, .token .rightBracket]⟩
  | .primarySizedArray => ⟨.primaryType, [.token .leftBracket, .phrase .type,
      .token .semicolon, .token .integer, .token .rightBracket]⟩
  | .primaryDictionary => ⟨.primaryType, [.token .leftBrace, .phrase .type, .token .colon,
      .phrase .type, .token .rightBrace]⟩
  | .primaryIntersectionMany => ⟨.primaryType, [.token .leftBrace, .phrase .nominalType,
      .phrase .moreNominals, .token .rightBrace]⟩
  | .primaryIntersectionOne => ⟨.primaryType, [.token .leftBrace, .phrase .nominalType,
      .token .rightBrace]⟩
  | .primaryIntersectionNone => ⟨.primaryType, [.token .leftBrace, .token .rightBrace]⟩
  | .primaryGroup => ⟨.primaryType, [.token .leftParen, .phrase .type, .token .rightParen]⟩
  | .resultResource => ⟨.annotatedResult, [.token .atSign, .phrase .resultType]⟩
  | .resultPlain => ⟨.annotatedResult, [.phrase .resultType]⟩
  | .resultPostfix => ⟨.resultType, [.phrase .resultPostfix]⟩
  | .resultFunctionMany => ⟨.resultType, [.token .funWord, .token .leftParen,
      .phrase .annotatedType, .phrase .moreAnnotatedTypes, .token .rightParen, .token .colon,
      .phrase .annotatedResult]⟩
  | .resultFunctionOne => ⟨.resultType, [.token .funWord, .token .leftParen,
      .phrase .annotatedType, .token .rightParen, .token .colon, .phrase .annotatedResult]⟩
  | .resultFunctionNone => ⟨.resultType, [.token .funWord, .token .leftParen,
      .token .rightParen, .token .colon, .phrase .annotatedResult]⟩
  | .resultPrimary => ⟨.resultPostfix, [.phrase .resultPrimary]⟩
  | .resultOptional => ⟨.resultPostfix, [.phrase .resultPostfix, .token .question]⟩
  | .resultNominal => ⟨.resultPrimary, [.phrase .nominalType]⟩
  | .resultInstantiation => ⟨.resultPrimary, [.phrase .instantiationType]⟩
  | .resultAuthorizedReference => ⟨.resultPrimary, [.phrase .authorization, .token .ampersand,
      .phrase .resultPrimary]⟩
  | .resultReference => ⟨.resultPrimary, [.token .ampersand, .phrase .resultPrimary]⟩
  | .resultArray => ⟨.resultPrimary, [.token .leftBracket, .phrase .type, .token .rightBracket]⟩
  | .resultSizedArray => ⟨.resultPrimary, [.token .leftBracket, .phrase .type,
      .token .semicolon, .token .integer, .token .rightBracket]⟩
  | .resultDictionary => ⟨.resultPrimary, [.token .leftBrace, .phrase .type, .token .colon,
      .phrase .type, .token .rightBrace]⟩
  | .resultIntersectionMany => ⟨.resultPrimary, [.token .leftBrace, .phrase .nominalType,
      .phrase .moreNominals, .token .rightBrace]⟩
  | .resultIntersectionOne => ⟨.resultPrimary, [.token .leftBrace, .phrase .nominalType,
      .token .rightBrace]⟩
  | .resultIntersectionNone => ⟨.resultPrimary, [.token .leftBrace, .token .rightBrace]⟩
  | .resultGroup => ⟨.resultPrimary, [.token .leftParen, .phrase .type, .token .rightParen]⟩
  | .nominalQualified => ⟨.nominalType, [.token .name, .phrase .moreNameParts]⟩
  | .nominalSimple => ⟨.nominalType, [.token .name]⟩
  | .instantiationMany => ⟨.instantiationType, [.phrase .nominalType, .token .less,
      .phrase .annotatedType, .phrase .moreAnnotatedTypes, .token .greater]⟩
  | .instantiationOne => ⟨.instantiationType, [.phrase .nominalType, .token .less,
      .phrase .annotatedType, .token .greater]⟩
  | .instantiationNone => ⟨.instantiationType, [.phrase .nominalType, .token .less,
      .token .greater]⟩
  | .referenceAuthorized => ⟨.referenceType, [.phrase .authorization, .token .ampersand,
      .phrase .primaryType]⟩
  | .reference => ⟨.referenceType, [.token .ampersand, .phrase .primaryType]⟩
  | .authorizedMany => ⟨.authorization, [.token .authWord, .token .leftParen,
      .phrase .nominalType, .phrase .moreAuthorized, .token .rightParen]⟩
  | .authorizedOne => ⟨.authorization, [.token .authWord, .token .leftParen,
      .phrase .nominalType, .token .rightParen]⟩
  | .authorizedBare => ⟨.authorization, [.token .authWord]⟩
  | .functionTypeMany => ⟨.functionType, [.token .funWord, .token .leftParen,
      .phrase .annotatedType, .phrase .moreAnnotatedTypes, .token .rightParen, .token .colon,
      .phrase .annotatedType]⟩
  | .functionTypeOne => ⟨.functionType, [.token .funWord, .token .leftParen,
      .phrase .annotatedType, .token .rightParen, .token .colon, .phrase .annotatedType]⟩
  | .functionTypeNone => ⟨.functionType, [.token .funWord, .token .leftParen,
      .token .rightParen, .token .colon, .phrase .annotatedType]⟩
  | .declarationsFirst => ⟨.declarations, [.phrase .declaration]⟩
  | .declarationsNext => ⟨.declarations, [.phrase .declarations, .phrase .declaration]⟩
  | .importNameFirst => ⟨.moreImportNames, [.token .comma, .token .name]⟩
  | .importNameNext => ⟨.moreImportNames, [.phrase .moreImportNames, .token .comma, .token .name]⟩
  | .memberFirst => ⟨.transactionMembers, [.phrase .transactionMember]⟩
  | .memberNext => ⟨.transactionMembers, [.phrase .transactionMembers,
      .phrase .transactionMember]⟩
  | .nominalFirst => ⟨.moreNominals, [.token .comma, .phrase .nominalType]⟩
  | .nominalNext => ⟨.moreNominals, [.phrase .moreNominals, .token .comma, .phrase .nominalType]⟩
  | .accessCommaFirst => ⟨.moreAccessNames, [.token .comma, .token .name]⟩
  | .accessBarFirst => ⟨.moreAccessNames, [.token .bar, .token .name]⟩
  | .accessCommaNext => ⟨.moreAccessNames, [.phrase .moreAccessNames, .token .comma,
      .token .name]⟩
  | .accessBarNext => ⟨.moreAccessNames, [.phrase .moreAccessNames, .token .bar, .token .name]⟩
  | .parameterFirst => ⟨.moreParameters, [.token .comma, .phrase .parameter]⟩
  | .parameterNext => ⟨.moreParameters, [.phrase .moreParameters, .token .comma,
      .phrase .parameter]⟩
  | .blockItemFirst => ⟨.blockItems, [.phrase .blockItem]⟩
  | .blockItemNext => ⟨.blockItems, [.phrase .blockItems, .phrase .blockItem]⟩
  | .annotationFirst => ⟨.moreAnnotatedTypes, [.token .comma, .phrase .annotatedType]⟩
  | .annotationNext => ⟨.moreAnnotatedTypes, [.phrase .moreAnnotatedTypes, .token .comma,
      .phrase .annotatedType]⟩
  | .namePartFirst => ⟨.moreNameParts, [.token .dot, .token .name]⟩
  | .namePartNext => ⟨.moreNameParts, [.phrase .moreNameParts, .token .dot, .token .name]⟩
  | .authorizedCommaFirst => ⟨.moreAuthorized, [.token .comma, .phrase .nominalType]⟩
  | .authorizedBarFirst => ⟨.moreAuthorized, [.token .bar, .phrase .nominalType]⟩
  | .authorizedCommaNext => ⟨.moreAuthorized, [.phrase .moreAuthorized, .token .comma,
      .phrase .nominalType]⟩
  | .authorizedBarNext => ⟨.moreAuthorized, [.phrase .moreAuthorized, .token .bar,
      .phrase .nominalType]⟩

/-- The phrase a production builds. -/
abbrev lhs (p : Production) : Nonterminal := p.rule.lhs

/-- The symbols a production builds its phrase from. -/
abbrev rhs (p : Production) : List Symbol := p.rule.rhs

/-- Every production, once. -/
def all : List Production :=
  [programSome, programEmpty, typeText, declarationImport, declarationPragma,
   declarationTransaction, declarationFunction, declarationComposite, declarationEvent,
   declarationEntitlement, declarationSemicolon, importFrom, importWhole, importNamesMany,
   importNamesOne, locationAddress, locationString, locationName, pragma,
   transactionParametersMembers, transactionParameters, transactionMembers, transactionBare,
   memberField, memberPrepare, memberPre, memberExecute, memberPost, fieldAccess, field, kindLet,
   kindVar, prepare, pre, execute, post, functionAccessViewResult, functionAccessView,
   functionAccessResult, functionAccess, functionViewResult, functionView, functionResult,
   function, interfaceAccessConforming, interfaceAccess, compositeAccessConforming,
   compositeAccess, interfaceConforming, interface, compositeConforming, composite, kindContract,
   kindResource, kindStruct, kindEnum, conformancesMany, conformancesOne, eventAccess, event,
   entitlementAccess, entitlement, accessPub, accessPriv, accessPubSet, accessNamesMany,
   accessNamesOne, parametersMany, parametersOne, parametersNone, parameter, parameterLabeled,
   blockItems, blockEmpty, nestedItems, nestedEmpty, itemNested, itemString, itemStatement,
   annotationResource, annotationPlain, typePostfix, typeFunction, postfixPrimary,
   postfixOptional, primaryNominal, primaryInstantiation, primaryReference, restrictedMany,
   restrictedOne, restrictedNone, primaryArray, primarySizedArray, primaryDictionary,
   primaryIntersectionMany, primaryIntersectionOne, primaryIntersectionNone, primaryGroup,
   resultResource, resultPlain, resultPostfix, resultFunctionMany, resultFunctionOne,
   resultFunctionNone, resultPrimary, resultOptional, resultNominal, resultInstantiation,
   resultAuthorizedReference, resultReference, resultArray, resultSizedArray, resultDictionary,
   resultIntersectionMany, resultIntersectionOne, resultIntersectionNone, resultGroup,
   nominalQualified, nominalSimple, instantiationMany, instantiationOne, instantiationNone,
   referenceAuthorized, reference, authorizedMany, authorizedOne, authorizedBare,
   functionTypeMany, functionTypeOne, functionTypeNone, declarationsFirst, declarationsNext,
   importNameFirst, importNameNext, memberFirst, memberNext, nominalFirst, nominalNext,
   accessCommaFirst, accessBarFirst, accessCommaNext, accessBarNext, parameterFirst,
   parameterNext, blockItemFirst, blockItemNext, annotationFirst, annotationNext, namePartFirst,
   namePartNext, authorizedCommaFirst, authorizedBarFirst, authorizedCommaNext, authorizedBarNext]

end Production

end CadenceEntry.Grammar
