import CadenceEntry.Grammar.Row

/-!
# The states of the automaton

The rows below are data; what makes them right is that they are closed: from each row, every symbol
that an item of the row can read next has a move, the target of a move holds the items that have
been read one symbol further, and the lookaheads of the items agree along all ways into a row. Rows
reached in different contexts share their lookaheads, so a row may promise a word that the context
at hand refuses one reduction later.
-/

set_option autoImplicit false

namespace CadenceEntry.Grammar.Table

/-- Lookaheads that are words. -/
private def words (ts : List Terminal) : List Lookahead := ts.map .word

/-- Nothing but the end of the text. -/
private def atEnd : List Lookahead := [.finish]

/-- What follows a declaration: another one, or the end. -/
private def afterDeclaration : List Lookahead := .finish :: words
  [.accessWord, .contractWord, .entitlementWord, .enumWord, .eventWord, .funWord, .hash,
   .importWord, .privWord, .pubWord, .resourceWord, .semicolon, .structWord, .transactionWord,
   .viewWord]

/-- What follows a member of a transaction. -/
private def afterMember : List Lookahead := words
  [.accessWord, .executeWord, .letWord, .postWord, .preWord, .prepareWord, .privWord, .pubWord,
   .rightBrace, .varWord]

/-- What follows a body: a declaration, a member of a transaction, or the end. -/
private def afterBlock : List Lookahead := afterDeclaration ++ words
  [.executeWord, .letWord, .postWord, .preWord, .prepareWord, .rightBrace, .varWord]

/-- What follows a complete type. -/
private def afterType : List Lookahead := .finish :: afterMember ++ words
  [.colon, .comma, .greater, .rightBracket, .rightParen, .semicolon]

/-- What follows a type that may still become optional. -/
private def afterPostfix : List Lookahead := .word .question :: afterType

/-- What follows a type with arguments, in a type or a result type. -/
private def afterArguments : List Lookahead := .word .leftBrace :: afterPostfix

/-- What follows a type name. -/
private def afterNominal : List Lookahead := words [.bar, .less] ++ afterArguments

/-- What follows a part of a qualified type name. -/
private def afterNamePart : List Lookahead := .word .dot :: afterNominal

/-- What follows a parameter list. -/
private def afterParameters : List Lookahead := words [.colon, .leftBrace] ++ afterDeclaration

/-- What follows a type that closes the key of a dictionary. -/
private def afterKeyType : List Lookahead := words [.colon, .question]

/-- What follows a result type: the body. -/
private def afterResult : List Lookahead := words [.leftBrace]

/-- What follows a result type that may still become optional. -/
private def afterResultPostfix : List Lookahead := words [.leftBrace, .question]

/-- What follows an access modifier. -/
private def afterAccess : List Lookahead := words
  [.contractWord, .entitlementWord, .enumWord, .eventWord, .funWord, .letWord, .resourceWord,
   .structWord, .varWord, .viewWord]

/-- What follows a name in an access modifier or an authorization. -/
private def afterAccessName : List Lookahead := words [.bar, .comma, .rightParen]

/-- What follows a parameter, or a type in a list in parentheses. -/
private def afterParameter : List Lookahead := words [.comma, .rightParen]

/-- What follows a type in a list of arguments or of parameters. -/
private def afterArgument : List Lookahead := words [.comma, .greater, .rightParen]

/-- What follows a type in a list of arguments. -/
private def afterFirstArgument : List Lookahead := words [.comma, .greater]

/-- What follows an item of a body. -/
private def afterBodyItem : List Lookahead := words [.leftBrace, .rightBrace, .statement, .string]

/-- What follows an authorization. -/
private def afterAuthorization : List Lookahead := words [.ampersand]

/-- What follows an import name in a list. -/
private def afterImportName : List Lookahead := words [.comma, .fromWord]

/-- What follows the names of an import. -/
private def afterImportNames : List Lookahead := words [.fromWord]

/-- What follows the kind of a composite. -/
private def afterCompositeKind : List Lookahead := words [.interfaceWord, .name]

/-- What follows the kind of a field. -/
private def afterVariableKind : List Lookahead := words [.name]

/-- What follows a type name in a list, wherever the list stands. -/
private def afterListedNominal : List Lookahead := words [.comma, .leftBrace, .rightBrace]

/-- What follows a type name in a list in braces. -/
private def afterInterface : List Lookahead := words [.comma, .rightBrace]

/-- What follows a type name in a list of conformances. -/
private def afterConformance : List Lookahead := words [.comma, .leftBrace]

/-- Rows 0 to 3: the start and the end of a text. -/
def rowsOfStart : List Row := [
  /- 0 -/ ⟨[⟨.programEmpty, 0, atEnd⟩], [(.token .importWord, 16), (.token .transactionWord, 32),
      (.token .funWord, 93), (.token .viewWord, 85), (.token .contractWord, 120),
      (.token .resourceWord, 121), (.token .structWord, 122), (.token .enumWord, 123),
      (.token .eventWord, 137), (.token .entitlementWord, 142), (.token .pubWord, 144),
      (.token .privWord, 145), (.token .accessWord, 149), (.token .semicolon, 15),
      (.token .hash, 30), (.phrase .program, 2), (.phrase .declarations, 4),
      (.phrase .declaration, 6), (.phrase .importDeclaration, 8),
      (.phrase .pragmaDeclaration, 9), (.phrase .transactionDeclaration, 10),
      (.phrase .functionDeclaration, 11), (.phrase .compositeDeclaration, 12),
      (.phrase .compositeKind, 110), (.phrase .eventDeclaration, 13),
      (.phrase .entitlementDeclaration, 14), (.phrase .accessModifier, 69)]⟩,
  /- 1 -/ ⟨[], [(.token .name, 275), (.token .funWord, 305), (.token .authWord, 291),
      (.token .atSign, 192), (.token .ampersand, 289), (.token .leftParen, 230),
      (.token .leftBrace, 222), (.token .leftBracket, 216), (.phrase .typeText, 3),
      (.phrase .annotatedType, 5), (.phrase .type, 194), (.phrase .postfixType, 202),
      (.phrase .primaryType, 204), (.phrase .nominalType, 206),
      (.phrase .instantiationType, 209), (.phrase .referenceType, 210),
      (.phrase .authorization, 286), (.phrase .functionType, 203)]⟩,
  /- 2 -/ ⟨[], []⟩,
  /- 3 -/ ⟨[], []⟩]

/-- Rows 4 to 15: whole programs and lists of declarations. -/
def rowsOfProgram : List Row := [
  /- 4 -/ ⟨[⟨.programSome, 1, atEnd⟩, ⟨.declarationsNext, 1, afterDeclaration⟩], [
      (.token .importWord, 16), (.token .transactionWord, 32), (.token .funWord, 93),
      (.token .viewWord, 85), (.token .contractWord, 120), (.token .resourceWord, 121),
      (.token .structWord, 122), (.token .enumWord, 123), (.token .eventWord, 137),
      (.token .entitlementWord, 142), (.token .pubWord, 144), (.token .privWord, 145),
      (.token .accessWord, 149), (.token .semicolon, 15), (.token .hash, 30),
      (.phrase .declaration, 7), (.phrase .importDeclaration, 8),
      (.phrase .pragmaDeclaration, 9), (.phrase .transactionDeclaration, 10),
      (.phrase .functionDeclaration, 11), (.phrase .compositeDeclaration, 12),
      (.phrase .compositeKind, 110), (.phrase .eventDeclaration, 13),
      (.phrase .entitlementDeclaration, 14), (.phrase .accessModifier, 69)]⟩,
  /- 5 -/ ⟨[⟨.typeText, 1, atEnd⟩], []⟩,
  /- 6 -/ ⟨[⟨.declarationsFirst, 1, afterDeclaration⟩], []⟩,
  /- 7 -/ ⟨[⟨.declarationsNext, 2, afterDeclaration⟩], []⟩,
  /- 8 -/ ⟨[⟨.declarationImport, 1, afterDeclaration⟩], []⟩,
  /- 9 -/ ⟨[⟨.declarationPragma, 1, afterDeclaration⟩], []⟩,
  /- 10 -/ ⟨[⟨.declarationTransaction, 1, afterDeclaration⟩], []⟩,
  /- 11 -/ ⟨[⟨.declarationFunction, 1, afterDeclaration⟩], []⟩,
  /- 12 -/ ⟨[⟨.declarationComposite, 1, afterDeclaration⟩], []⟩,
  /- 13 -/ ⟨[⟨.declarationEvent, 1, afterDeclaration⟩], []⟩,
  /- 14 -/ ⟨[⟨.declarationEntitlement, 1, afterDeclaration⟩], []⟩,
  /- 15 -/ ⟨[⟨.declarationSemicolon, 1, afterDeclaration⟩], []⟩]

/-- Rows 16 to 31: imports and pragmas. -/
def rowsOfImport : List Row := [
  /- 16 -/ ⟨[⟨.importFrom, 1, afterDeclaration⟩, ⟨.importWhole, 1, afterDeclaration⟩], [
      (.token .name, 21), (.token .string, 28), (.token .address, 27),
      (.phrase .importNames, 17), (.phrase .importLocation, 20)]⟩,
  /- 17 -/ ⟨[⟨.importFrom, 2, afterDeclaration⟩], [(.token .fromWord, 18)]⟩,
  /- 18 -/ ⟨[⟨.importFrom, 3, afterDeclaration⟩], [(.token .name, 29), (.token .string, 28),
      (.token .address, 27), (.phrase .importLocation, 19)]⟩,
  /- 19 -/ ⟨[⟨.importFrom, 4, afterDeclaration⟩], []⟩,
  /- 20 -/ ⟨[⟨.importWhole, 2, afterDeclaration⟩], []⟩,
  /- 21 -/ ⟨[⟨.importNamesMany, 1, afterImportNames⟩, ⟨.importNamesOne, 1, afterImportNames⟩,
      ⟨.locationName, 1, afterDeclaration⟩], [(.token .comma, 23), (.phrase .moreImportNames, 22)]⟩,
  /- 22 -/ ⟨[⟨.importNamesMany, 2, afterImportNames⟩, ⟨.importNameNext, 1, afterImportName⟩], [
      (.token .comma, 25)]⟩,
  /- 23 -/ ⟨[⟨.importNameFirst, 1, afterImportName⟩], [(.token .name, 24)]⟩,
  /- 24 -/ ⟨[⟨.importNameFirst, 2, afterImportName⟩], []⟩,
  /- 25 -/ ⟨[⟨.importNameNext, 2, afterImportName⟩], [(.token .name, 26)]⟩,
  /- 26 -/ ⟨[⟨.importNameNext, 3, afterImportName⟩], []⟩,
  /- 27 -/ ⟨[⟨.locationAddress, 1, afterDeclaration⟩], []⟩,
  /- 28 -/ ⟨[⟨.locationString, 1, afterDeclaration⟩], []⟩,
  /- 29 -/ ⟨[⟨.locationName, 1, afterDeclaration⟩], []⟩,
  /- 30 -/ ⟨[⟨.pragma, 1, afterDeclaration⟩], [(.token .name, 31)]⟩,
  /- 31 -/ ⟨[⟨.pragma, 2, afterDeclaration⟩], []⟩]

/-- Rows 32 to 68: transactions and their members. -/
def rowsOfTransaction : List Row := [
  /- 32 -/ ⟨[⟨.transactionParametersMembers, 1, afterDeclaration⟩,
      ⟨.transactionParameters, 1, afterDeclaration⟩, ⟨.transactionMembers, 1, afterDeclaration⟩,
      ⟨.transactionBare, 1, afterDeclaration⟩], [(.token .leftParen, 163),
      (.token .leftBrace, 38), (.phrase .parameterList, 33)]⟩,
  /- 33 -/ ⟨[⟨.transactionParametersMembers, 2, afterDeclaration⟩,
      ⟨.transactionParameters, 2, afterDeclaration⟩], [(.token .leftBrace, 34)]⟩,
  /- 34 -/ ⟨[⟨.transactionParametersMembers, 3, afterDeclaration⟩,
      ⟨.transactionParameters, 3, afterDeclaration⟩], [(.token .letWord, 58),
      (.token .varWord, 59), (.token .prepareWord, 60), (.token .preWord, 63),
      (.token .executeWord, 65), (.token .postWord, 67), (.token .pubWord, 144),
      (.token .privWord, 145), (.token .accessWord, 149), (.token .rightBrace, 37),
      (.phrase .transactionMembers, 35), (.phrase .transactionMember, 42),
      (.phrase .fieldDeclaration, 44), (.phrase .variableKind, 54), (.phrase .prepareBlock, 45),
      (.phrase .preBlock, 46), (.phrase .executeBlock, 47), (.phrase .postBlock, 48),
      (.phrase .accessModifier, 49)]⟩,
  /- 35 -/ ⟨[⟨.transactionParametersMembers, 4, afterDeclaration⟩, ⟨.memberNext, 1, afterMember⟩], [
      (.token .letWord, 58), (.token .varWord, 59), (.token .prepareWord, 60),
      (.token .preWord, 63), (.token .executeWord, 65), (.token .postWord, 67),
      (.token .pubWord, 144), (.token .privWord, 145), (.token .accessWord, 149),
      (.token .rightBrace, 36), (.phrase .transactionMember, 43),
      (.phrase .fieldDeclaration, 44), (.phrase .variableKind, 54), (.phrase .prepareBlock, 45),
      (.phrase .preBlock, 46), (.phrase .executeBlock, 47), (.phrase .postBlock, 48),
      (.phrase .accessModifier, 49)]⟩,
  /- 36 -/ ⟨[⟨.transactionParametersMembers, 5, afterDeclaration⟩], []⟩,
  /- 37 -/ ⟨[⟨.transactionParameters, 4, afterDeclaration⟩], []⟩,
  /- 38 -/ ⟨[⟨.transactionMembers, 2, afterDeclaration⟩, ⟨.transactionBare, 2, afterDeclaration⟩], [
      (.token .letWord, 58), (.token .varWord, 59), (.token .prepareWord, 60),
      (.token .preWord, 63), (.token .executeWord, 65), (.token .postWord, 67),
      (.token .pubWord, 144), (.token .privWord, 145), (.token .accessWord, 149),
      (.token .rightBrace, 41), (.phrase .transactionMembers, 39),
      (.phrase .transactionMember, 42), (.phrase .fieldDeclaration, 44),
      (.phrase .variableKind, 54), (.phrase .prepareBlock, 45), (.phrase .preBlock, 46),
      (.phrase .executeBlock, 47), (.phrase .postBlock, 48), (.phrase .accessModifier, 49)]⟩,
  /- 39 -/ ⟨[⟨.transactionMembers, 3, afterDeclaration⟩, ⟨.memberNext, 1, afterMember⟩], [
      (.token .letWord, 58), (.token .varWord, 59), (.token .prepareWord, 60),
      (.token .preWord, 63), (.token .executeWord, 65), (.token .postWord, 67),
      (.token .pubWord, 144), (.token .privWord, 145), (.token .accessWord, 149),
      (.token .rightBrace, 40), (.phrase .transactionMember, 43),
      (.phrase .fieldDeclaration, 44), (.phrase .variableKind, 54), (.phrase .prepareBlock, 45),
      (.phrase .preBlock, 46), (.phrase .executeBlock, 47), (.phrase .postBlock, 48),
      (.phrase .accessModifier, 49)]⟩,
  /- 40 -/ ⟨[⟨.transactionMembers, 4, afterDeclaration⟩], []⟩,
  /- 41 -/ ⟨[⟨.transactionBare, 3, afterDeclaration⟩], []⟩,
  /- 42 -/ ⟨[⟨.memberFirst, 1, afterMember⟩], []⟩,
  /- 43 -/ ⟨[⟨.memberNext, 2, afterMember⟩], []⟩,
  /- 44 -/ ⟨[⟨.memberField, 1, afterMember⟩], []⟩,
  /- 45 -/ ⟨[⟨.memberPrepare, 1, afterMember⟩], []⟩,
  /- 46 -/ ⟨[⟨.memberPre, 1, afterMember⟩], []⟩,
  /- 47 -/ ⟨[⟨.memberExecute, 1, afterMember⟩], []⟩,
  /- 48 -/ ⟨[⟨.memberPost, 1, afterMember⟩], []⟩,
  /- 49 -/ ⟨[⟨.fieldAccess, 1, afterMember⟩], [(.token .letWord, 58), (.token .varWord, 59),
      (.phrase .variableKind, 50)]⟩,
  /- 50 -/ ⟨[⟨.fieldAccess, 2, afterMember⟩], [(.token .name, 51)]⟩,
  /- 51 -/ ⟨[⟨.fieldAccess, 3, afterMember⟩], [(.token .colon, 52)]⟩,
  /- 52 -/ ⟨[⟨.fieldAccess, 4, afterMember⟩], [(.token .name, 275), (.token .funWord, 305),
      (.token .authWord, 291), (.token .atSign, 192), (.token .ampersand, 289),
      (.token .leftParen, 230), (.token .leftBrace, 222), (.token .leftBracket, 216),
      (.phrase .annotatedType, 53), (.phrase .type, 194), (.phrase .postfixType, 202),
      (.phrase .primaryType, 204), (.phrase .nominalType, 206),
      (.phrase .instantiationType, 209), (.phrase .referenceType, 210),
      (.phrase .authorization, 286), (.phrase .functionType, 203)]⟩,
  /- 53 -/ ⟨[⟨.fieldAccess, 5, afterMember⟩], []⟩,
  /- 54 -/ ⟨[⟨.field, 1, afterMember⟩], [(.token .name, 55)]⟩,
  /- 55 -/ ⟨[⟨.field, 2, afterMember⟩], [(.token .colon, 56)]⟩,
  /- 56 -/ ⟨[⟨.field, 3, afterMember⟩], [(.token .name, 275), (.token .funWord, 305),
      (.token .authWord, 291), (.token .atSign, 192), (.token .ampersand, 289),
      (.token .leftParen, 230), (.token .leftBrace, 222), (.token .leftBracket, 216),
      (.phrase .annotatedType, 57), (.phrase .type, 194), (.phrase .postfixType, 202),
      (.phrase .primaryType, 204), (.phrase .nominalType, 206),
      (.phrase .instantiationType, 209), (.phrase .referenceType, 210),
      (.phrase .authorization, 286), (.phrase .functionType, 203)]⟩,
  /- 57 -/ ⟨[⟨.field, 4, afterMember⟩], []⟩,
  /- 58 -/ ⟨[⟨.kindLet, 1, afterVariableKind⟩], []⟩,
  /- 59 -/ ⟨[⟨.kindVar, 1, afterVariableKind⟩], []⟩,
  /- 60 -/ ⟨[⟨.prepare, 1, afterMember⟩], [(.token .leftParen, 163), (.phrase .parameterList, 61)]⟩,
  /- 61 -/ ⟨[⟨.prepare, 2, afterMember⟩], [(.token .leftBrace, 179), (.phrase .block, 62)]⟩,
  /- 62 -/ ⟨[⟨.prepare, 3, afterMember⟩], []⟩,
  /- 63 -/ ⟨[⟨.pre, 1, afterMember⟩], [(.token .leftBrace, 179), (.phrase .block, 64)]⟩,
  /- 64 -/ ⟨[⟨.pre, 2, afterMember⟩], []⟩,
  /- 65 -/ ⟨[⟨.execute, 1, afterMember⟩], [(.token .leftBrace, 179), (.phrase .block, 66)]⟩,
  /- 66 -/ ⟨[⟨.execute, 2, afterMember⟩], []⟩,
  /- 67 -/ ⟨[⟨.post, 1, afterMember⟩], [(.token .leftBrace, 179), (.phrase .block, 68)]⟩,
  /- 68 -/ ⟨[⟨.post, 2, afterMember⟩], []⟩]

/-- Rows 69 to 99: functions. -/
def rowsOfFunction : List Row := [
  /- 69 -/ ⟨[⟨.functionAccessViewResult, 1, afterDeclaration⟩,
      ⟨.functionAccessView, 1, afterDeclaration⟩, ⟨.functionAccessResult, 1, afterDeclaration⟩,
      ⟨.functionAccess, 1, afterDeclaration⟩, ⟨.interfaceAccessConforming, 1, afterDeclaration⟩,
      ⟨.interfaceAccess, 1, afterDeclaration⟩, ⟨.compositeAccessConforming, 1, afterDeclaration⟩,
      ⟨.compositeAccess, 1, afterDeclaration⟩, ⟨.eventAccess, 1, afterDeclaration⟩,
      ⟨.entitlementAccess, 1, afterDeclaration⟩], [(.token .funWord, 78), (.token .viewWord, 70),
      (.token .contractWord, 120), (.token .resourceWord, 121), (.token .structWord, 122),
      (.token .enumWord, 123), (.token .eventWord, 134), (.token .entitlementWord, 140),
      (.phrase .compositeKind, 100)]⟩,
  /- 70 -/ ⟨[⟨.functionAccessViewResult, 2, afterDeclaration⟩,
      ⟨.functionAccessView, 2, afterDeclaration⟩], [(.token .funWord, 71)]⟩,
  /- 71 -/ ⟨[⟨.functionAccessViewResult, 3, afterDeclaration⟩,
      ⟨.functionAccessView, 3, afterDeclaration⟩], [(.token .name, 72)]⟩,
  /- 72 -/ ⟨[⟨.functionAccessViewResult, 4, afterDeclaration⟩,
      ⟨.functionAccessView, 4, afterDeclaration⟩], [(.token .leftParen, 163),
      (.phrase .parameterList, 73)]⟩,
  /- 73 -/ ⟨[⟨.functionAccessViewResult, 5, afterDeclaration⟩,
      ⟨.functionAccessView, 5, afterDeclaration⟩], [(.token .colon, 74),
      (.token .leftBrace, 179), (.phrase .block, 77)]⟩,
  /- 74 -/ ⟨[⟨.functionAccessViewResult, 6, afterDeclaration⟩], [(.token .name, 275),
      (.token .funWord, 237), (.token .authWord, 291), (.token .atSign, 233),
      (.token .ampersand, 256), (.token .leftParen, 272), (.token .leftBrace, 264),
      (.token .leftBracket, 258), (.phrase .annotatedResult, 75), (.phrase .resultType, 235),
      (.phrase .resultPostfix, 236), (.phrase .resultPrimary, 249), (.phrase .nominalType, 251),
      (.phrase .instantiationType, 252), (.phrase .authorization, 253)]⟩,
  /- 75 -/ ⟨[⟨.functionAccessViewResult, 7, afterDeclaration⟩], [(.token .leftBrace, 179),
      (.phrase .block, 76)]⟩,
  /- 76 -/ ⟨[⟨.functionAccessViewResult, 8, afterDeclaration⟩], []⟩,
  /- 77 -/ ⟨[⟨.functionAccessView, 6, afterDeclaration⟩], []⟩,
  /- 78 -/ ⟨[⟨.functionAccessResult, 2, afterDeclaration⟩,
      ⟨.functionAccess, 2, afterDeclaration⟩], [(.token .name, 79)]⟩,
  /- 79 -/ ⟨[⟨.functionAccessResult, 3, afterDeclaration⟩,
      ⟨.functionAccess, 3, afterDeclaration⟩],
    [(.token .leftParen, 163), (.phrase .parameterList, 80)]⟩,
  /- 80 -/ ⟨[⟨.functionAccessResult, 4, afterDeclaration⟩,
      ⟨.functionAccess, 4, afterDeclaration⟩],
    [(.token .colon, 81), (.token .leftBrace, 179), (.phrase .block, 84)]⟩,
  /- 81 -/ ⟨[⟨.functionAccessResult, 5, afterDeclaration⟩], [(.token .name, 275),
      (.token .funWord, 237), (.token .authWord, 291), (.token .atSign, 233),
      (.token .ampersand, 256), (.token .leftParen, 272), (.token .leftBrace, 264),
      (.token .leftBracket, 258), (.phrase .annotatedResult, 82), (.phrase .resultType, 235),
      (.phrase .resultPostfix, 236), (.phrase .resultPrimary, 249), (.phrase .nominalType, 251),
      (.phrase .instantiationType, 252), (.phrase .authorization, 253)]⟩,
  /- 82 -/ ⟨[⟨.functionAccessResult, 6, afterDeclaration⟩], [(.token .leftBrace, 179),
      (.phrase .block, 83)]⟩,
  /- 83 -/ ⟨[⟨.functionAccessResult, 7, afterDeclaration⟩], []⟩,
  /- 84 -/ ⟨[⟨.functionAccess, 5, afterDeclaration⟩], []⟩,
  /- 85 -/ ⟨[⟨.functionViewResult, 1, afterDeclaration⟩, ⟨.functionView, 1, afterDeclaration⟩], [
      (.token .funWord, 86)]⟩,
  /- 86 -/ ⟨[⟨.functionViewResult, 2, afterDeclaration⟩, ⟨.functionView, 2, afterDeclaration⟩], [
      (.token .name, 87)]⟩,
  /- 87 -/ ⟨[⟨.functionViewResult, 3, afterDeclaration⟩, ⟨.functionView, 3, afterDeclaration⟩], [
      (.token .leftParen, 163), (.phrase .parameterList, 88)]⟩,
  /- 88 -/ ⟨[⟨.functionViewResult, 4, afterDeclaration⟩, ⟨.functionView, 4, afterDeclaration⟩], [
      (.token .colon, 89), (.token .leftBrace, 179), (.phrase .block, 92)]⟩,
  /- 89 -/ ⟨[⟨.functionViewResult, 5, afterDeclaration⟩], [(.token .name, 275),
      (.token .funWord, 237), (.token .authWord, 291), (.token .atSign, 233),
      (.token .ampersand, 256), (.token .leftParen, 272), (.token .leftBrace, 264),
      (.token .leftBracket, 258), (.phrase .annotatedResult, 90), (.phrase .resultType, 235),
      (.phrase .resultPostfix, 236), (.phrase .resultPrimary, 249), (.phrase .nominalType, 251),
      (.phrase .instantiationType, 252), (.phrase .authorization, 253)]⟩,
  /- 90 -/ ⟨[⟨.functionViewResult, 6, afterDeclaration⟩], [(.token .leftBrace, 179),
      (.phrase .block, 91)]⟩,
  /- 91 -/ ⟨[⟨.functionViewResult, 7, afterDeclaration⟩], []⟩,
  /- 92 -/ ⟨[⟨.functionView, 5, afterDeclaration⟩], []⟩,
  /- 93 -/ ⟨[⟨.functionResult, 1, afterDeclaration⟩, ⟨.function, 1, afterDeclaration⟩], [
      (.token .name, 94)]⟩,
  /- 94 -/ ⟨[⟨.functionResult, 2, afterDeclaration⟩, ⟨.function, 2, afterDeclaration⟩], [
      (.token .leftParen, 163), (.phrase .parameterList, 95)]⟩,
  /- 95 -/ ⟨[⟨.functionResult, 3, afterDeclaration⟩, ⟨.function, 3, afterDeclaration⟩], [
      (.token .colon, 96), (.token .leftBrace, 179), (.phrase .block, 99)]⟩,
  /- 96 -/ ⟨[⟨.functionResult, 4, afterDeclaration⟩], [(.token .name, 275),
      (.token .funWord, 237), (.token .authWord, 291), (.token .atSign, 233),
      (.token .ampersand, 256), (.token .leftParen, 272), (.token .leftBrace, 264),
      (.token .leftBracket, 258), (.phrase .annotatedResult, 97), (.phrase .resultType, 235),
      (.phrase .resultPostfix, 236), (.phrase .resultPrimary, 249), (.phrase .nominalType, 251),
      (.phrase .instantiationType, 252), (.phrase .authorization, 253)]⟩,
  /- 97 -/ ⟨[⟨.functionResult, 5, afterDeclaration⟩], [(.token .leftBrace, 179),
      (.phrase .block, 98)]⟩,
  /- 98 -/ ⟨[⟨.functionResult, 6, afterDeclaration⟩], []⟩,
  /- 99 -/ ⟨[⟨.function, 4, afterDeclaration⟩], []⟩]

/-- Rows 100 to 143: composites, events and entitlements. -/
def rowsOfComposite : List Row := [
  /- 100 -/ ⟨[⟨.interfaceAccessConforming, 2, afterDeclaration⟩,
      ⟨.interfaceAccess, 2, afterDeclaration⟩, ⟨.compositeAccessConforming, 2, afterDeclaration⟩,
      ⟨.compositeAccess, 2, afterDeclaration⟩], [(.token .name, 106),
      (.token .interfaceWord, 101)]⟩,
  /- 101 -/ ⟨[⟨.interfaceAccessConforming, 3, afterDeclaration⟩,
      ⟨.interfaceAccess, 3, afterDeclaration⟩], [(.token .name, 102)]⟩,
  /- 102 -/ ⟨[⟨.interfaceAccessConforming, 4, afterDeclaration⟩,
      ⟨.interfaceAccess, 4, afterDeclaration⟩], [(.token .colon, 124), (.token .leftBrace, 179),
      (.phrase .conformances, 103), (.phrase .block, 105)]⟩,
  /- 103 -/ ⟨[⟨.interfaceAccessConforming, 5, afterDeclaration⟩], [(.token .leftBrace, 179),
      (.phrase .block, 104)]⟩,
  /- 104 -/ ⟨[⟨.interfaceAccessConforming, 6, afterDeclaration⟩], []⟩,
  /- 105 -/ ⟨[⟨.interfaceAccess, 5, afterDeclaration⟩], []⟩,
  /- 106 -/ ⟨[⟨.compositeAccessConforming, 3, afterDeclaration⟩,
      ⟨.compositeAccess, 3, afterDeclaration⟩], [(.token .colon, 124), (.token .leftBrace, 179),
      (.phrase .conformances, 107), (.phrase .block, 109)]⟩,
  /- 107 -/ ⟨[⟨.compositeAccessConforming, 4, afterDeclaration⟩], [(.token .leftBrace, 179),
      (.phrase .block, 108)]⟩,
  /- 108 -/ ⟨[⟨.compositeAccessConforming, 5, afterDeclaration⟩], []⟩,
  /- 109 -/ ⟨[⟨.compositeAccess, 4, afterDeclaration⟩], []⟩,
  /- 110 -/ ⟨[⟨.interfaceConforming, 1, afterDeclaration⟩, ⟨.interface, 1, afterDeclaration⟩,
      ⟨.compositeConforming, 1, afterDeclaration⟩, ⟨.composite, 1, afterDeclaration⟩], [
      (.token .name, 116), (.token .interfaceWord, 111)]⟩,
  /- 111 -/ ⟨[⟨.interfaceConforming, 2, afterDeclaration⟩, ⟨.interface, 2, afterDeclaration⟩], [
      (.token .name, 112)]⟩,
  /- 112 -/ ⟨[⟨.interfaceConforming, 3, afterDeclaration⟩, ⟨.interface, 3, afterDeclaration⟩], [
      (.token .colon, 124), (.token .leftBrace, 179), (.phrase .conformances, 113),
      (.phrase .block, 115)]⟩,
  /- 113 -/ ⟨[⟨.interfaceConforming, 4, afterDeclaration⟩], [(.token .leftBrace, 179),
      (.phrase .block, 114)]⟩,
  /- 114 -/ ⟨[⟨.interfaceConforming, 5, afterDeclaration⟩], []⟩,
  /- 115 -/ ⟨[⟨.interface, 4, afterDeclaration⟩], []⟩,
  /- 116 -/ ⟨[⟨.compositeConforming, 2, afterDeclaration⟩, ⟨.composite, 2, afterDeclaration⟩], [
      (.token .colon, 124), (.token .leftBrace, 179), (.phrase .conformances, 117),
      (.phrase .block, 119)]⟩,
  /- 117 -/ ⟨[⟨.compositeConforming, 3, afterDeclaration⟩], [(.token .leftBrace, 179),
      (.phrase .block, 118)]⟩,
  /- 118 -/ ⟨[⟨.compositeConforming, 4, afterDeclaration⟩], []⟩,
  /- 119 -/ ⟨[⟨.composite, 3, afterDeclaration⟩], []⟩,
  /- 120 -/ ⟨[⟨.kindContract, 1, afterCompositeKind⟩], []⟩,
  /- 121 -/ ⟨[⟨.kindResource, 1, afterCompositeKind⟩], []⟩,
  /- 122 -/ ⟨[⟨.kindStruct, 1, afterCompositeKind⟩], []⟩,
  /- 123 -/ ⟨[⟨.kindEnum, 1, afterCompositeKind⟩], []⟩,
  /- 124 -/ ⟨[⟨.conformancesMany, 1, afterResult⟩, ⟨.conformancesOne, 1, afterResult⟩], [
      (.token .name, 275), (.phrase .nominalType, 125)]⟩,
  /- 125 -/ ⟨[⟨.conformancesMany, 2, afterResult⟩, ⟨.conformancesOne, 2, afterResult⟩], [
      (.token .comma, 127), (.phrase .moreNominals, 126)]⟩,
  /- 126 -/ ⟨[⟨.conformancesMany, 3, afterResult⟩, ⟨.nominalNext, 1, afterConformance⟩], [
      (.token .comma, 132)]⟩,
  /- 127 -/ ⟨[⟨.nominalFirst, 1, afterListedNominal⟩], [(.token .name, 275),
      (.phrase .nominalType, 128)]⟩,
  /- 128 -/ ⟨[⟨.nominalFirst, 2, afterListedNominal⟩], []⟩,
  /- 129 -/ ⟨[⟨.nominalNext, 1, afterInterface⟩, ⟨.primaryIntersectionMany, 3, afterPostfix⟩], [
      (.token .comma, 132), (.token .rightBrace, 227)]⟩,
  /- 130 -/ ⟨[⟨.nominalNext, 1, afterInterface⟩, ⟨.restrictedMany, 4, afterPostfix⟩], [
      (.token .comma, 132), (.token .rightBrace, 213)]⟩,
  /- 131 -/ ⟨[⟨.nominalNext, 1, afterInterface⟩,
      ⟨.resultIntersectionMany, 3, afterResultPostfix⟩],
    [(.token .comma, 132), (.token .rightBrace, 269)]⟩,
  /- 132 -/ ⟨[⟨.nominalNext, 2, afterListedNominal⟩], [(.token .name, 275),
      (.phrase .nominalType, 133)]⟩,
  /- 133 -/ ⟨[⟨.nominalNext, 3, afterListedNominal⟩], []⟩,
  /- 134 -/ ⟨[⟨.eventAccess, 2, afterDeclaration⟩], [(.token .name, 135)]⟩,
  /- 135 -/ ⟨[⟨.eventAccess, 3, afterDeclaration⟩], [(.token .leftParen, 163),
      (.phrase .parameterList, 136)]⟩,
  /- 136 -/ ⟨[⟨.eventAccess, 4, afterDeclaration⟩], []⟩,
  /- 137 -/ ⟨[⟨.event, 1, afterDeclaration⟩], [(.token .name, 138)]⟩,
  /- 138 -/ ⟨[⟨.event, 2, afterDeclaration⟩], [(.token .leftParen, 163),
      (.phrase .parameterList, 139)]⟩,
  /- 139 -/ ⟨[⟨.event, 3, afterDeclaration⟩], []⟩,
  /- 140 -/ ⟨[⟨.entitlementAccess, 2, afterDeclaration⟩], [(.token .name, 141)]⟩,
  /- 141 -/ ⟨[⟨.entitlementAccess, 3, afterDeclaration⟩], []⟩,
  /- 142 -/ ⟨[⟨.entitlement, 1, afterDeclaration⟩], [(.token .name, 143)]⟩,
  /- 143 -/ ⟨[⟨.entitlement, 2, afterDeclaration⟩], []⟩]

/-- Rows 144 to 162: access modifiers. -/
def rowsOfAccess : List Row := [
  /- 144 -/ ⟨[⟨.accessPub, 1, afterAccess⟩, ⟨.accessPubSet, 1, afterAccess⟩], [
      (.token .leftParen, 146)]⟩,
  /- 145 -/ ⟨[⟨.accessPriv, 1, afterAccess⟩], []⟩,
  /- 146 -/ ⟨[⟨.accessPubSet, 2, afterAccess⟩], [(.token .setWord, 147)]⟩,
  /- 147 -/ ⟨[⟨.accessPubSet, 3, afterAccess⟩], [(.token .rightParen, 148)]⟩,
  /- 148 -/ ⟨[⟨.accessPubSet, 4, afterAccess⟩], []⟩,
  /- 149 -/ ⟨[⟨.accessNamesMany, 1, afterAccess⟩, ⟨.accessNamesOne, 1, afterAccess⟩], [
      (.token .leftParen, 150)]⟩,
  /- 150 -/ ⟨[⟨.accessNamesMany, 2, afterAccess⟩, ⟨.accessNamesOne, 2, afterAccess⟩], [
      (.token .name, 151)]⟩,
  /- 151 -/ ⟨[⟨.accessNamesMany, 3, afterAccess⟩, ⟨.accessNamesOne, 3, afterAccess⟩], [
      (.token .comma, 155), (.token .bar, 157), (.token .rightParen, 154),
      (.phrase .moreAccessNames, 152)]⟩,
  /- 152 -/ ⟨[⟨.accessNamesMany, 4, afterAccess⟩, ⟨.accessCommaNext, 1, afterAccessName⟩,
      ⟨.accessBarNext, 1, afterAccessName⟩], [(.token .comma, 159), (.token .bar, 161),
      (.token .rightParen, 153)]⟩,
  /- 153 -/ ⟨[⟨.accessNamesMany, 5, afterAccess⟩], []⟩,
  /- 154 -/ ⟨[⟨.accessNamesOne, 4, afterAccess⟩], []⟩,
  /- 155 -/ ⟨[⟨.accessCommaFirst, 1, afterAccessName⟩], [(.token .name, 156)]⟩,
  /- 156 -/ ⟨[⟨.accessCommaFirst, 2, afterAccessName⟩], []⟩,
  /- 157 -/ ⟨[⟨.accessBarFirst, 1, afterAccessName⟩], [(.token .name, 158)]⟩,
  /- 158 -/ ⟨[⟨.accessBarFirst, 2, afterAccessName⟩], []⟩,
  /- 159 -/ ⟨[⟨.accessCommaNext, 2, afterAccessName⟩], [(.token .name, 160)]⟩,
  /- 160 -/ ⟨[⟨.accessCommaNext, 3, afterAccessName⟩], []⟩,
  /- 161 -/ ⟨[⟨.accessBarNext, 2, afterAccessName⟩], [(.token .name, 162)]⟩,
  /- 162 -/ ⟨[⟨.accessBarNext, 3, afterAccessName⟩], []⟩]

/-- Rows 163 to 178: parameter lists. -/
def rowsOfParameter : List Row := [
  /- 163 -/ ⟨[⟨.parametersMany, 1, afterParameters⟩, ⟨.parametersOne, 1, afterParameters⟩,
      ⟨.parametersNone, 1, afterParameters⟩], [(.token .name, 173), (.token .rightParen, 168),
      (.phrase .parameter, 164)]⟩,
  /- 164 -/ ⟨[⟨.parametersMany, 2, afterParameters⟩, ⟨.parametersOne, 2, afterParameters⟩], [
      (.token .comma, 169), (.token .rightParen, 167), (.phrase .moreParameters, 165)]⟩,
  /- 165 -/ ⟨[⟨.parametersMany, 3, afterParameters⟩, ⟨.parameterNext, 1, afterParameter⟩], [
      (.token .comma, 171), (.token .rightParen, 166)]⟩,
  /- 166 -/ ⟨[⟨.parametersMany, 4, afterParameters⟩], []⟩,
  /- 167 -/ ⟨[⟨.parametersOne, 3, afterParameters⟩], []⟩,
  /- 168 -/ ⟨[⟨.parametersNone, 2, afterParameters⟩], []⟩,
  /- 169 -/ ⟨[⟨.parameterFirst, 1, afterParameter⟩], [(.token .name, 173),
      (.phrase .parameter, 170)]⟩,
  /- 170 -/ ⟨[⟨.parameterFirst, 2, afterParameter⟩], []⟩,
  /- 171 -/ ⟨[⟨.parameterNext, 2, afterParameter⟩], [(.token .name, 173),
      (.phrase .parameter, 172)]⟩,
  /- 172 -/ ⟨[⟨.parameterNext, 3, afterParameter⟩], []⟩,
  /- 173 -/ ⟨[⟨.parameter, 1, afterParameter⟩, ⟨.parameterLabeled, 1, afterParameter⟩], [
      (.token .name, 176), (.token .colon, 174)]⟩,
  /- 174 -/ ⟨[⟨.parameter, 2, afterParameter⟩], [(.token .name, 275), (.token .funWord, 305),
      (.token .authWord, 291), (.token .atSign, 192), (.token .ampersand, 289),
      (.token .leftParen, 230), (.token .leftBrace, 222), (.token .leftBracket, 216),
      (.phrase .annotatedType, 175), (.phrase .type, 194), (.phrase .postfixType, 202),
      (.phrase .primaryType, 204), (.phrase .nominalType, 206),
      (.phrase .instantiationType, 209), (.phrase .referenceType, 210),
      (.phrase .authorization, 286), (.phrase .functionType, 203)]⟩,
  /- 175 -/ ⟨[⟨.parameter, 3, afterParameter⟩], []⟩,
  /- 176 -/ ⟨[⟨.parameterLabeled, 2, afterParameter⟩], [(.token .colon, 177)]⟩,
  /- 177 -/ ⟨[⟨.parameterLabeled, 3, afterParameter⟩], [(.token .name, 275),
      (.token .funWord, 305), (.token .authWord, 291), (.token .atSign, 192),
      (.token .ampersand, 289), (.token .leftParen, 230), (.token .leftBrace, 222),
      (.token .leftBracket, 216), (.phrase .annotatedType, 178), (.phrase .type, 194),
      (.phrase .postfixType, 202), (.phrase .primaryType, 204), (.phrase .nominalType, 206),
      (.phrase .instantiationType, 209), (.phrase .referenceType, 210),
      (.phrase .authorization, 286), (.phrase .functionType, 203)]⟩,
  /- 178 -/ ⟨[⟨.parameterLabeled, 4, afterParameter⟩], []⟩]

/-- Rows 179 to 191: bodies. -/
def rowsOfBlock : List Row := [
  /- 179 -/ ⟨[⟨.blockItems, 1, afterBlock⟩, ⟨.blockEmpty, 1, afterBlock⟩], [
      (.token .string, 190), (.token .statement, 191), (.token .leftBrace, 183),
      (.token .rightBrace, 182), (.phrase .nestedBlock, 189), (.phrase .blockItems, 180),
      (.phrase .blockItem, 187)]⟩,
  /- 180 -/ ⟨[⟨.blockItems, 2, afterBlock⟩, ⟨.blockItemNext, 1, afterBodyItem⟩], [
      (.token .string, 190), (.token .statement, 191), (.token .leftBrace, 183),
      (.token .rightBrace, 181), (.phrase .nestedBlock, 189), (.phrase .blockItem, 188)]⟩,
  /- 181 -/ ⟨[⟨.blockItems, 3, afterBlock⟩], []⟩,
  /- 182 -/ ⟨[⟨.blockEmpty, 2, afterBlock⟩], []⟩,
  /- 183 -/ ⟨[⟨.nestedItems, 1, afterBodyItem⟩, ⟨.nestedEmpty, 1, afterBodyItem⟩], [
      (.token .string, 190), (.token .statement, 191), (.token .leftBrace, 183),
      (.token .rightBrace, 186), (.phrase .nestedBlock, 189), (.phrase .blockItems, 184),
      (.phrase .blockItem, 187)]⟩,
  /- 184 -/ ⟨[⟨.nestedItems, 2, afterBodyItem⟩, ⟨.blockItemNext, 1, afterBodyItem⟩], [
      (.token .string, 190), (.token .statement, 191), (.token .leftBrace, 183),
      (.token .rightBrace, 185), (.phrase .nestedBlock, 189), (.phrase .blockItem, 188)]⟩,
  /- 185 -/ ⟨[⟨.nestedItems, 3, afterBodyItem⟩], []⟩,
  /- 186 -/ ⟨[⟨.nestedEmpty, 2, afterBodyItem⟩], []⟩,
  /- 187 -/ ⟨[⟨.blockItemFirst, 1, afterBodyItem⟩], []⟩,
  /- 188 -/ ⟨[⟨.blockItemNext, 2, afterBodyItem⟩], []⟩,
  /- 189 -/ ⟨[⟨.itemNested, 1, afterBodyItem⟩], []⟩,
  /- 190 -/ ⟨[⟨.itemString, 1, afterBodyItem⟩], []⟩,
  /- 191 -/ ⟨[⟨.itemStatement, 1, afterBodyItem⟩], []⟩]

/-- Rows 192 to 201: annotated types and lists of them. -/
def rowsOfAnnotated : List Row := [
  /- 192 -/ ⟨[⟨.annotationResource, 1, afterType⟩], [(.token .name, 275), (.token .funWord, 305),
      (.token .authWord, 291), (.token .ampersand, 289), (.token .leftParen, 230),
      (.token .leftBrace, 222), (.token .leftBracket, 216), (.phrase .type, 193),
      (.phrase .postfixType, 202), (.phrase .primaryType, 204), (.phrase .nominalType, 206),
      (.phrase .instantiationType, 209), (.phrase .referenceType, 210),
      (.phrase .authorization, 286), (.phrase .functionType, 203)]⟩,
  /- 193 -/ ⟨[⟨.annotationResource, 2, afterType⟩], []⟩,
  /- 194 -/ ⟨[⟨.annotationPlain, 1, afterType⟩], []⟩,
  /- 195 -/ ⟨[⟨.annotationFirst, 1, afterArgument⟩], [(.token .name, 275),
      (.token .funWord, 305), (.token .authWord, 291), (.token .atSign, 192),
      (.token .ampersand, 289), (.token .leftParen, 230), (.token .leftBrace, 222),
      (.token .leftBracket, 216), (.phrase .annotatedType, 196), (.phrase .type, 194),
      (.phrase .postfixType, 202), (.phrase .primaryType, 204), (.phrase .nominalType, 206),
      (.phrase .instantiationType, 209), (.phrase .referenceType, 210),
      (.phrase .authorization, 286), (.phrase .functionType, 203)]⟩,
  /- 196 -/ ⟨[⟨.annotationFirst, 2, afterArgument⟩], []⟩,
  /- 197 -/ ⟨[⟨.annotationNext, 1, afterParameter⟩, ⟨.functionTypeMany, 4, afterType⟩], [
      (.token .comma, 200), (.token .rightParen, 308)]⟩,
  /- 198 -/ ⟨[⟨.annotationNext, 1, afterFirstArgument⟩, ⟨.instantiationMany, 4, afterArguments⟩], [
      (.token .comma, 200), (.token .greater, 283)]⟩,
  /- 199 -/ ⟨[⟨.annotationNext, 1, afterParameter⟩, ⟨.resultFunctionMany, 4, afterResult⟩], [
      (.token .comma, 200), (.token .rightParen, 240)]⟩,
  /- 200 -/ ⟨[⟨.annotationNext, 2, afterArgument⟩], [(.token .name, 275), (.token .funWord, 305),
      (.token .authWord, 291), (.token .atSign, 192), (.token .ampersand, 289),
      (.token .leftParen, 230), (.token .leftBrace, 222), (.token .leftBracket, 216),
      (.phrase .annotatedType, 201), (.phrase .type, 194), (.phrase .postfixType, 202),
      (.phrase .primaryType, 204), (.phrase .nominalType, 206),
      (.phrase .instantiationType, 209), (.phrase .referenceType, 210),
      (.phrase .authorization, 286), (.phrase .functionType, 203)]⟩,
  /- 201 -/ ⟨[⟨.annotationNext, 3, afterArgument⟩], []⟩]

/-- Rows 202 to 232: types. -/
def rowsOfType : List Row := [
  /- 202 -/ ⟨[⟨.typePostfix, 1, afterType⟩, ⟨.postfixOptional, 1, afterPostfix⟩], [
      (.token .question, 205)]⟩,
  /- 203 -/ ⟨[⟨.typeFunction, 1, afterType⟩], []⟩,
  /- 204 -/ ⟨[⟨.postfixPrimary, 1, afterPostfix⟩], []⟩,
  /- 205 -/ ⟨[⟨.postfixOptional, 2, afterPostfix⟩], []⟩,
  /- 206 -/ ⟨[⟨.primaryNominal, 1, afterPostfix⟩, ⟨.restrictedMany, 1, afterPostfix⟩,
      ⟨.restrictedOne, 1, afterPostfix⟩, ⟨.restrictedNone, 1, afterPostfix⟩,
      ⟨.instantiationMany, 1, afterPostfix⟩, ⟨.instantiationOne, 1, afterPostfix⟩,
      ⟨.instantiationNone, 1, afterPostfix⟩], [(.token .leftBrace, 211), (.token .less, 281)]⟩,
  /- 207 -/ ⟨[⟨.primaryNominal, 1, afterKeyType⟩, ⟨.restrictedMany, 1, afterKeyType⟩,
      ⟨.restrictedOne, 1, afterKeyType⟩, ⟨.restrictedNone, 1, afterKeyType⟩,
      ⟨.primaryIntersectionMany, 2, afterPostfix⟩, ⟨.primaryIntersectionOne, 2, afterPostfix⟩,
      ⟨.instantiationMany, 1, afterKeyType⟩, ⟨.instantiationOne, 1, afterKeyType⟩,
      ⟨.instantiationNone, 1, afterKeyType⟩], [(.token .comma, 127), (.token .leftBrace, 211),
      (.token .rightBrace, 228), (.token .less, 281), (.phrase .moreNominals, 129)]⟩,
  /- 208 -/ ⟨[⟨.primaryNominal, 1, afterKeyType⟩, ⟨.restrictedMany, 1, afterKeyType⟩,
      ⟨.restrictedOne, 1, afterKeyType⟩, ⟨.restrictedNone, 1, afterKeyType⟩,
      ⟨.resultIntersectionMany, 2, afterResultPostfix⟩,
      ⟨.resultIntersectionOne, 2, afterResultPostfix⟩, ⟨.instantiationMany, 1, afterKeyType⟩,
      ⟨.instantiationOne, 1, afterKeyType⟩, ⟨.instantiationNone, 1, afterKeyType⟩], [
      (.token .comma, 127), (.token .leftBrace, 211), (.token .rightBrace, 270),
      (.token .less, 281), (.phrase .moreNominals, 131)]⟩,
  /- 209 -/ ⟨[⟨.primaryInstantiation, 1, afterPostfix⟩], []⟩,
  /- 210 -/ ⟨[⟨.primaryReference, 1, afterPostfix⟩], []⟩,
  /- 211 -/ ⟨[⟨.restrictedMany, 2, afterPostfix⟩, ⟨.restrictedOne, 2, afterPostfix⟩,
      ⟨.restrictedNone, 2, afterPostfix⟩], [(.token .name, 275), (.token .rightBrace, 215),
      (.phrase .nominalType, 212)]⟩,
  /- 212 -/ ⟨[⟨.restrictedMany, 3, afterPostfix⟩, ⟨.restrictedOne, 3, afterPostfix⟩], [
      (.token .comma, 127), (.token .rightBrace, 214), (.phrase .moreNominals, 130)]⟩,
  /- 213 -/ ⟨[⟨.restrictedMany, 5, afterPostfix⟩], []⟩,
  /- 214 -/ ⟨[⟨.restrictedOne, 4, afterPostfix⟩], []⟩,
  /- 215 -/ ⟨[⟨.restrictedNone, 3, afterPostfix⟩], []⟩,
  /- 216 -/ ⟨[⟨.primaryArray, 1, afterPostfix⟩, ⟨.primarySizedArray, 1, afterPostfix⟩], [
      (.token .name, 275), (.token .funWord, 305), (.token .authWord, 291),
      (.token .ampersand, 289), (.token .leftParen, 230), (.token .leftBrace, 222),
      (.token .leftBracket, 216), (.phrase .type, 217), (.phrase .postfixType, 202),
      (.phrase .primaryType, 204), (.phrase .nominalType, 206),
      (.phrase .instantiationType, 209), (.phrase .referenceType, 210),
      (.phrase .authorization, 286), (.phrase .functionType, 203)]⟩,
  /- 217 -/ ⟨[⟨.primaryArray, 2, afterPostfix⟩, ⟨.primarySizedArray, 2, afterPostfix⟩], [
      (.token .semicolon, 219), (.token .rightBracket, 218)]⟩,
  /- 218 -/ ⟨[⟨.primaryArray, 3, afterPostfix⟩], []⟩,
  /- 219 -/ ⟨[⟨.primarySizedArray, 3, afterPostfix⟩], [(.token .integer, 220)]⟩,
  /- 220 -/ ⟨[⟨.primarySizedArray, 4, afterPostfix⟩], [(.token .rightBracket, 221)]⟩,
  /- 221 -/ ⟨[⟨.primarySizedArray, 5, afterPostfix⟩], []⟩,
  /- 222 -/ ⟨[⟨.primaryDictionary, 1, afterPostfix⟩, ⟨.primaryIntersectionMany, 1, afterPostfix⟩,
      ⟨.primaryIntersectionOne, 1, afterPostfix⟩, ⟨.primaryIntersectionNone, 1, afterPostfix⟩], [
      (.token .name, 275), (.token .funWord, 305), (.token .authWord, 291),
      (.token .ampersand, 289), (.token .leftParen, 230), (.token .leftBrace, 222),
      (.token .rightBrace, 229), (.token .leftBracket, 216), (.phrase .type, 223),
      (.phrase .postfixType, 202), (.phrase .primaryType, 204), (.phrase .nominalType, 207),
      (.phrase .instantiationType, 209), (.phrase .referenceType, 210),
      (.phrase .authorization, 286), (.phrase .functionType, 203)]⟩,
  /- 223 -/ ⟨[⟨.primaryDictionary, 2, afterPostfix⟩], [(.token .colon, 224)]⟩,
  /- 224 -/ ⟨[⟨.primaryDictionary, 3, afterPostfix⟩], [(.token .name, 275),
      (.token .funWord, 305), (.token .authWord, 291), (.token .ampersand, 289),
      (.token .leftParen, 230), (.token .leftBrace, 222), (.token .leftBracket, 216),
      (.phrase .type, 225), (.phrase .postfixType, 202), (.phrase .primaryType, 204),
      (.phrase .nominalType, 206), (.phrase .instantiationType, 209),
      (.phrase .referenceType, 210), (.phrase .authorization, 286), (.phrase .functionType, 203)]⟩,
  /- 225 -/ ⟨[⟨.primaryDictionary, 4, afterPostfix⟩], [(.token .rightBrace, 226)]⟩,
  /- 226 -/ ⟨[⟨.primaryDictionary, 5, afterPostfix⟩], []⟩,
  /- 227 -/ ⟨[⟨.primaryIntersectionMany, 4, afterPostfix⟩], []⟩,
  /- 228 -/ ⟨[⟨.primaryIntersectionOne, 3, afterPostfix⟩], []⟩,
  /- 229 -/ ⟨[⟨.primaryIntersectionNone, 2, afterPostfix⟩], []⟩,
  /- 230 -/ ⟨[⟨.primaryGroup, 1, afterPostfix⟩], [(.token .name, 275), (.token .funWord, 305),
      (.token .authWord, 291), (.token .ampersand, 289), (.token .leftParen, 230),
      (.token .leftBrace, 222), (.token .leftBracket, 216), (.phrase .type, 231),
      (.phrase .postfixType, 202), (.phrase .primaryType, 204), (.phrase .nominalType, 206),
      (.phrase .instantiationType, 209), (.phrase .referenceType, 210),
      (.phrase .authorization, 286), (.phrase .functionType, 203)]⟩,
  /- 231 -/ ⟨[⟨.primaryGroup, 2, afterPostfix⟩], [(.token .rightParen, 232)]⟩,
  /- 232 -/ ⟨[⟨.primaryGroup, 3, afterPostfix⟩], []⟩]

/-- Rows 233 to 274: result types. -/
def rowsOfResult : List Row := [
  /- 233 -/ ⟨[⟨.resultResource, 1, afterResult⟩], [(.token .name, 275), (.token .funWord, 237),
      (.token .authWord, 291), (.token .ampersand, 256), (.token .leftParen, 272),
      (.token .leftBrace, 264), (.token .leftBracket, 258), (.phrase .resultType, 234),
      (.phrase .resultPostfix, 236), (.phrase .resultPrimary, 249), (.phrase .nominalType, 251),
      (.phrase .instantiationType, 252), (.phrase .authorization, 253)]⟩,
  /- 234 -/ ⟨[⟨.resultResource, 2, afterResult⟩], []⟩,
  /- 235 -/ ⟨[⟨.resultPlain, 1, afterResult⟩], []⟩,
  /- 236 -/ ⟨[⟨.resultPostfix, 1, afterResult⟩, ⟨.resultOptional, 1, afterResultPostfix⟩], [
      (.token .question, 250)]⟩,
  /- 237 -/ ⟨[⟨.resultFunctionMany, 1, afterResult⟩, ⟨.resultFunctionOne, 1, afterResult⟩,
      ⟨.resultFunctionNone, 1, afterResult⟩], [(.token .leftParen, 238)]⟩,
  /- 238 -/ ⟨[⟨.resultFunctionMany, 2, afterResult⟩, ⟨.resultFunctionOne, 2, afterResult⟩,
      ⟨.resultFunctionNone, 2, afterResult⟩], [(.token .name, 275), (.token .funWord, 305),
      (.token .authWord, 291), (.token .atSign, 192), (.token .ampersand, 289),
      (.token .leftParen, 230), (.token .rightParen, 246), (.token .leftBrace, 222),
      (.token .leftBracket, 216), (.phrase .annotatedType, 239), (.phrase .type, 194),
      (.phrase .postfixType, 202), (.phrase .primaryType, 204), (.phrase .nominalType, 206),
      (.phrase .instantiationType, 209), (.phrase .referenceType, 210),
      (.phrase .authorization, 286), (.phrase .functionType, 203)]⟩,
  /- 239 -/ ⟨[⟨.resultFunctionMany, 3, afterResult⟩, ⟨.resultFunctionOne, 3, afterResult⟩], [
      (.token .comma, 195), (.token .rightParen, 243), (.phrase .moreAnnotatedTypes, 199)]⟩,
  /- 240 -/ ⟨[⟨.resultFunctionMany, 5, afterResult⟩], [(.token .colon, 241)]⟩,
  /- 241 -/ ⟨[⟨.resultFunctionMany, 6, afterResult⟩], [(.token .name, 275),
      (.token .funWord, 237), (.token .authWord, 291), (.token .atSign, 233),
      (.token .ampersand, 256), (.token .leftParen, 272), (.token .leftBrace, 264),
      (.token .leftBracket, 258), (.phrase .annotatedResult, 242), (.phrase .resultType, 235),
      (.phrase .resultPostfix, 236), (.phrase .resultPrimary, 249), (.phrase .nominalType, 251),
      (.phrase .instantiationType, 252), (.phrase .authorization, 253)]⟩,
  /- 242 -/ ⟨[⟨.resultFunctionMany, 7, afterResult⟩], []⟩,
  /- 243 -/ ⟨[⟨.resultFunctionOne, 4, afterResult⟩], [(.token .colon, 244)]⟩,
  /- 244 -/ ⟨[⟨.resultFunctionOne, 5, afterResult⟩], [(.token .name, 275),
      (.token .funWord, 237), (.token .authWord, 291), (.token .atSign, 233),
      (.token .ampersand, 256), (.token .leftParen, 272), (.token .leftBrace, 264),
      (.token .leftBracket, 258), (.phrase .annotatedResult, 245), (.phrase .resultType, 235),
      (.phrase .resultPostfix, 236), (.phrase .resultPrimary, 249), (.phrase .nominalType, 251),
      (.phrase .instantiationType, 252), (.phrase .authorization, 253)]⟩,
  /- 245 -/ ⟨[⟨.resultFunctionOne, 6, afterResult⟩], []⟩,
  /- 246 -/ ⟨[⟨.resultFunctionNone, 3, afterResult⟩], [(.token .colon, 247)]⟩,
  /- 247 -/ ⟨[⟨.resultFunctionNone, 4, afterResult⟩], [(.token .name, 275),
      (.token .funWord, 237), (.token .authWord, 291), (.token .atSign, 233),
      (.token .ampersand, 256), (.token .leftParen, 272), (.token .leftBrace, 264),
      (.token .leftBracket, 258), (.phrase .annotatedResult, 248), (.phrase .resultType, 235),
      (.phrase .resultPostfix, 236), (.phrase .resultPrimary, 249), (.phrase .nominalType, 251),
      (.phrase .instantiationType, 252), (.phrase .authorization, 253)]⟩,
  /- 248 -/ ⟨[⟨.resultFunctionNone, 5, afterResult⟩], []⟩,
  /- 249 -/ ⟨[⟨.resultPrimary, 1, afterResultPostfix⟩], []⟩,
  /- 250 -/ ⟨[⟨.resultOptional, 2, afterResultPostfix⟩], []⟩,
  /- 251 -/ ⟨[⟨.resultNominal, 1, afterResultPostfix⟩,
      ⟨.instantiationMany, 1, afterResultPostfix⟩, ⟨.instantiationOne, 1, afterResultPostfix⟩,
      ⟨.instantiationNone, 1, afterResultPostfix⟩], [(.token .less, 281)]⟩,
  /- 252 -/ ⟨[⟨.resultInstantiation, 1, afterResultPostfix⟩], []⟩,
  /- 253 -/ ⟨[⟨.resultAuthorizedReference, 1, afterResultPostfix⟩], [(.token .ampersand, 254)]⟩,
  /- 254 -/ ⟨[⟨.resultAuthorizedReference, 2, afterResultPostfix⟩], [(.token .name, 275),
      (.token .authWord, 291), (.token .ampersand, 256), (.token .leftParen, 272),
      (.token .leftBrace, 264), (.token .leftBracket, 258), (.phrase .resultPrimary, 255),
      (.phrase .nominalType, 251), (.phrase .instantiationType, 252),
      (.phrase .authorization, 253)]⟩,
  /- 255 -/ ⟨[⟨.resultAuthorizedReference, 3, afterResultPostfix⟩], []⟩,
  /- 256 -/ ⟨[⟨.resultReference, 1, afterResultPostfix⟩], [(.token .name, 275),
      (.token .authWord, 291), (.token .ampersand, 256), (.token .leftParen, 272),
      (.token .leftBrace, 264), (.token .leftBracket, 258), (.phrase .resultPrimary, 257),
      (.phrase .nominalType, 251), (.phrase .instantiationType, 252),
      (.phrase .authorization, 253)]⟩,
  /- 257 -/ ⟨[⟨.resultReference, 2, afterResultPostfix⟩], []⟩,
  /- 258 -/ ⟨[⟨.resultArray, 1, afterResultPostfix⟩, ⟨.resultSizedArray, 1, afterResultPostfix⟩], [
      (.token .name, 275), (.token .funWord, 305), (.token .authWord, 291),
      (.token .ampersand, 289), (.token .leftParen, 230), (.token .leftBrace, 222),
      (.token .leftBracket, 216), (.phrase .type, 259), (.phrase .postfixType, 202),
      (.phrase .primaryType, 204), (.phrase .nominalType, 206),
      (.phrase .instantiationType, 209), (.phrase .referenceType, 210),
      (.phrase .authorization, 286), (.phrase .functionType, 203)]⟩,
  /- 259 -/ ⟨[⟨.resultArray, 2, afterResultPostfix⟩, ⟨.resultSizedArray, 2, afterResultPostfix⟩], [
      (.token .semicolon, 261), (.token .rightBracket, 260)]⟩,
  /- 260 -/ ⟨[⟨.resultArray, 3, afterResultPostfix⟩], []⟩,
  /- 261 -/ ⟨[⟨.resultSizedArray, 3, afterResultPostfix⟩], [(.token .integer, 262)]⟩,
  /- 262 -/ ⟨[⟨.resultSizedArray, 4, afterResultPostfix⟩], [(.token .rightBracket, 263)]⟩,
  /- 263 -/ ⟨[⟨.resultSizedArray, 5, afterResultPostfix⟩], []⟩,
  /- 264 -/ ⟨[⟨.resultDictionary, 1, afterResultPostfix⟩,
      ⟨.resultIntersectionMany, 1, afterResultPostfix⟩,
      ⟨.resultIntersectionOne, 1, afterResultPostfix⟩,
      ⟨.resultIntersectionNone, 1, afterResultPostfix⟩], [(.token .name, 275),
      (.token .funWord, 305), (.token .authWord, 291), (.token .ampersand, 289),
      (.token .leftParen, 230), (.token .leftBrace, 222), (.token .rightBrace, 271),
      (.token .leftBracket, 216), (.phrase .type, 265), (.phrase .postfixType, 202),
      (.phrase .primaryType, 204), (.phrase .nominalType, 208),
      (.phrase .instantiationType, 209), (.phrase .referenceType, 210),
      (.phrase .authorization, 286), (.phrase .functionType, 203)]⟩,
  /- 265 -/ ⟨[⟨.resultDictionary, 2, afterResultPostfix⟩], [(.token .colon, 266)]⟩,
  /- 266 -/ ⟨[⟨.resultDictionary, 3, afterResultPostfix⟩], [(.token .name, 275),
      (.token .funWord, 305), (.token .authWord, 291), (.token .ampersand, 289),
      (.token .leftParen, 230), (.token .leftBrace, 222), (.token .leftBracket, 216),
      (.phrase .type, 267), (.phrase .postfixType, 202), (.phrase .primaryType, 204),
      (.phrase .nominalType, 206), (.phrase .instantiationType, 209),
      (.phrase .referenceType, 210), (.phrase .authorization, 286), (.phrase .functionType, 203)]⟩,
  /- 267 -/ ⟨[⟨.resultDictionary, 4, afterResultPostfix⟩], [(.token .rightBrace, 268)]⟩,
  /- 268 -/ ⟨[⟨.resultDictionary, 5, afterResultPostfix⟩], []⟩,
  /- 269 -/ ⟨[⟨.resultIntersectionMany, 4, afterResultPostfix⟩], []⟩,
  /- 270 -/ ⟨[⟨.resultIntersectionOne, 3, afterResultPostfix⟩], []⟩,
  /- 271 -/ ⟨[⟨.resultIntersectionNone, 2, afterResultPostfix⟩], []⟩,
  /- 272 -/ ⟨[⟨.resultGroup, 1, afterResultPostfix⟩], [(.token .name, 275),
      (.token .funWord, 305), (.token .authWord, 291), (.token .ampersand, 289),
      (.token .leftParen, 230), (.token .leftBrace, 222), (.token .leftBracket, 216),
      (.phrase .type, 273), (.phrase .postfixType, 202), (.phrase .primaryType, 204),
      (.phrase .nominalType, 206), (.phrase .instantiationType, 209),
      (.phrase .referenceType, 210), (.phrase .authorization, 286), (.phrase .functionType, 203)]⟩,
  /- 273 -/ ⟨[⟨.resultGroup, 2, afterResultPostfix⟩], [(.token .rightParen, 274)]⟩,
  /- 274 -/ ⟨[⟨.resultGroup, 3, afterResultPostfix⟩], []⟩]

/-- Rows 275 to 316: type names, type arguments, references and function types. -/
def rowsOfNominal : List Row := [
  /- 275 -/ ⟨[⟨.nominalQualified, 1, afterNominal⟩, ⟨.nominalSimple, 1, afterNominal⟩], [
      (.token .dot, 277), (.phrase .moreNameParts, 276)]⟩,
  /- 276 -/ ⟨[⟨.nominalQualified, 2, afterNominal⟩, ⟨.namePartNext, 1, afterNamePart⟩], [
      (.token .dot, 279)]⟩,
  /- 277 -/ ⟨[⟨.namePartFirst, 1, afterNamePart⟩], [(.token .name, 278)]⟩,
  /- 278 -/ ⟨[⟨.namePartFirst, 2, afterNamePart⟩], []⟩,
  /- 279 -/ ⟨[⟨.namePartNext, 2, afterNamePart⟩], [(.token .name, 280)]⟩,
  /- 280 -/ ⟨[⟨.namePartNext, 3, afterNamePart⟩], []⟩,
  /- 281 -/ ⟨[⟨.instantiationMany, 2, afterArguments⟩, ⟨.instantiationOne, 2, afterArguments⟩,
      ⟨.instantiationNone, 2, afterArguments⟩], [(.token .name, 275), (.token .funWord, 305),
      (.token .authWord, 291), (.token .atSign, 192), (.token .ampersand, 289),
      (.token .leftParen, 230), (.token .leftBrace, 222), (.token .leftBracket, 216),
      (.token .greater, 285), (.phrase .annotatedType, 282), (.phrase .type, 194),
      (.phrase .postfixType, 202), (.phrase .primaryType, 204), (.phrase .nominalType, 206),
      (.phrase .instantiationType, 209), (.phrase .referenceType, 210),
      (.phrase .authorization, 286), (.phrase .functionType, 203)]⟩,
  /- 282 -/ ⟨[⟨.instantiationMany, 3, afterArguments⟩, ⟨.instantiationOne, 3, afterArguments⟩], [
      (.token .comma, 195), (.token .greater, 284), (.phrase .moreAnnotatedTypes, 198)]⟩,
  /- 283 -/ ⟨[⟨.instantiationMany, 5, afterArguments⟩], []⟩,
  /- 284 -/ ⟨[⟨.instantiationOne, 4, afterArguments⟩], []⟩,
  /- 285 -/ ⟨[⟨.instantiationNone, 3, afterArguments⟩], []⟩,
  /- 286 -/ ⟨[⟨.referenceAuthorized, 1, afterPostfix⟩], [(.token .ampersand, 287)]⟩,
  /- 287 -/ ⟨[⟨.referenceAuthorized, 2, afterPostfix⟩], [(.token .name, 275),
      (.token .authWord, 291), (.token .ampersand, 289), (.token .leftParen, 230),
      (.token .leftBrace, 222), (.token .leftBracket, 216), (.phrase .primaryType, 288),
      (.phrase .nominalType, 206), (.phrase .instantiationType, 209),
      (.phrase .referenceType, 210), (.phrase .authorization, 286)]⟩,
  /- 288 -/ ⟨[⟨.referenceAuthorized, 3, afterPostfix⟩], []⟩,
  /- 289 -/ ⟨[⟨.reference, 1, afterPostfix⟩], [(.token .name, 275), (.token .authWord, 291),
      (.token .ampersand, 289), (.token .leftParen, 230), (.token .leftBrace, 222),
      (.token .leftBracket, 216), (.phrase .primaryType, 290), (.phrase .nominalType, 206),
      (.phrase .instantiationType, 209), (.phrase .referenceType, 210),
      (.phrase .authorization, 286)]⟩,
  /- 290 -/ ⟨[⟨.reference, 2, afterPostfix⟩], []⟩,
  /- 291 -/ ⟨[⟨.authorizedMany, 1, afterAuthorization⟩, ⟨.authorizedOne, 1, afterAuthorization⟩,
      ⟨.authorizedBare, 1, afterAuthorization⟩], [(.token .leftParen, 292)]⟩,
  /- 292 -/ ⟨[⟨.authorizedMany, 2, afterAuthorization⟩, ⟨.authorizedOne, 2, afterAuthorization⟩], [
      (.token .name, 275), (.phrase .nominalType, 293)]⟩,
  /- 293 -/ ⟨[⟨.authorizedMany, 3, afterAuthorization⟩, ⟨.authorizedOne, 3, afterAuthorization⟩], [
      (.token .comma, 297), (.token .bar, 299), (.token .rightParen, 296),
      (.phrase .moreAuthorized, 294)]⟩,
  /- 294 -/ ⟨[⟨.authorizedMany, 4, afterAuthorization⟩,
      ⟨.authorizedCommaNext, 1, afterAccessName⟩, ⟨.authorizedBarNext, 1, afterAccessName⟩], [
      (.token .comma, 301), (.token .bar, 303), (.token .rightParen, 295)]⟩,
  /- 295 -/ ⟨[⟨.authorizedMany, 5, afterAuthorization⟩], []⟩,
  /- 296 -/ ⟨[⟨.authorizedOne, 4, afterAuthorization⟩], []⟩,
  /- 297 -/ ⟨[⟨.authorizedCommaFirst, 1, afterAccessName⟩], [(.token .name, 275),
      (.phrase .nominalType, 298)]⟩,
  /- 298 -/ ⟨[⟨.authorizedCommaFirst, 2, afterAccessName⟩], []⟩,
  /- 299 -/ ⟨[⟨.authorizedBarFirst, 1, afterAccessName⟩], [(.token .name, 275),
      (.phrase .nominalType, 300)]⟩,
  /- 300 -/ ⟨[⟨.authorizedBarFirst, 2, afterAccessName⟩], []⟩,
  /- 301 -/ ⟨[⟨.authorizedCommaNext, 2, afterAccessName⟩], [(.token .name, 275),
      (.phrase .nominalType, 302)]⟩,
  /- 302 -/ ⟨[⟨.authorizedCommaNext, 3, afterAccessName⟩], []⟩,
  /- 303 -/ ⟨[⟨.authorizedBarNext, 2, afterAccessName⟩], [(.token .name, 275),
      (.phrase .nominalType, 304)]⟩,
  /- 304 -/ ⟨[⟨.authorizedBarNext, 3, afterAccessName⟩], []⟩,
  /- 305 -/ ⟨[⟨.functionTypeMany, 1, afterType⟩, ⟨.functionTypeOne, 1, afterType⟩,
      ⟨.functionTypeNone, 1, afterType⟩], [(.token .leftParen, 306)]⟩,
  /- 306 -/ ⟨[⟨.functionTypeMany, 2, afterType⟩, ⟨.functionTypeOne, 2, afterType⟩,
      ⟨.functionTypeNone, 2, afterType⟩], [(.token .name, 275), (.token .funWord, 305),
      (.token .authWord, 291), (.token .atSign, 192), (.token .ampersand, 289),
      (.token .leftParen, 230), (.token .rightParen, 314), (.token .leftBrace, 222),
      (.token .leftBracket, 216), (.phrase .annotatedType, 307), (.phrase .type, 194),
      (.phrase .postfixType, 202), (.phrase .primaryType, 204), (.phrase .nominalType, 206),
      (.phrase .instantiationType, 209), (.phrase .referenceType, 210),
      (.phrase .authorization, 286), (.phrase .functionType, 203)]⟩,
  /- 307 -/ ⟨[⟨.functionTypeMany, 3, afterType⟩, ⟨.functionTypeOne, 3, afterType⟩], [
      (.token .comma, 195), (.token .rightParen, 311), (.phrase .moreAnnotatedTypes, 197)]⟩,
  /- 308 -/ ⟨[⟨.functionTypeMany, 5, afterType⟩], [(.token .colon, 309)]⟩,
  /- 309 -/ ⟨[⟨.functionTypeMany, 6, afterType⟩], [(.token .name, 275), (.token .funWord, 305),
      (.token .authWord, 291), (.token .atSign, 192), (.token .ampersand, 289),
      (.token .leftParen, 230), (.token .leftBrace, 222), (.token .leftBracket, 216),
      (.phrase .annotatedType, 310), (.phrase .type, 194), (.phrase .postfixType, 202),
      (.phrase .primaryType, 204), (.phrase .nominalType, 206),
      (.phrase .instantiationType, 209), (.phrase .referenceType, 210),
      (.phrase .authorization, 286), (.phrase .functionType, 203)]⟩,
  /- 310 -/ ⟨[⟨.functionTypeMany, 7, afterType⟩], []⟩,
  /- 311 -/ ⟨[⟨.functionTypeOne, 4, afterType⟩], [(.token .colon, 312)]⟩,
  /- 312 -/ ⟨[⟨.functionTypeOne, 5, afterType⟩], [(.token .name, 275), (.token .funWord, 305),
      (.token .authWord, 291), (.token .atSign, 192), (.token .ampersand, 289),
      (.token .leftParen, 230), (.token .leftBrace, 222), (.token .leftBracket, 216),
      (.phrase .annotatedType, 313), (.phrase .type, 194), (.phrase .postfixType, 202),
      (.phrase .primaryType, 204), (.phrase .nominalType, 206),
      (.phrase .instantiationType, 209), (.phrase .referenceType, 210),
      (.phrase .authorization, 286), (.phrase .functionType, 203)]⟩,
  /- 313 -/ ⟨[⟨.functionTypeOne, 6, afterType⟩], []⟩,
  /- 314 -/ ⟨[⟨.functionTypeNone, 3, afterType⟩], [(.token .colon, 315)]⟩,
  /- 315 -/ ⟨[⟨.functionTypeNone, 4, afterType⟩], [(.token .name, 275), (.token .funWord, 305),
      (.token .authWord, 291), (.token .atSign, 192), (.token .ampersand, 289),
      (.token .leftParen, 230), (.token .leftBrace, 222), (.token .leftBracket, 216),
      (.phrase .annotatedType, 316), (.phrase .type, 194), (.phrase .postfixType, 202),
      (.phrase .primaryType, 204), (.phrase .nominalType, 206),
      (.phrase .instantiationType, 209), (.phrase .referenceType, 210),
      (.phrase .authorization, 286), (.phrase .functionType, 203)]⟩,
  /- 316 -/ ⟨[⟨.functionTypeNone, 5, afterType⟩], []⟩]

/-- All rows, each at the place its state names. -/
def rows : List Row :=
  rowsOfStart ++ rowsOfProgram ++ rowsOfImport ++ rowsOfTransaction ++
  rowsOfFunction ++ rowsOfComposite ++ rowsOfAccess ++ rowsOfParameter ++
  rowsOfBlock ++ rowsOfAnnotated ++ rowsOfType ++ rowsOfResult ++ rowsOfNominal

end CadenceEntry.Grammar.Table
