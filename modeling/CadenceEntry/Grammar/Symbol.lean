/-!
# The symbols of the Cadence declaration grammar

The terminals are the classes of words the grammar is written in, the nonterminals the phrases it
builds from them. A terminal is either a class of words (names, integer literals, ...) or stands
for one fixed spelling.
-/

set_option autoImplicit false

namespace CadenceEntry.Grammar

/-- A class of words. The constructors after `statement` have one fixed spelling each. -/
inductive Terminal where
  | name | integer | string | address | statement
  | importWord | fromWord | transactionWord | letWord | varWord | prepareWord | preWord
  | executeWord | postWord | funWord | viewWord | contractWord | resourceWord | structWord
  | enumWord | interfaceWord | eventWord | entitlementWord | pubWord | privWord | setWord
  | accessWord | authWord
  | semicolon | comma | colon | dot | hash | atSign | question | bar | ampersand
  | leftParen | rightParen | leftBrace | rightBrace | leftBracket | rightBracket | less | greater
  deriving DecidableEq, Repr

namespace Terminal

/-- Every terminal, once. -/
def all : List Terminal :=
  [name, integer, string, address, statement,
   importWord, fromWord, transactionWord, letWord, varWord, prepareWord, preWord,
   executeWord, postWord, funWord, viewWord, contractWord, resourceWord, structWord,
   enumWord, interfaceWord, eventWord, entitlementWord, pubWord, privWord, setWord,
   accessWord, authWord,
   semicolon, comma, colon, dot, hash, atSign, question, bar, ampersand,
   leftParen, rightParen, leftBrace, rightBrace, leftBracket, rightBracket, less, greater]

/-- The list of all terminals leaves none out. -/
theorem mem_all (t : Terminal) : t ∈ all := by cases t <;> decide

/-- The fixed spelling of a terminal that has one. -/
def spelling? : Terminal → Option String
  | name | integer | string | address | statement => none
  | importWord => some "import"
  | fromWord => some "from"
  | transactionWord => some "transaction"
  | letWord => some "let"
  | varWord => some "var"
  | prepareWord => some "prepare"
  | preWord => some "pre"
  | executeWord => some "execute"
  | postWord => some "post"
  | funWord => some "fun"
  | viewWord => some "view"
  | contractWord => some "contract"
  | resourceWord => some "resource"
  | structWord => some "struct"
  | enumWord => some "enum"
  | interfaceWord => some "interface"
  | eventWord => some "event"
  | entitlementWord => some "entitlement"
  | pubWord => some "pub"
  | privWord => some "priv"
  | setWord => some "set"
  | accessWord => some "access"
  | authWord => some "auth"
  | semicolon => some ";"
  | comma => some ","
  | colon => some ":"
  | dot => some "."
  | hash => some "#"
  | atSign => some "@"
  | question => some "?"
  | bar => some "|"
  | ampersand => some "&"
  | leftParen => some "("
  | rightParen => some ")"
  | leftBrace => some "\x7b"
  | rightBrace => some "\x7d"
  | leftBracket => some "["
  | rightBracket => some "]"
  | less => some "<"
  | greater => some ">"

/-- How a message names a terminal: fixed spellings are quoted, word classes are described. -/
def description : Terminal → String
  | name => "identifier"
  | integer => "integer literal"
  | string => "string literal"
  | address => "address"
  | statement => "statement"
  | t => "'" ++ t.spelling?.getD "" ++ "'"

/-- The terminals with a fixed spelling, the longest spelling first. -/
def fixed : List Terminal :=
  [transactionWord, entitlementWord, interfaceWord, contractWord, resourceWord, prepareWord,
   executeWord, importWord, structWord, accessWord, eventWord, fromWord, postWord, viewWord,
   enumWord, privWord, authWord, letWord, varWord, preWord, funWord, pubWord, setWord, semicolon,
   comma, colon, dot, hash, atSign, question, bar, ampersand, leftParen, rightParen, leftBrace,
   rightBrace, leftBracket, rightBracket, less, greater]

end Terminal

/-- A phrase of the grammar. The `more...` phrases are the tails of separated lists, built from the
left; `result...` is the type syntax where a function body may follow. -/
inductive Nonterminal where
  | program | typeText | declarations | declaration
  | importDeclaration | importNames | moreImportNames | importLocation
  | pragmaDeclaration
  | transactionDeclaration | transactionMembers | transactionMember | fieldDeclaration
  | variableKind | prepareBlock | preBlock | executeBlock | postBlock
  | functionDeclaration
  | compositeDeclaration | compositeKind | conformances | moreNominals
  | eventDeclaration | entitlementDeclaration
  | accessModifier | moreAccessNames
  | parameterList | moreParameters | parameter
  | block | nestedBlock | blockItems | blockItem
  | annotatedType | moreAnnotatedTypes | type | postfixType | primaryType
  | annotatedResult | resultType | resultPostfix | resultPrimary
  | nominalType | moreNameParts | instantiationType | referenceType
  | authorization | moreAuthorized | functionType
  deriving DecidableEq, Repr

namespace Nonterminal

/-- Every nonterminal, once. -/
def all : List Nonterminal :=
  [program, typeText, declarations, declaration,
   importDeclaration, importNames, moreImportNames, importLocation,
   pragmaDeclaration,
   transactionDeclaration, transactionMembers, transactionMember, fieldDeclaration,
   variableKind, prepareBlock, preBlock, executeBlock, postBlock,
   functionDeclaration,
   compositeDeclaration, compositeKind, conformances, moreNominals,
   eventDeclaration, entitlementDeclaration,
   accessModifier, moreAccessNames,
   parameterList, moreParameters, parameter,
   block, nestedBlock, blockItems, blockItem,
   annotatedType, moreAnnotatedTypes, type, postfixType, primaryType,
   annotatedResult, resultType, resultPostfix, resultPrimary,
   nominalType, moreNameParts, instantiationType, referenceType,
   authorization, moreAuthorized, functionType]

end Nonterminal

/-- A symbol on the right-hand side of a production. -/
inductive Symbol where
  | token (t : Terminal)
  | phrase (n : Nonterminal)
  deriving DecidableEq, Repr

/-- What can come next while a text is read: a word of some class, or the end of the text. -/
inductive Lookahead where
  | word (t : Terminal)
  | finish
  deriving DecidableEq, Repr

namespace Lookahead

/-- How a message names what can come next. -/
def description : Lookahead → String
  | word t => t.description
  | finish => "end of program"

/-- Everything that can come next at all, in the order of the descriptions. -/
def all : List Lookahead :=
  [.word .hash, .word .ampersand, .word .leftParen, .word .rightParen, .word .comma, .word .dot,
   .word .colon, .word .semicolon, .word .less, .word .greater, .word .question, .word .atSign,
   .word .leftBracket, .word .rightBracket, .word .accessWord, .word .authWord,
   .word .contractWord, .word .entitlementWord, .word .enumWord, .word .eventWord,
   .word .executeWord, .word .fromWord, .word .funWord, .word .importWord, .word .interfaceWord,
   .word .letWord, .word .postWord, .word .preWord, .word .prepareWord, .word .privWord,
   .word .pubWord, .word .resourceWord, .word .setWord, .word .structWord, .word .transactionWord,
   .word .varWord, .word .viewWord, .word .leftBrace, .word .bar, .word .rightBrace,
   .word .address, .finish, .word .name, .word .integer, .word .statement, .word .string]

end Lookahead

end CadenceEntry.Grammar
