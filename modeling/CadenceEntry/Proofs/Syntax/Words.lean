import CadenceEntry.Proofs.Source.Spelling
import CadenceEntry.Syntax.Meaning

/-!
# The words of a value

Every value can be written out as words again, from its fields alone: `words` says which words a
node stands for and in which order. On the other side `Derivation.kept` says which words of a
derivation its value keeps: all of them, but for the parentheses that only group a type, and for the
bars between entitlements, which are written as commas; a body is kept as one word, the text from
its first word to its last. The main statement is that the two agree, `words_value`, so nothing is
lost, doubled, moved or taken for something else on the way from a derivation to its value.
-/

set_option autoImplicit false

namespace CadenceEntry

open Grammar (Terminal)

/-- The words of the members of a list with commas between them. -/
def listed {α : Type} (words : α → List String) : List α → List String
  | [] => []
  | x :: xs => words x ++ xs.flatMap fun y => "," :: words y

/-- The words of a list begin with those of its first member. -/
theorem listed_cons_append {α : Type} (words : α → List String) (x : α) (xs : List α)
    (ws : List String) :
    listed words (x :: xs) ++ ws = words x ++ ((xs.flatMap fun y => "," :: words y) ++ ws) :=
  List.append_assoc _ _ _

/-- The words of a list of one member. -/
theorem listed_singleton_append {α : Type} (words : α → List String) (x : α)
    (ws : List String) : listed words [x] ++ ws = words x ++ ws :=
  listed_cons_append words x [] ws

/-- The words of a list end with those of its last member. -/
theorem flatMap_concat {α : Type} (words : α → List String) (xs : List α) (x : α) :
    (xs.concat x).flatMap words = [xs.flatMap words, words x].flatten := by
  simp

/-- The words of a name behind a comma or a dot. -/
def Identifier.wordsBehind (separator : String) (n : Identifier) : List String :=
  [separator, n.text]

/-- The words of a type name. -/
def NominalType.words (t : NominalType) : List String :=
  t.head.text :: t.nested.flatMap (Identifier.wordsBehind ".")

/-- The words before the ampersand of a reference. -/
def NominalType.authorizationWords (authorized : Bool) : List NominalType → List String
  | [] => if authorized then ["auth"] else []
  | e :: es => [["auth", "("], listed words (e :: es), [")"]].flatten

mutual

/-- The words of a type. -/
def TypeExpr.words : TypeExpr → List String
  | .nominal n => n.words
  | .optional t _ => [t.words, ["?"]].flatten
  | .variableSized t _ => [["["], t.words, ["]"]].flatten
  | .constantSized t _ literal _ => [["["], t.words, [";", literal, "]"]].flatten
  | .dictionary k v _ => [["\x7b"], k.words, [":"], v.words, ["\x7d"]].flatten
  | .instantiation t args _ => [t.words, ["<"], AnnotatedType.listedWords args, [">"]].flatten
  | .reference authorized es t _ =>
    [NominalType.authorizationWords authorized es, ["&"], t.words].flatten
  | .intersection ts _ => [["\x7b"], listed NominalType.words ts, ["\x7d"]].flatten
  | .restricted t ts _ => [t.words, ["\x7b"], listed NominalType.words ts, ["\x7d"]].flatten
  | .function ps none _ => [["fun", "("], AnnotatedType.listedWords ps, [")"]].flatten
  | .function ps (some r) _ =>
    [["fun", "("], AnnotatedType.listedWords ps, [")", ":"], r.words].flatten

/-- The words of a type with its resource marker. -/
def AnnotatedType.words : AnnotatedType → List String
  | .mk r t _ => [if r then ["@"] else [], t.words].flatten

/-- The words of the types of a list with commas between them. -/
def AnnotatedType.listedWords : List AnnotatedType → List String
  | [] => []
  | a :: as => a.words ++ AnnotatedType.moreWords as

/-- The words of the types of a list with a comma before each. -/
def AnnotatedType.moreWords : List AnnotatedType → List String
  | [] => []
  | a :: as => "," :: a.words ++ AnnotatedType.moreWords as

end

/-- The words of more types, each behind a comma. -/
theorem AnnotatedType.moreWords_eq_flatMap (as : List AnnotatedType) :
    AnnotatedType.moreWords as = as.flatMap fun a => "," :: a.words := by
  induction as with
  | nil => rw [moreWords, List.flatMap_nil]
  | cons a as ih => rw [moreWords, List.flatMap_cons, ih]

/-- The words of a list of types are listed like others. -/
theorem AnnotatedType.listedWords_eq_listed (as : List AnnotatedType) :
    AnnotatedType.listedWords as = listed AnnotatedType.words as := by
  cases as with
  | nil => rfl
  | cons a as => rw [listedWords, moreWords_eq_flatMap, listed]

/-- The words of a list of types begin with those of the first. -/
theorem AnnotatedType.listedWords_cons_append (a : AnnotatedType) (as : List AnnotatedType)
    (ws : List String) : AnnotatedType.listedWords (a :: as) ++ ws =
      a.words ++ ((as.flatMap fun a => "," :: a.words) ++ ws) := by
  rw [listedWords_eq_listed, listed_cons_append]

/-- The words of a parameter. -/
def Parameter.words (p : Parameter) : List String :=
  [if p.label = "" then [] else [p.label], [p.name.text, ":"], p.type.words].flatten

/-- The words of a list of parameters. -/
def ParameterList.words (ps : ParameterList) : List String :=
  [["("], listed Parameter.words ps.parameters, [")"]].flatten

/-- The words of a name in an access modifier and of what separates it from the one before. -/
def Access.separatedWords : AccessSeparator × String → List String
  | (.all, n) => [",", n]
  | (.any, n) => ["|", n]

/-- The words of an access modifier. -/
def Access.words : Access → List String
  | pub => ["pub"]
  | priv => ["priv"]
  | pubSet => ["pub", "(", "set", ")"]
  | names first rest => [["access", "(", first], rest.flatMap separatedWords, [")"]].flatten

/-- The words of an access modifier that may be left out. -/
def Access.optionalWords : Option Access → List String
  | none => []
  | some a => a.words

/-- The word of the place that an import is taken from. -/
def ImportLocation.words : ImportLocation → List String
  | address s => [s]
  | string s => ["\"" ++ s ++ "\""]
  | identifier s => [s]

/-- The words of an import. -/
def ImportDeclaration.words (d : ImportDeclaration) : List String :=
  match d.names with
  | [] => [["import"], d.location.words].flatten
  | n :: ns =>
    [["import"], [n.text], ns.flatMap (Identifier.wordsBehind ","), ["from"],
      d.location.words].flatten

/-- The words of a pragma. -/
def PragmaDeclaration.words (d : PragmaDeclaration) : List String := ["#", d.name]

/-- The words of a field. -/
def FieldDeclaration.words (d : FieldDeclaration) : List String :=
  [Access.optionalWords d.access, [d.kind.text, d.name.text, ":"], d.type.words].flatten

/-- The words of a phase. -/
def PhaseDeclaration.words (d : PhaseDeclaration) : List String :=
  [d.phase.toList.map Phase.text, d.parameters.elim [] ParameterList.words,
    [d.body.source]].flatten

/-- The words of a member of a transaction. -/
def TransactionMember.words : TransactionMember → List String
  | field d => d.words
  | phase d => d.words

/-- The words of a function. -/
def FunctionDeclaration.words (d : FunctionDeclaration) : List String :=
  [Access.optionalWords d.access, if d.isView then ["view"] else [], ["fun", d.name.text],
    d.parameters.words, d.result.elim [] (":" :: ·.words), d.body.toList.map Block.source].flatten

/-- The words of the list of conformances of a composite. -/
def NominalType.conformanceWords : List NominalType → List String
  | [] => []
  | t :: ts => [[":"], listed words (t :: ts)].flatten

/-- The words of a composite. -/
def CompositeDeclaration.words (d : CompositeDeclaration) : List String :=
  [Access.optionalWords d.access, d.kind.toList.map CompositeKind.text,
    if d.isInterface then ["interface"] else [], [d.name.text],
    NominalType.conformanceWords d.conformances, [d.body.source]].flatten

/-- The words of an event. -/
def EventDeclaration.words (d : EventDeclaration) : List String :=
  [Access.optionalWords d.access, ["event", d.name.text], d.parameters.words].flatten

/-- The words of an entitlement. -/
def EntitlementDeclaration.words (d : EntitlementDeclaration) : List String :=
  [Access.optionalWords d.access, ["entitlement", d.name.text]].flatten

/-- A word of a terminal has a spelling. -/
theorem Lexeme.spelling_ne_of_matches {t : Terminal} {w : Lexeme} (h : t.Matches w.text) :
    w.spelling ≠ "" := by
  intro hempty
  have hnil : w.text = [] := by
    simpa [Lexeme.spelling] using congrArg String.toList hempty
  rw [hnil] at h
  exact Terminal.not_matches_nil t h

/-- A word of a terminal with a fixed spelling is spelled like this. -/
theorem Lexeme.getD_spelling_of_matches {t : Terminal} {w : Lexeme} (h : t.Matches w.text) :
    t.spelling?.getD w.spelling = w.spelling := by
  cases hspelling : t.spelling? with
  | none => rfl
  | some s =>
    have hclass : t.class? = none := by
      cases t <;> first | rfl | simp [Terminal.spelling?] at hspelling
    rw [Terminal.Matches, hclass] at h
    dsimp only [Terminal.chars?] at h
    rw [hspelling] at h
    rw [Option.getD_some, Lexeme.spelling, ← Option.some.inj h, String.ofList_toList]

/-- A string literal is its text between quotes. -/
theorem Lexeme.quoted_unquoted {w : Lexeme} (h : Terminal.string.Matches w.text) :
    "\"" ++ w.unquoted ++ "\"" = w.spelling := by
  obtain ⟨cs, hcs⟩ := Terminal.exists_quoted_of_matches h
  rw [← String.toList_inj]
  simp [Lexeme.unquoted, Lexeme.spelling, hcs]

namespace Grammar

/-- A derivation for a list of one symbol is one derivation. -/
theorem Derivations.exists_singleton {s : Symbol} (ds : Derivations [s]) :
    ∃ d, ds = .cons d .nil := by
  cases ds with
  | cons d ds =>
    cases ds
    exact ⟨d, rfl⟩

/-- The words of the value of a phrase. Of a transaction and what contains one they are not a
function of the value, because of repeated phases. -/
def Nonterminal.words : (n : Nonterminal) → n.Value → List String
  | .program, _ | .declarations, _ | .declaration, _ | .transactionDeclaration, _ => []
  | .typeText, a | .annotatedType, a | .annotatedResult, a => AnnotatedType.words a
  | .importDeclaration, d => ImportDeclaration.words d
  | .importNames, (ns : List Identifier) => listed (fun n => [n.text]) ns
  | .moreImportNames, (ns : List Identifier) => ns.flatMap (Identifier.wordsBehind ",")
  | .moreNameParts, (ns : List Identifier) => ns.flatMap (Identifier.wordsBehind ".")
  | .importLocation, l => ImportLocation.words l
  | .pragmaDeclaration, d => PragmaDeclaration.words d
  | .transactionMembers, (ms : List TransactionMember) => ms.flatMap TransactionMember.words
  | .transactionMember, m => TransactionMember.words m
  | .fieldDeclaration, d => FieldDeclaration.words d
  | .variableKind, k => [VariableKind.text k]
  | .prepareBlock, d | .preBlock, d | .executeBlock, d | .postBlock, d => PhaseDeclaration.words d
  | .functionDeclaration, d => FunctionDeclaration.words d
  | .compositeDeclaration, d => CompositeDeclaration.words d
  | .compositeKind, k => [CompositeKind.text k]
  | .conformances, ts => NominalType.conformanceWords ts
  | .moreNominals, (ts : List NominalType) | .moreAuthorized, (ts : List NominalType) =>
    ts.flatMap fun t => "," :: t.words
  | .authorization, es => NominalType.authorizationWords true es
  | .eventDeclaration, d => EventDeclaration.words d
  | .entitlementDeclaration, d => EntitlementDeclaration.words d
  | .accessModifier, a => Access.words a
  | .moreAccessNames, (ns : List (AccessSeparator × String)) =>
    ns.flatMap Access.separatedWords
  | .parameterList, ps => ParameterList.words ps
  | .moreParameters, (ps : List Parameter) => ps.flatMap fun p => "," :: p.words
  | .parameter, p => Parameter.words p
  | .block, (b : Block) => [b.source]
  | .nestedBlock, _ | .blockItems, _ | .blockItem, _ => []
  | .moreAnnotatedTypes, (as : List AnnotatedType) => as.flatMap fun a => "," :: a.words
  | .type, t | .postfixType, t | .primaryType, t | .resultType, t | .resultPostfix, t
  | .resultPrimary, t | .instantiationType, t | .referenceType, t | .functionType, t =>
    TypeExpr.words t
  | .nominalType, t => NominalType.words t

/-- The words of the value of a symbol: a terminal with a fixed spelling has that. -/
def Symbol.words : (s : Symbol) → s.Value → List String
  | .token t, w => [t.spelling?.getD (Lexeme.spelling w)]
  | .phrase n, v => n.words v

/-- The words of the values of a list of symbols. -/
def Symbol.wordsAll : (ss : List Symbol) → Symbol.Values ss → List (List String)
  | [], _ => []
  | s :: ss, (v, vs) => s.words v :: Symbol.wordsAll ss vs

/-- The words that a phrase keeps of its parts. -/
def Production.kept (p : Production) (wss : List (List String)) : List String :=
  match p, wss with
  | .primaryGroup, [_, ws, _] | .resultGroup, [_, ws, _] => ws
  | .authorizedBarFirst, [_, ws] => "," :: ws
  | .authorizedBarNext, [ws, _, ws'] => ws ++ "," :: ws'
  | _, wss => wss.flatten

/-- A word is one of its terminal, and the names of an import are at least one. -/
def Symbol.Fits : (s : Symbol) → s.Value → Prop
  | .token t, w => t.Matches (Lexeme.text w)
  | .phrase .importNames, (ns : List Identifier) => ns ≠ []
  | .phrase _, _ => True

/-- All values of a list of symbols fit. -/
def Symbol.AllFit : (ss : List Symbol) → Symbol.Values ss → Prop
  | [], _ => True
  | s :: ss, (v, vs) => s.Fits v ∧ Symbol.AllFit ss vs

/-- The phrases of which the value does not determine the words: those that can contain a
transaction, and what a body consists of. -/
def Nonterminal.forgets : Nonterminal → Bool
  | .program | .declarations | .declaration | .transactionDeclaration => true
  | .nestedBlock | .blockItems | .blockItem => true
  | _ => false

/-- What a production makes of its parts has the words that it keeps of them. -/
theorem Production.words_meaning (p : Production) (source : List Char) (s : Unit → Span)
    (vs : Symbol.Values p.rhs) (hp : p.lhs.forgets = false) (hblock : p.lhs ≠ .block)
    (hvs : Symbol.AllFit p.rhs vs) :
    p.lhs.words (p.meaning source s vs) = p.kept (Symbol.wordsAll p.rhs vs) := by
  cases p
  case importFrom =>
    obtain ⟨_, ns, _, l, _⟩ := vs
    obtain ⟨-, hns, -⟩ := hvs
    cases ns with
    | nil => exact absurd rfl hns
    | cons n ns => rfl
  case locationString =>
    obtain ⟨w, _⟩ := vs
    exact congrArg ([·]) (Lexeme.quoted_unquoted hvs.1)
  case parameterLabeled =>
    obtain ⟨l, n, _, t, _⟩ := vs
    have hl : Terminal.name.Matches (Lexeme.text l) := hvs.1
    have hlabel : Lexeme.spelling l ≠ "" := Lexeme.spelling_ne_of_matches hl
    exact congrArg (· ++ Lexeme.spelling n :: ":" :: (t.words ++ [])) (if_neg hlabel)
  case importNamesMany =>
    obtain ⟨n, ns, _⟩ := vs
    exact congrArg (Lexeme.spelling n :: ·)
      (List.append_nil (List.flatMap (Identifier.wordsBehind ",") ns)).symm
  case nominalQualified => exact congrArg _ (List.append_nil _).symm
  case conformancesMany => exact congrArg (":" :: ·) (listed_cons_append _ _ _ [])
  case conformancesOne => exact congrArg (":" :: ·) (listed_singleton_append _ _ [])
  case parametersMany => exact congrArg ("(" :: ·) (listed_cons_append _ _ _ [")"])
  case parametersOne => exact congrArg ("(" :: ·) (listed_singleton_append _ _ [")"])
  case restrictedMany =>
    obtain ⟨b, _, t, ts, _, _⟩ := vs
    exact congrArg (fun ws => b.words ++ "\x7b" :: ws) (listed_cons_append _ t ts ["\x7d"])
  case restrictedOne =>
    obtain ⟨b, _, t, _, _⟩ := vs
    exact congrArg (fun ws => b.words ++ "\x7b" :: ws) (listed_singleton_append _ t ["\x7d"])
  case primaryIntersectionMany =>
    exact congrArg ("\x7b" :: ·) (listed_cons_append _ _ _ ["\x7d"])
  case primaryIntersectionOne =>
    exact congrArg ("\x7b" :: ·) (listed_singleton_append _ _ ["\x7d"])
  case resultIntersectionMany =>
    exact congrArg ("\x7b" :: ·) (listed_cons_append _ _ _ ["\x7d"])
  case resultIntersectionOne =>
    exact congrArg ("\x7b" :: ·) (listed_singleton_append _ _ ["\x7d"])
  case instantiationMany =>
    obtain ⟨t, _, a, as, _, _⟩ := vs
    exact congrArg (fun ws => t.words ++ "<" :: ws)
      (AnnotatedType.listedWords_cons_append a as [">"])
  case instantiationOne =>
    obtain ⟨t, _, a, _, _⟩ := vs
    exact congrArg (fun ws => t.words ++ "<" :: ws)
      (AnnotatedType.listedWords_cons_append a [] [">"])
  case functionTypeMany =>
    exact congrArg ("fun" :: "(" :: ·) (AnnotatedType.listedWords_cons_append _ _ _)
  case functionTypeOne =>
    exact congrArg ("fun" :: "(" :: ·) (AnnotatedType.listedWords_cons_append _ [] _)
  case resultFunctionMany =>
    exact congrArg ("fun" :: "(" :: ·) (AnnotatedType.listedWords_cons_append _ _ _)
  case resultFunctionOne =>
    exact congrArg ("fun" :: "(" :: ·) (AnnotatedType.listedWords_cons_append _ [] _)
  case authorizedMany => exact congrArg ("auth" :: "(" :: ·) (listed_cons_append _ _ _ [")"])
  case authorizedOne => exact congrArg ("auth" :: "(" :: ·) (listed_singleton_append _ _ [")"])
  case authorizedBarFirst => exact List.append_nil _
  case authorizedBarNext =>
    obtain ⟨ts, _, t, _⟩ := vs
    exact (flatMap_concat (fun t : NominalType => "," :: t.words) ts t).trans
      (congrArg (_ ++ ·) (List.append_nil _))
  case importNameNext => exact flatMap_concat (Identifier.wordsBehind ",") _ _
  case namePartNext => exact flatMap_concat (Identifier.wordsBehind ".") _ _
  case memberNext => exact flatMap_concat TransactionMember.words _ _
  case accessCommaNext => exact flatMap_concat Access.separatedWords _ _
  case accessBarNext => exact flatMap_concat Access.separatedWords _ _
  case nominalNext => exact flatMap_concat (fun t : NominalType => "," :: t.words) _ _
  case authorizedCommaNext => exact flatMap_concat (fun t : NominalType => "," :: t.words) _ _
  case parameterNext => exact flatMap_concat (fun p : Parameter => "," :: p.words) _ _
  case annotationNext => exact flatMap_concat (fun a : AnnotatedType => "," :: a.words) _ _
  all_goals first
    | rfl
    | exact (List.append_nil _).symm
    | (exfalso; revert hp; decide)
    | (exfalso; revert hblock; decide)

end Grammar

end CadenceEntry
