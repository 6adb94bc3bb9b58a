import CadenceEntry.Proofs.Source.Strict
import CadenceEntry.Syntax.Parse

/-!
# Building nodes from children

What a phrase is made of comes to it as a list of children, and it takes from the list what it
needs: the first or the last child, the only two children, all children of one kind. Nothing in the
type of a list says that a child is there or of the right kind, so each of these steps can fail.
`Derivation.children_eq` shows that none does, and that the node which is built is the value of the
derivation.
-/

set_option autoImplicit false

namespace CadenceEntry

/-- What a part can hand on to the phrase around it: a word that is kept, or what has been built. -/
inductive ChildKind where
  | token | name | word | integer
  | access | fieldKind | compositeKind | names | location | nominals | type | annotated
  | parameter | parameters | block | member | declaration | program
  deriving DecidableEq

/-- What a child of a kind is. A name has its place, a literal its value and its spelling. -/
def ChildKind.Value : ChildKind → Type
  | token => Grammar.Terminal × String
  | name => Identifier
  | word => Lexeme
  | integer => Int × String
  | access => Access
  | fieldKind => VariableKind
  | compositeKind => CompositeKind
  | names => List Identifier
  | location => ImportLocation
  | nominals => List NominalType
  | type => TypeExpr
  | annotated => AnnotatedType
  | parameter => Parameter
  | parameters => ParameterList
  | block => Block
  | member => TransactionMember
  | declaration => Declaration
  | program => Program

/-- What a part hands on to the phrase around it. -/
structure Child where
  kind : ChildKind
  value : kind.Value

namespace Child

variable {α : Type}

/-- The value of a child, if it is of the kind `k`. -/
def as? (k : ChildKind) (c : Child) : Option k.Value :=
  if h : c.kind = k then some (h ▸ c.value) else none

/-- The type name that a child is. -/
def nominal? (c : Child) : Option NominalType :=
  match c.as? .type with
  | some (.nominal t) => some t
  | _ => none

/-- Whether a child is the word `t`. -/
def isToken (t : Grammar.Terminal) (c : Child) : Bool :=
  match c.as? .token with
  | some x => x.1 == t
  | none => false

/-- All children, if they are of one kind. -/
def all? (f : Child → Option α) : List Child → Option (List α)
  | [] => some []
  | c :: cs =>
    match f c, all? f cs with
    | some a, some as => some (a :: as)
    | _, _ => none

/-- The first child, if it is there and of the kind `k`. -/
def first? (k : ChildKind) (cs : List Child) : Option k.Value := cs.head?.bind (as? k)

/-- The last child, if it is there and of the kind `k`. -/
def last? (k : ChildKind) (cs : List Child) : Option k.Value := cs.getLast?.bind (as? k)

/-- The first child of the kind `k`. -/
def firstOf? (k : ChildKind) (cs : List Child) : Option k.Value := (cs.filterMap (as? k)).head?

/-- The last child of the kind `k`. -/
def lastOf? (k : ChildKind) (cs : List Child) : Option k.Value := (cs.filterMap (as? k)).getLast?

/-- The names of an access modifier behind the first one, with the separators before them. -/
def accessNames? : List (Grammar.Terminal × String) → Option (List (AccessSeparator × String))
  | [(.rightParen, _)] => some []
  | (.comma, _) :: (.name, n) :: ts => (accessNames? ts).map ((.all, n) :: ·)
  | (.bar, _) :: (.name, n) :: ts => (accessNames? ts).map ((.any, n) :: ·)
  | _ => none

/-- An access modifier, from its words. -/
def access? : List (Grammar.Terminal × String) → Option Access
  | [(.pubWord, _)] => some .pub
  | [(.privWord, _)] => some .priv
  | [(.pubWord, _), (.leftParen, _), (.setWord, _), (.rightParen, _)] => some .pubSet
  | (.accessWord, _) :: (.leftParen, _) :: (.name, n) :: ts => (accessNames? ts).map (.names n)
  | _ => none

/-- The kind of a field, from its word. -/
def fieldKind? : Grammar.Terminal → Option VariableKind
  | .letWord => some .immutable
  | .varWord => some .mutable
  | _ => none

/-- The kind of a composite, from its word. -/
def compositeKind? : Grammar.Terminal → Option CompositeKind
  | .contractWord => some .contract
  | .resourceWord => some .resource
  | .structWord => some .struct
  | .enumWord => some .enum
  | _ => none

section

variable (s : Span) (cs : List Child)

/-- An import. -/
def import? : Option ImportDeclaration := do
  let l ← lastOf? .location cs
  some ⟨(lastOf? .names cs).getD ([] : List Identifier), l, s⟩

/-- A transaction. -/
def transaction : TransactionDeclaration :=
  .ofMembers ((lastOf? .parameters cs).getD ({} : ParameterList)) (cs.filterMap (as? .member)) s

/-- A field. -/
def field? : Option FieldDeclaration := do
  let k ← firstOf? .fieldKind cs
  let n ← firstOf? .name cs
  let t ← last? .annotated cs
  some ⟨firstOf? .access cs, k, n, t, s⟩

/-- The phase `prepare`. -/
def prepare? : Option PhaseDeclaration := do
  let ps ← first? .parameters cs
  let b ← first? .block cs.tail
  some ⟨some .prepare, some ps, b, s⟩

/-- A phase without parameters. -/
def phase? (p : Phase) : Option PhaseDeclaration := do
  let b ← first? .block cs
  some ⟨some p, none, b, s⟩

/-- A function. -/
def function? : Option FunctionDeclaration := do
  let n ← lastOf? .name cs
  let ps ← lastOf? .parameters cs
  let b ← lastOf? .block cs
  some ⟨firstOf? .access cs, cs.any (isToken .viewWord), n, ps, lastOf? .annotated cs, some b, s⟩

/-- A composite or an interface. -/
def composite? : Option CompositeDeclaration := do
  let k ← firstOf? .compositeKind cs
  let n ← lastOf? .name cs
  let b ← lastOf? .block cs
  some ⟨firstOf? .access cs, some k, cs.any (isToken .interfaceWord), n,
    (lastOf? .nominals cs).getD ([] : List NominalType), b, s⟩

/-- An event. -/
def event? : Option EventDeclaration := do
  let n ← firstOf? .name cs
  let ps ← last? .parameters cs
  some ⟨firstOf? .access cs, n, ps, s⟩

/-- An entitlement. -/
def entitlement? : Option EntitlementDeclaration := do
  let n ← firstOf? .name cs
  some ⟨firstOf? .access cs, n, s⟩

/-- A parameter is made of two children, or of three if it has a label. -/
def parameter? : Option Parameter :=
  match cs with
  | [c, c'] => do
    let n ← c.as? .name
    let t ← c'.as? .annotated
    some ⟨"", n, t, s⟩
  | [l, c, c'] => do
    let l : Identifier ← l.as? .name
    let n ← c.as? .name
    let t ← c'.as? .annotated
    some ⟨l.text, n, t, s⟩
  | _ => none

/-- A type with its resource marker. -/
def annotated? : Option AnnotatedType := do
  let c ← cs.head?
  let t ← last? .type cs
  some (.mk (c.isToken .atSign) t s)

/-- An array of a size is made of two children. -/
def constantSized? : Option TypeExpr :=
  match cs with
  | [c, c'] => do
    let t ← c.as? .type
    let n : Int × String ← c'.as? .integer
    some (.constantSized t n.1 n.2 s)
  | _ => none

/-- A dictionary is made of two children. -/
def dictionary? : Option TypeExpr :=
  match cs with
  | [c, c'] => do
    let k ← c.as? .type
    let v ← c'.as? .type
    some (.dictionary k v s)
  | _ => none

/-- A type that is used through interfaces. -/
def restricted? : Option TypeExpr := do
  let t ← cs.head?.bind nominal?
  let ts ← all? nominal? cs.tail
  some (.restricted t ts s)

/-- A type name is made of one name or more. -/
def qualified? : Option TypeExpr :=
  match all? (as? .name) cs with
  | some (n :: ns) => some (.nominal ⟨n, ns, s⟩)
  | _ => none

/-- A type with arguments. -/
def instantiation? : Option TypeExpr := do
  let t ← first? .type cs
  let as ← all? (as? .annotated) cs.tail
  some (.instantiation t as s)

/-- A reference is authorized if there is a child besides its target. -/
def reference? : Option TypeExpr := do
  let t ← last? .type cs
  if cs.length = 2 then do
    let es ← first? .nominals cs
    some (.reference true es t s)
  else some (.reference false [] t s)

/-- A function type. -/
def functionType? : Option TypeExpr := do
  let as ← all? (as? .annotated) cs.dropLast
  let r ← last? .annotated cs
  some (.function as (some r) s)

end

/-- What has been built is handed on as the only child. -/
def only (k : ChildKind) (v? : Option k.Value) : Option (List Child) := v?.map fun v => [⟨k, v⟩]

end Child

namespace Grammar

/-- Whether a phrase keeps all of its words and not only those that are named. -/
def Nonterminal.keepsAll : Nonterminal → Bool
  | .variableKind | .compositeKind | .accessModifier | .moreAccessNames => true
  | _ => false

/-- A word that is kept as such. -/
def Terminal.token (t : Terminal) (w : Lexeme) : Child :=
  ⟨.token, (t, t.spelling?.getD w.spelling)⟩

/-- What is kept of a word. -/
def Terminal.children (keepsAll : Bool) (t : Terminal) (w : Lexeme) : List Child :=
  match t with
  | .name => if keepsAll then [t.token w] else [⟨.name, Identifier.ofLexeme w⟩]
  | .integer => [⟨.integer, (w.size, w.spelling)⟩]
  | .string | .address | .statement => [⟨.word, w⟩]
  | .viewWord | .interfaceWord | .atSign => [t.token w]
  | t => if keepsAll then [t.token w] else []

/-- What a phrase builds from its children at a span of a text; the children themselves if it builds
nothing of its own. Nobody looks at the children of a body. -/
def Production.build? (p : Production) (source : List Char) (s : Span) (cs : List Child) :
    Option (List Child) :=
  match p with
  | .itemNested | .itemString | .itemStatement => some []
  | .locationAddress =>
    Child.only .location
      ((Child.first? .word cs).map fun w => ImportLocation.address (Lexeme.spelling w))
  | .locationString =>
    Child.only .location
      ((Child.first? .word cs).map fun w => ImportLocation.string (Lexeme.unquoted w))
  | .locationName =>
    Child.only .location
      ((Child.first? .name cs).map fun n => ImportLocation.identifier (Identifier.text n))
  | .postfixOptional | .resultOptional =>
    Child.only .type ((Child.first? .type cs).map fun t => TypeExpr.optional t s)
  | .primaryArray | .resultArray =>
    Child.only .type ((Child.first? .type cs).map fun t => TypeExpr.variableSized t s)
  | .primarySizedArray | .resultSizedArray => Child.only .type (Child.constantSized? s cs)
  | .primaryDictionary | .resultDictionary => Child.only .type (Child.dictionary? s cs)
  | .primaryIntersectionMany | .primaryIntersectionOne | .primaryIntersectionNone
  | .resultIntersectionMany | .resultIntersectionOne | .resultIntersectionNone =>
    Child.only .type ((Child.all? Child.nominal? cs).map fun ts => TypeExpr.intersection ts s)
  | .restrictedMany | .restrictedOne | .restrictedNone => Child.only .type (Child.restricted? s cs)
  | .resultAuthorizedReference | .resultReference => Child.only .type (Child.reference? s cs)
  | .resultFunctionMany | .resultFunctionOne | .resultFunctionNone =>
    Child.only .type (Child.functionType? s cs)
  | p =>
    match p.lhs with
    | .program => some [⟨.program, (⟨cs.filterMap (Child.as? .declaration)⟩ : Program)⟩]
    | .typeText => Child.only .annotated (Child.first? .annotated cs)
    | .importDeclaration => Child.only .declaration ((Child.import? s cs).map Declaration.imports)
    | .importNames => Child.only .names (Child.all? (Child.as? .name) cs)
    | .pragmaDeclaration =>
      Child.only .declaration
        ((Child.first? .name cs).map fun n => Declaration.pragma ⟨Identifier.text n, s⟩)
    | .transactionDeclaration =>
      some [⟨.declaration, Declaration.transaction (Child.transaction s cs)⟩]
    | .fieldDeclaration => Child.only .member ((Child.field? s cs).map TransactionMember.field)
    | .variableKind =>
      Child.only .fieldKind ((Child.first? .token cs).bind fun t => Child.fieldKind? (Prod.fst t))
    | .prepareBlock => Child.only .member ((Child.prepare? s cs).map TransactionMember.phase)
    | .preBlock => Child.only .member ((Child.phase? s cs .pre).map TransactionMember.phase)
    | .executeBlock => Child.only .member ((Child.phase? s cs .execute).map TransactionMember.phase)
    | .postBlock => Child.only .member ((Child.phase? s cs .post).map TransactionMember.phase)
    | .functionDeclaration =>
      Child.only .declaration ((Child.function? s cs).map Declaration.function)
    | .compositeDeclaration =>
      Child.only .declaration ((Child.composite? s cs).map Declaration.composite)
    | .compositeKind =>
      Child.only .compositeKind
        ((Child.first? .token cs).bind fun t => Child.compositeKind? (Prod.fst t))
    | .conformances | .authorization => Child.only .nominals (Child.all? Child.nominal? cs)
    | .eventDeclaration => Child.only .declaration ((Child.event? s cs).map Declaration.event)
    | .entitlementDeclaration =>
      Child.only .declaration ((Child.entitlement? s cs).map Declaration.entitlement)
    | .accessModifier => Child.only .access ((Child.all? (Child.as? .token) cs).bind Child.access?)
    | .parameterList =>
      Child.only .parameters
        ((Child.all? (Child.as? .parameter) cs).map fun ps => (⟨ps, s⟩ : ParameterList))
    | .parameter => Child.only .parameter (Child.parameter? s cs)
    | .block => some [⟨.block, Block.ofSpan source s⟩]
    | .annotatedType | .annotatedResult => Child.only .annotated (Child.annotated? s cs)
    | .nominalType => Child.only .type (Child.qualified? s cs)
    | .instantiationType => Child.only .type (Child.instantiation? s cs)
    | .referenceType => Child.only .type (Child.reference? s cs)
    | .functionType => Child.only .type (Child.functionType? s cs)
    | _ => some cs

mutual

/-- The children that a derivation hands on, built part by part. A literal without a value is
refused, and what cannot be built is broken. -/
def Derivation.children (source : List Char) (keepsAll : Bool) {s : Symbol} :
    Derivation s → Except Failure (List Child)
  | .leaf t w =>
    if t == .integer && (Number.IntegerLiteral.value? w.text).isNone then
      .error (.refused (.invalidInteger w.spelling))
    else .ok (t.children keepsAll w)
  | .node p ds =>
    match ds.children source p.lhs.keepsAll with
    | .error e => .error e
    | .ok cs =>
      match p.build? source ds.span cs with
      | some cs => .ok cs
      | none => .error .broken

/-- The children that a list of derivations hands on. -/
def Derivations.children (source : List Char) (keepsAll : Bool) {ss : List Symbol} :
    Derivations ss → Except Failure (List Child)
  | .nil => .ok []
  | .cons d ds =>
    match d.children source keepsAll with
    | .error e => .error e
    | .ok cs =>
      match ds.children source keepsAll with
      | .error e => .error e
      | .ok cs' => .ok (cs ++ cs')

end

/-- A word with its text as a child. -/
def wordChild (x : Terminal × String) : Child := ⟨.token, x⟩

/-- A separator and the name behind it as words of an access modifier. -/
def accessWords (x : AccessSeparator × String) : List (Terminal × String) :=
  match x.1 with
  | .all => [(.comma, ","), (.name, x.2)]
  | .any => [(.bar, "|"), (.name, x.2)]

/-- The children that a phrase hands on, as its value tells. -/
def Nonterminal.children : (n : Nonterminal) → n.Value → List Child
  | .program => fun p => [⟨.program, p⟩]
  | .typeText | .annotatedType | .annotatedResult => fun a => [⟨.annotated, a⟩]
  | .declarations => List.map (Child.mk .declaration)
  | .declaration => fun d => (Option.toList d).map (Child.mk .declaration)
  | .importDeclaration => fun d => [⟨.declaration, Declaration.imports d⟩]
  | .importNames => fun ns => [⟨.names, ns⟩]
  | .moreImportNames | .moreNameParts => List.map (Child.mk .name)
  | .importLocation => fun l => [⟨.location, l⟩]
  | .pragmaDeclaration => fun d => [⟨.declaration, Declaration.pragma d⟩]
  | .transactionDeclaration => fun d => [⟨.declaration, Declaration.transaction d⟩]
  | .transactionMembers => List.map (Child.mk .member)
  | .transactionMember => fun m => [⟨.member, m⟩]
  | .fieldDeclaration => fun d => [⟨.member, TransactionMember.field d⟩]
  | .variableKind => fun k => [⟨.fieldKind, k⟩]
  | .prepareBlock | .preBlock | .executeBlock | .postBlock =>
    fun d => [⟨.member, TransactionMember.phase d⟩]
  | .functionDeclaration => fun d => [⟨.declaration, Declaration.function d⟩]
  | .compositeDeclaration => fun d => [⟨.declaration, Declaration.composite d⟩]
  | .compositeKind => fun k => [⟨.compositeKind, k⟩]
  | .conformances | .authorization => fun ts => [⟨.nominals, ts⟩]
  | .moreNominals | .moreAuthorized => List.map fun t => ⟨.type, TypeExpr.nominal t⟩
  | .eventDeclaration => fun d => [⟨.declaration, Declaration.event d⟩]
  | .entitlementDeclaration => fun d => [⟨.declaration, Declaration.entitlement d⟩]
  | .accessModifier => fun a => [⟨.access, a⟩]
  | .moreAccessNames => fun ns => (ns.flatMap accessWords).map wordChild
  | .parameterList => fun ps => [⟨.parameters, ps⟩]
  | .moreParameters => List.map (Child.mk .parameter)
  | .parameter => fun p => [⟨.parameter, p⟩]
  | .block => fun b => [⟨.block, b⟩]
  | .nestedBlock | .blockItems | .blockItem => fun _ => []
  | .moreAnnotatedTypes => List.map (Child.mk .annotated)
  | .type | .postfixType | .primaryType | .resultType | .resultPostfix | .resultPrimary
  | .instantiationType | .referenceType | .functionType => fun t => [⟨.type, t⟩]
  | .nominalType => fun t => [⟨.type, TypeExpr.nominal t⟩]

/-- The children that a symbol hands on, as its value tells. -/
def Symbol.children (keepsAll : Bool) : (s : Symbol) → s.Value → List Child
  | .token t => t.children keepsAll
  | .phrase n => n.children

/-- The children that a list of symbols hands on, as the values tell. -/
def Symbol.childrenAll (keepsAll : Bool) : (ss : List Symbol) → Symbol.Values ss → List Child
  | [], _ => []
  | s :: ss, (v, vs) => s.children keepsAll v ++ Symbol.childrenAll keepsAll ss vs

end Grammar

namespace Child

/-- A child is of its kind. -/
theorem as?_mk (k : ChildKind) (v : k.Value) : (Child.mk k v).as? k = some v := dif_pos rfl

/-- A child that is a type name is one. -/
theorem nominal?_mk (t : NominalType) :
    nominal? ⟨.type, TypeExpr.nominal t⟩ = some t := rfl

/-- What is made of values of one kind is taken apart again. -/
theorem all?_map {α : Type} {f : Child → Option α} {g : α → Child} (h : ∀ a, f (g a) = some a)
    (as : List α) : all? f (as.map g ++ []) = some as := by
  rw [List.append_nil]
  induction as with
  | nil => rfl
  | cons a as ih => rw [List.map_cons, all?, h, ih]

/-- Children of one kind are found. -/
theorem filterMap_as?_map (k : ChildKind) (vs : List k.Value) :
    (vs.map (Child.mk k) ++ []).filterMap (as? k) = vs := by
  rw [List.append_nil]
  induction vs with
  | nil => rfl
  | cons v vs ih => rw [List.map_cons, List.filterMap_cons_some (as?_mk k v), ih]

/-- Children of another kind are not found. -/
theorem filterMap_as?_map_ne {k k' : ChildKind} (h : k ≠ k') (vs : List k.Value) :
    (vs.map (Child.mk k) ++ []).filterMap (as? k') = [] := by
  rw [List.append_nil, List.filterMap_map, List.filterMap_eq_nil_iff]
  exact fun v _ => dif_neg h

/-- The names of an access modifier are taken apart again. -/
theorem accessNames?_flatMap (ns : List (AccessSeparator × String)) (s : String) :
    accessNames? (ns.flatMap Grammar.accessWords ++ [(.rightParen, s)]) = some ns := by
  induction ns with
  | nil => rfl
  | cons n ns ih =>
    obtain ⟨separator, n⟩ := n
    rw [List.flatMap_cons, List.append_assoc]
    cases separator with
    | all =>
      show (accessNames? (ns.flatMap Grammar.accessWords ++ [(.rightParen, s)])).map
        ((AccessSeparator.all, n) :: ·) = _
      rw [ih]
      rfl
    | any =>
      show (accessNames? (ns.flatMap Grammar.accessWords ++ [(.rightParen, s)])).map
        ((AccessSeparator.any, n) :: ·) = _
      rw [ih]
      rfl

/-- A function type has its result behind its parameters. -/
theorem functionType?_eq (s : Span) (as : List AnnotatedType) (r : AnnotatedType) :
    functionType? s (as.map (Child.mk .annotated) ++ [⟨.annotated, r⟩]) =
      some (.function as (some r) s) := by
  have hall := all?_map (as?_mk .annotated) as
  rw [List.append_nil] at hall
  unfold functionType? last?
  rw [List.dropLast_concat, List.getLast?_concat, hall]
  rfl

end Child

namespace Grammar

/-- A list of values with one more at the end hands on one more child. -/
theorem children_concat {α : Type} (g : α → Child) (as : List α) (a : α) :
    some (as.map g ++ [g a]) = some ((as.concat a).map g) := by
  rw [List.concat_eq_append, List.map_append]
  rfl

/-- A list of access names with one more at the end hands on the words of one more. -/
theorem accessWords_concat (ns : List (AccessSeparator × String)) (n : AccessSeparator × String) :
    some ((ns.flatMap accessWords).map wordChild ++ (accessWords n).map wordChild) =
      some (((ns.concat n).flatMap accessWords).map wordChild) := by
  rw [List.concat_eq_append, List.flatMap_append, List.map_append, List.flatMap_singleton]

/-- The words of an access modifier that names entitlements are taken apart again. -/
theorem all?_accessWords (n : String) (ns : List (AccessSeparator × String)) :
    Child.all? (Child.as? .token)
        (wordChild (.accessWord, "access") :: wordChild (.leftParen, "(") :: wordChild (.name, n) ::
          ((ns.flatMap accessWords).map wordChild ++ [wordChild (.rightParen, ")")])) =
      some ((.accessWord, "access") :: (.leftParen, "(") :: (.name, n) ::
        (ns.flatMap accessWords ++ [(.rightParen, ")")])) := by
  have hall := Child.all?_map (g := wordChild) (Child.as?_mk .token)
    ((.accessWord, "access") :: (.leftParen, "(") :: (.name, n) ::
      (ns.flatMap accessWords ++ [(.rightParen, ")")]))
  rwa [List.append_nil, List.map_cons, List.map_cons, List.map_cons, List.map_append] at hall

/-- From the children that its parts hand on, a production builds what its value hands on. -/
theorem Production.build?_childrenAll (p : Production) (source : List Char) (s : Span)
    (vs : Symbol.Values p.rhs) :
    p.build? source s (Symbol.childrenAll p.lhs.keepsAll p.rhs vs) =
      some (p.lhs.children (p.meaning source (fun _ => s) vs)) := by
  have hnames := Child.all?_map (Child.as?_mk .name)
  have hnominals := Child.all?_map Child.nominal?_mk
  have hannotated := Child.all?_map (Child.as?_mk .annotated)
  have hconcat := @children_concat
  cases p
  case programSome =>
    obtain ⟨ds, _⟩ := vs
    exact congrArg (fun ds => some [(⟨.program, (⟨ds⟩ : Program)⟩ : Child)])
      (Child.filterMap_as?_map .declaration ds)
  case importNamesMany =>
    obtain ⟨w, ns, _⟩ := vs
    exact congrArg (Child.only .names) (hnames (Identifier.ofLexeme w :: ns))
  case transactionParametersMembers =>
    obtain ⟨_, ps, _, ms, _, _⟩ := vs
    have hms := Child.filterMap_as?_map .member ms
    have hps := Child.filterMap_as?_map_ne (show ChildKind.member ≠ .parameters by decide) ms
    exact congrArg₂ (fun (qs : List ParameterList) ms =>
      some [(⟨.declaration, Declaration.transaction
        (.ofMembers ((ps :: qs).getLast?.getD {}) ms s)⟩ : Child)]) hps hms
  case transactionMembers =>
    obtain ⟨_, _, ms, _, _⟩ := vs
    have hms := Child.filterMap_as?_map .member ms
    have hps := Child.filterMap_as?_map_ne (show ChildKind.member ≠ .parameters by decide) ms
    exact congrArg₂ (fun (qs : List ParameterList) ms =>
      some [(⟨.declaration, Declaration.transaction
        (.ofMembers (qs.getLast?.getD {}) ms s)⟩ : Child)]) hps hms
  case conformancesMany =>
    obtain ⟨_, t, ts, _⟩ := vs
    exact congrArg (Child.only .nominals) (hnominals (t :: ts))
  case accessNamesMany =>
    obtain ⟨_, _, n, ns, _, _⟩ := vs
    have hwords := congrArg (fun ts? => Child.only .access (Option.bind ts? Child.access?))
      (all?_accessWords n.spelling ns)
    have hnames' := congrArg
      (fun ns? => Child.only .access (Option.map (Access.names n.spelling) ns?))
      (Child.accessNames?_flatMap ns ")")
    exact hwords.trans hnames'
  case parametersMany =>
    obtain ⟨_, p, ps, _⟩ := vs
    exact congrArg (fun ps? => Child.only .parameters (Option.map (⟨·, s⟩) ps?))
      (Child.all?_map (Child.as?_mk .parameter) (p :: ps))
  case restrictedMany =>
    obtain ⟨b, _, t, ts, _⟩ := vs
    exact congrArg (fun ts? => Child.only .type
      (Option.bind ts? fun ts => some (TypeExpr.restricted b ts s))) (hnominals (t :: ts))
  case primaryIntersectionMany =>
    obtain ⟨_, t, ts, _⟩ := vs
    exact congrArg (fun ts? => Child.only .type (Option.map (TypeExpr.intersection · s) ts?))
      (hnominals (t :: ts))
  case resultIntersectionMany =>
    obtain ⟨_, t, ts, _⟩ := vs
    exact congrArg (fun ts? => Child.only .type (Option.map (TypeExpr.intersection · s) ts?))
      (hnominals (t :: ts))
  case nominalQualified =>
    obtain ⟨w, ns, _⟩ := vs
    exact congrArg (fun ns? => Child.only .type
      (match ns? with
        | some (n :: ns) => some (TypeExpr.nominal ⟨n, ns, s⟩)
        | _ => none)) (hnames (Identifier.ofLexeme w :: ns))
  case instantiationMany =>
    obtain ⟨t, _, a, as, _⟩ := vs
    exact congrArg (fun as? => Child.only .type
      (Option.bind as? fun as => some (TypeExpr.instantiation (.nominal t) as s)))
      (hannotated (a :: as))
  case authorizedMany =>
    obtain ⟨_, _, t, ts, _⟩ := vs
    exact congrArg (Child.only .nominals) (hnominals (t :: ts))
  case functionTypeMany =>
    obtain ⟨_, _, a, as, _, _, r, _⟩ := vs
    exact congrArg (Child.only .type) (Child.functionType?_eq s (a :: as) r)
  case resultFunctionMany =>
    obtain ⟨_, _, a, as, _, _, r, _⟩ := vs
    exact congrArg (Child.only .type) (Child.functionType?_eq s (a :: as) r)
  case declarationsFirst => exact congrArg some (List.append_nil _)
  case declarationsNext =>
    obtain ⟨ds, d, _⟩ := vs
    show some (List.map (Child.mk .declaration) ds ++
      ((Option.toList d).map (Child.mk .declaration) ++ [])) =
        some ((List.append ds (Option.toList d)).map (Child.mk .declaration))
    rw [List.append_nil]
    exact congrArg some List.map_append.symm
  case importNameNext => exact hconcat _ _ _
  case memberNext => exact hconcat _ _ _
  case nominalNext => exact hconcat _ _ _
  case accessCommaNext =>
    obtain ⟨ns, _, n, _⟩ := vs
    exact accessWords_concat ns (.all, Lexeme.spelling n)
  case accessBarNext =>
    obtain ⟨ns, _, n, _⟩ := vs
    exact accessWords_concat ns (.any, Lexeme.spelling n)
  case parameterNext => exact hconcat _ _ _
  case annotationNext => exact hconcat _ _ _
  case namePartNext => exact hconcat _ _ _
  case authorizedCommaNext => exact hconcat _ _ _
  case authorizedBarNext => exact hconcat _ _ _
  all_goals rfl

mutual

/-- What is built from the parts of a derivation is its value, if all of its literals have one. -/
theorem Derivation.children_eq (source : List Char) (keepsAll : Bool) {s : Symbol}
    (d : Derivation s) :
    d.children source keepsAll =
      match d.invalidInteger? with
      | some w => .error (.refused (.invalidInteger w.spelling))
      | none => .ok (s.children keepsAll (d.value source)) := by
  cases d with
  | leaf t w =>
    rw [Derivation.children, Derivation.invalidInteger?]
    split
    · rfl
    · rfl
  | node p ds =>
    rw [Derivation.children, Derivation.invalidInteger?, ds.children_eq]
    cases ds.invalidInteger? with
    | some w => rfl
    | none =>
      have hbuild := p.build?_childrenAll source ds.span (ds.values source)
      dsimp only
      rw [hbuild]
      rfl

/-- What is built from the parts of a list of derivations. -/
theorem Derivations.children_eq (source : List Char) (keepsAll : Bool) {ss : List Symbol}
    (ds : Derivations ss) :
    ds.children source keepsAll =
      match ds.invalidInteger? with
      | some w => .error (.refused (.invalidInteger w.spelling))
      | none => .ok (Symbol.childrenAll keepsAll ss (ds.values source)) := by
  cases ds with
  | nil => rfl
  | cons d ds =>
    rw [Derivations.children, Derivations.invalidInteger?, d.children_eq, ds.children_eq]
    cases d.invalidInteger? with
    | some w => rfl
    | none => cases ds.invalidInteger? <;> rfl

end

end Grammar

namespace Program

/-- The program that a text is, read strictly and built from children: the only child of the whole
must be a program. -/
def parseStrictly (text : String) : Except Failure Program :=
  match Source.deriveStrictly .program text.toList with
  | .error e => .error e
  | .ok d =>
    match d.children text.toList false with
    | .error e => .error e
    | .ok [⟨.program, p⟩] => .ok p
    | .ok _ => .error .broken

/-- A text is a program or it is refused, and nothing is missing on the way. -/
theorem parseStrictly_eq (text : String) :
    parseStrictly text = (parse text).mapError .refused := by
  unfold parseStrictly parse
  rw [Source.deriveStrictly_eq]
  cases Source.derive .program text.toList with
  | error e => rfl
  | ok d =>
    have hchildren := d.children_eq text.toList false
    simp only [Except.mapError, Except.bind, Grammar.Derivation.evaluate, hchildren]
    cases d.invalidInteger? <;> rfl

end Program

end CadenceEntry
