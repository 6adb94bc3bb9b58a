import CadenceEntry.Proofs.Syntax.Words

/-!
# The text of a type

The text of a type is made of the texts of its parts, with a space behind commas, colons and
semicolons and in front of the ampersand of an authorized reference. `Production.spaced` lays out
the parts of a phrase in the same way, so the text of a type is the layout of its derivation:
`Production.chars_meaning`. Only grouping parentheses have no place in it, and bars, which the text
shows as commas.
-/

set_option autoImplicit false

namespace CadenceEntry

open Grammar

/-- The texts of the members of a list with a comma and a space between them. -/
def listedChars {α : Type} (chars : α → List Char) : List α → List Char
  | [] => []
  | x :: xs => chars x ++ xs.flatMap fun y => ',' :: ' ' :: chars y

/-- The text of a name behind a dot. -/
def Identifier.charsBehindDot (n : Identifier) : List Char := '.' :: n.text.toList

/-- The text of a type name. -/
def NominalType.chars (t : NominalType) : List Char :=
  t.head.text.toList ++ t.nested.flatMap Identifier.charsBehindDot

/-- The text of an authorization. -/
def NominalType.authorizationChars : List NominalType → List Char
  | [] => ['a', 'u', 't', 'h']
  | e :: es => [['a', 'u', 't', 'h', '('], listedChars chars (e :: es), [')']].flatten

mutual

/-- The text of a type. -/
def TypeExpr.chars : TypeExpr → List Char
  | .nominal n => n.chars
  | .optional t _ => [t.chars, ['?']].flatten
  | .variableSized t _ => [['['], t.chars, [']']].flatten
  | .constantSized t size literal _ =>
    [['['], t.chars, [';', ' '], (if literal.isEmpty then toString size else literal).toList,
      [']']].flatten
  | .dictionary k v _ => [['\x7b'], k.chars, [':', ' '], v.chars, ['\x7d']].flatten
  | .instantiation t args _ => [t.chars, ['<'], AnnotatedType.listedChars args, ['>']].flatten
  | .reference false [] t _ => [['&'], t.chars].flatten
  | .reference _ es t _ => [NominalType.authorizationChars es, [' ', '&'], t.chars].flatten
  | .intersection ts _ =>
    [['\x7b'], CadenceEntry.listedChars NominalType.chars ts, ['\x7d']].flatten
  | .restricted t ts _ =>
    [t.chars, ['\x7b'], CadenceEntry.listedChars NominalType.chars ts, ['\x7d']].flatten
  | .function ps none _ =>
    [['f', 'u', 'n', '('], AnnotatedType.listedChars ps, [')', ':', ' '],
      ['N', 'o', 'n', 'e']].flatten
  | .function ps (some r) _ =>
    [['f', 'u', 'n', '('], AnnotatedType.listedChars ps, [')', ':', ' '], r.chars].flatten

/-- The text of a type with its resource marker. -/
def AnnotatedType.chars : AnnotatedType → List Char
  | .mk r t _ => [if r then ['@'] else [], t.chars].flatten

/-- The texts of the types of a list with a comma and a space between them. -/
def AnnotatedType.listedChars : List AnnotatedType → List Char
  | [] => []
  | a :: as => a.chars ++ AnnotatedType.moreChars as

/-- The texts of the types of a list with a comma and a space before each. -/
def AnnotatedType.moreChars : List AnnotatedType → List Char
  | [] => []
  | a :: as => ',' :: ' ' :: a.chars ++ AnnotatedType.moreChars as

end

/-- The text of a list begins with that of its first member. -/
theorem listedChars_cons_append {α : Type} (chars : α → List Char) (x : α) (xs : List α)
    (cs : List Char) :
    listedChars chars (x :: xs) ++ cs =
      chars x ++ ((xs.flatMap fun y => ',' :: ' ' :: chars y) ++ cs) :=
  List.append_assoc _ _ _

/-- The text of a list of one member. -/
theorem listedChars_singleton_append {α : Type} (chars : α → List Char) (x : α)
    (cs : List Char) : listedChars chars [x] ++ cs = chars x ++ cs :=
  listedChars_cons_append chars x [] cs

/-- The texts of the members of a list end with that of the last. -/
theorem flatMap_concat_chars {α : Type} (chars : α → List Char) (xs : List α) (x : α) :
    (xs.concat x).flatMap chars = [xs.flatMap chars, chars x].flatten := by
  simp

/-- The text of more types, each behind a comma and a space. -/
theorem AnnotatedType.moreChars_eq_flatMap (as : List AnnotatedType) :
    AnnotatedType.moreChars as = as.flatMap fun a => ',' :: ' ' :: a.chars := by
  induction as with
  | nil => rw [moreChars, List.flatMap_nil]
  | cons a as ih => rw [moreChars, List.flatMap_cons, ih]

/-- The text of a list of types is put together like that of others. -/
theorem AnnotatedType.listedChars_eq_listedChars (as : List AnnotatedType) :
    AnnotatedType.listedChars as = CadenceEntry.listedChars AnnotatedType.chars as := by
  cases as with
  | nil => rfl
  | cons a as => rw [listedChars, moreChars_eq_flatMap, CadenceEntry.listedChars]

/-- The text of a list of types begins with that of the first. -/
theorem AnnotatedType.listedChars_cons_append (a : AnnotatedType) (as : List AnnotatedType)
    (cs : List Char) : AnnotatedType.listedChars (a :: as) ++ cs =
      a.chars ++ ((as.flatMap fun a => ',' :: ' ' :: a.chars) ++ cs) := by
  rw [listedChars_eq_listedChars, CadenceEntry.listedChars_cons_append]

/-- Texts with a separator between them. -/
theorem intercalate_cons_eq (separator cs : List Char) (css : List (List Char)) :
    separator.intercalate (cs :: css) = cs ++ css.flatMap (separator ++ ·) := by
  induction css generalizing cs with
  | nil => simp
  | cons cs' css ih => rw [List.intercalate_cons_cons, ih, List.flatMap_cons, List.append_assoc,
      List.append_assoc]

/-- Texts with a comma and a space between them. -/
theorem toList_intercalate_comma {α : Type} (text : α → String) (xs : List α) :
    (", ".intercalate (xs.map text)).toList = listedChars (fun x => (text x).toList) xs := by
  rw [String.toList_intercalate]
  cases xs with
  | nil => rfl
  | cons x xs =>
    rw [List.map_cons, List.map_cons, intercalate_cons_eq, List.map_map, List.flatMap_map]
    rfl

/-- The text of a type name, character by character. -/
theorem NominalType.toList_text (t : NominalType) : t.text.toList = t.chars := by
  unfold text chars
  rw [String.toList_intercalate, List.map_cons, intercalate_cons_eq, List.map_map,
    List.flatMap_map]
  rfl

/-- The text of type names in braces, character by character. -/
theorem NominalType.toList_braced (ts : List NominalType) :
    (braced ts).toList = [['\x7b'], listedChars chars ts, ['\x7d']].flatten := by
  have h : (fun t : NominalType => t.text.toList) = chars := funext toList_text
  unfold braced
  rw [String.toList_append, String.toList_append, toList_intercalate_comma, h]
  rfl

/-- The text of an authorization, character by character. -/
theorem NominalType.toList_authorization (authorized : Bool) (es : List NominalType) :
    (authorization authorized es).toList =
      if authorized || !es.isEmpty then authorizationChars es ++ [' '] else [] := by
  have h : (fun t : NominalType => t.text.toList) = chars := funext toList_text
  cases es with
  | nil => cases authorized <;> rfl
  | cons e es =>
    unfold authorization
    rw [String.toList_append, String.toList_append, toList_intercalate_comma, h]
    simp [authorizationChars]

/-- The texts of types with a comma and a space between them. -/
theorem AnnotatedType.toList_intercalate {ss : List String} {as : List AnnotatedType}
    (h : ss.map String.toList = as.map AnnotatedType.chars) :
    (", ".intercalate ss).toList = AnnotatedType.listedChars as := by
  rw [String.toList_intercalate, h, listedChars_eq_listedChars]
  cases as with
  | nil => rfl
  | cons a as =>
    rw [List.map_cons, intercalate_cons_eq, List.flatMap_map]
    rfl

mutual

/-- The text of a type by its characters. -/
theorem TypeExpr.toList_text (t : TypeExpr) : t.text.toList = t.chars := by
  match t with
  | .nominal n => exact n.toList_text
  | .optional t _ =>
    rw [TypeExpr.text, String.toList_append, t.toList_text]
    rfl
  | .variableSized t _ =>
    rw [TypeExpr.text, String.toList_append, String.toList_append, t.toList_text]
    rfl
  | .constantSized t size literal _ =>
    simp only [TypeExpr.text, String.toList_append, t.toList_text]
    simp [TypeExpr.chars]
  | .dictionary k v _ =>
    simp only [TypeExpr.text, String.toList_append, k.toList_text, v.toList_text]
    simp [TypeExpr.chars]
  | .instantiation t args _ =>
    simp only [TypeExpr.text, String.toList_append, t.toList_text,
      AnnotatedType.toList_intercalate (AnnotatedType.map_toList_texts args)]
    simp [TypeExpr.chars]
  | .reference authorized es t _ =>
    simp only [TypeExpr.text, String.toList_append, t.toList_text, NominalType.toList_authorization]
    cases authorized <;> cases es <;> simp [TypeExpr.chars]
  | .intersection ts _ =>
    rw [TypeExpr.text, NominalType.toList_braced]
    rfl
  | .restricted t ts _ =>
    rw [TypeExpr.text, String.toList_append, NominalType.toList_braced, t.toList_text]
    rfl
  | .function ps none _ =>
    simp only [TypeExpr.text, String.toList_append,
      AnnotatedType.toList_intercalate (AnnotatedType.map_toList_texts ps)]
    simp [TypeExpr.chars]
  | .function ps (some r) _ =>
    simp only [TypeExpr.text, String.toList_append, r.toList_text,
      AnnotatedType.toList_intercalate (AnnotatedType.map_toList_texts ps)]
    simp [TypeExpr.chars]

/-- The text of a type with its resource marker by its characters. -/
theorem AnnotatedType.toList_text (a : AnnotatedType) : a.text.toList = a.chars := by
  match a with
  | .mk r t _ => cases r <;> simp [AnnotatedType.text, AnnotatedType.chars, t.toList_text]

/-- The texts of types by their characters. -/
theorem AnnotatedType.map_toList_texts (as : List AnnotatedType) :
    (AnnotatedType.texts as).map String.toList = as.map AnnotatedType.chars := by
  match as with
  | [] => rfl
  | a :: as =>
    rw [AnnotatedType.texts, List.map_cons, List.map_cons, a.toList_text,
      AnnotatedType.map_toList_texts as]

end

namespace Grammar

/-- The phrases that types are made of. -/
def Nonterminal.isType : Nonterminal → Bool
  | .typeText | .annotatedType | .moreAnnotatedTypes | .type | .postfixType | .primaryType
  | .nominalType | .moreNameParts | .moreNominals | .instantiationType | .referenceType
  | .authorization | .moreAuthorized | .functionType => true
  | _ => false

/-- The symbols that types are made of. -/
def Symbol.isType : Symbol → Bool
  | .token .string | .token .address | .token .statement => false
  | .token _ => true
  | .phrase n => n.isType

/-- The text of the value of a phrase of a type. -/
def Nonterminal.chars : (n : Nonterminal) → n.Value → List Char
  | .typeText, a | .annotatedType, a => AnnotatedType.chars a
  | .moreAnnotatedTypes, (as : List AnnotatedType) => as.flatMap fun a => ',' :: ' ' :: a.chars
  | .type, t | .postfixType, t | .primaryType, t | .instantiationType, t | .referenceType, t
  | .functionType, t => TypeExpr.chars t
  | .nominalType, t => NominalType.chars t
  | .moreNameParts, (ns : List Identifier) => ns.flatMap Identifier.charsBehindDot
  | .moreNominals, (ts : List NominalType) | .moreAuthorized, (ts : List NominalType) =>
    ts.flatMap fun t => ',' :: ' ' :: t.chars
  | .authorization, es => NominalType.authorizationChars es
  | _, _ => []

/-- The text of the value of a symbol: a terminal with a fixed spelling has that. -/
def Symbol.chars : (s : Symbol) → s.Value → List Char
  | .token t, w => t.chars?.getD (Lexeme.spelling w).toList
  | .phrase n, v => n.chars v

/-- The texts of the values of a list of symbols. -/
def Symbol.charsAll : (ss : List Symbol) → Symbol.Values ss → List (List Char)
  | [], _ => []
  | s :: ss, (v, vs) => s.chars v :: Symbol.charsAll ss vs

/-- What stands before the part `n` of a phrase: a space behind a comma, a colon or a semicolon, and
behind an authorization. -/
def Production.gap (p : Production) : Nat → List Char
  | 0 => []
  | n + 1 =>
    match p.rhs[n]? with
    | some (.token .comma) | some (.token .colon) | some (.token .semicolon)
    | some (.phrase .authorization) => [' ']
    | _ => []

/-- The parts of a phrase from the part `n` on, laid out one after the other. -/
def Production.spaced (p : Production) (n : Nat) : List (List Char) → List Char
  | [] => []
  | cs :: css => p.gap n ++ (cs ++ p.spaced (n + 1) css)

/-- The productions that the text of a type has no words for. -/
def Production.isGroup : Production → Bool
  | .primaryGroup | .authorizedBarFirst | .authorizedBarNext => true
  | _ => false

/-- The text of what a production means is the layout of its parts. -/
theorem Production.chars_meaning (p : Production) (source : List Char) (s : Unit → Span)
    (vs : Symbol.Values p.rhs) (hp : p.lhs.isType = true) (hgroup : p.isGroup = false)
    (hvs : Symbol.AllFit p.rhs vs) :
    p.lhs.chars (p.meaning source s vs) = p.spaced 0 (Symbol.charsAll p.rhs vs) := by
  cases p
  case primarySizedArray =>
    obtain ⟨_, t, _, n, _, _⟩ := vs
    have hn : Terminal.integer.Matches (Lexeme.text n) := hvs.2.2.2.1
    have hliteral : (Lexeme.spelling n).isEmpty = false := by
      rw [Bool.eq_false_iff, ne_eq, String.isEmpty_iff]
      exact Lexeme.spelling_ne_of_matches hn
    exact congrArg (fun cs => '[' :: (t.chars ++ ';' :: ' ' :: (cs ++ [']'])))
      (congrArg String.toList (if_neg (by rw [hliteral]; simp)))
  case nominalQualified =>
    obtain ⟨n, ns, _⟩ := vs
    exact congrArg ((Lexeme.spelling n).toList ++ ·)
      (List.append_nil (List.flatMap Identifier.charsBehindDot ns)).symm
  case restrictedMany =>
    obtain ⟨b, _, t, ts, _, _⟩ := vs
    exact congrArg (fun cs => b.chars ++ '\x7b' :: cs) (listedChars_cons_append _ t ts ['\x7d'])
  case restrictedOne =>
    obtain ⟨b, _, t, _, _⟩ := vs
    exact congrArg (fun cs => b.chars ++ '\x7b' :: cs)
      (listedChars_singleton_append _ t ['\x7d'])
  case primaryIntersectionMany =>
    exact congrArg ('\x7b' :: ·) (listedChars_cons_append _ _ _ ['\x7d'])
  case primaryIntersectionOne =>
    exact congrArg ('\x7b' :: ·) (listedChars_singleton_append _ _ ['\x7d'])
  case instantiationMany =>
    obtain ⟨t, _, a, as, _, _⟩ := vs
    exact congrArg (fun cs => t.chars ++ '<' :: cs)
      (AnnotatedType.listedChars_cons_append a as ['>'])
  case instantiationOne =>
    obtain ⟨t, _, a, _, _⟩ := vs
    exact congrArg (fun cs => t.chars ++ '<' :: cs)
      (AnnotatedType.listedChars_cons_append a [] ['>'])
  case functionTypeMany =>
    exact congrArg ('f' :: 'u' :: 'n' :: '(' :: ·) (AnnotatedType.listedChars_cons_append _ _ _)
  case functionTypeOne =>
    exact congrArg ('f' :: 'u' :: 'n' :: '(' :: ·) (AnnotatedType.listedChars_cons_append _ [] _)
  case authorizedMany =>
    exact congrArg ('a' :: 'u' :: 't' :: 'h' :: '(' :: ·) (listedChars_cons_append _ _ _ [')'])
  case authorizedOne =>
    exact congrArg ('a' :: 'u' :: 't' :: 'h' :: '(' :: ·)
      (listedChars_singleton_append _ _ [')'])
  case namePartNext => exact flatMap_concat_chars Identifier.charsBehindDot _ _
  case nominalNext =>
    exact flatMap_concat_chars (fun t : NominalType => ',' :: ' ' :: t.chars) _ _
  case authorizedCommaNext =>
    exact flatMap_concat_chars (fun t : NominalType => ',' :: ' ' :: t.chars) _ _
  case annotationNext =>
    exact flatMap_concat_chars (fun a : AnnotatedType => ',' :: ' ' :: a.chars) _ _
  all_goals first
    | rfl
    | exact (List.append_nil _).symm
    | (exfalso; revert hp; decide)
    | (exfalso; revert hgroup; decide)

end Grammar

end CadenceEntry
