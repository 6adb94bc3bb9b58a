import CadenceEntry.Proofs.TypeText.Characters

/-!
# Types that need no parentheses

Parentheses are needed where an optional type is made of a function type and where a reference goes
to an optional type or a function type: read without them, the question mark would belong to the
result of the function, and the reference to what stands right behind the ampersand. A type is plain
if that happens nowhere in it.
-/

set_option autoImplicit false

namespace CadenceEntry

open Grammar

/-- Whether a type is a function type. -/
def TypeExpr.isFunction : TypeExpr → Bool
  | .function _ _ _ => true
  | _ => false

/-- Whether a type is an optional type. -/
def TypeExpr.isOptional : TypeExpr → Bool
  | .optional _ _ => true
  | _ => false

mutual

/-- At no depth of the type an optional type is made directly of a function type, or a reference
goes directly to an optional type or a function type. -/
def TypeExpr.Plain : TypeExpr → Prop
  | .nominal _ => True
  | .optional t _ => t.isFunction = false ∧ t.Plain
  | .variableSized t _ => t.Plain
  | .constantSized t _ _ _ => t.Plain
  | .dictionary k v _ => k.Plain ∧ v.Plain
  | .instantiation t args _ => t.Plain ∧ AnnotatedType.AllPlain args
  | .reference _ _ t _ => t.isOptional = false ∧ t.isFunction = false ∧ t.Plain
  | .intersection _ _ => True
  | .restricted _ _ _ => True
  | .function ps none _ => AnnotatedType.AllPlain ps
  | .function ps (some r) _ => AnnotatedType.AllPlain ps ∧ r.Plain

/-- The type behind the resource marker is plain. -/
def AnnotatedType.Plain : AnnotatedType → Prop
  | .mk _ t _ => t.Plain

/-- The types of a list are plain. -/
def AnnotatedType.AllPlain : List AnnotatedType → Prop
  | [] => True
  | a :: as => a.Plain ∧ AnnotatedType.AllPlain as

end

mutual

/-- Whether a type is plain is decided by going through it. -/
def TypeExpr.decidePlain : (t : TypeExpr) → Decidable t.Plain
  | .nominal _ | .intersection _ _ | .restricted _ _ _ => isTrue trivial
  | .optional t _ => @instDecidableAnd _ _ inferInstance t.decidePlain
  | .variableSized t _ | .constantSized t _ _ _ => t.decidePlain
  | .dictionary k v _ => @instDecidableAnd _ _ k.decidePlain v.decidePlain
  | .instantiation t args _ =>
    @instDecidableAnd _ _ t.decidePlain (AnnotatedType.decideAllPlain args)
  | .reference _ _ t _ =>
    @instDecidableAnd _ _ inferInstance (@instDecidableAnd _ _ inferInstance t.decidePlain)
  | .function ps none _ => AnnotatedType.decideAllPlain ps
  | .function ps (some r) _ => @instDecidableAnd _ _ (AnnotatedType.decideAllPlain ps) r.decidePlain

/-- Decides whether a type with its resource marker is plain. -/
def AnnotatedType.decidePlain : (a : AnnotatedType) → Decidable a.Plain
  | .mk _ t _ => t.decidePlain

/-- Decides whether all types of a list are plain. -/
def AnnotatedType.decideAllPlain : (as : List AnnotatedType) → Decidable (AnnotatedType.AllPlain as)
  | [] => isTrue trivial
  | a :: as => @instDecidableAnd _ _ a.decidePlain (AnnotatedType.decideAllPlain as)

end

instance (t : TypeExpr) : Decidable t.Plain := t.decidePlain

/-- The types of a list are plain if the last and all others are. -/
theorem AnnotatedType.allPlain_concat {as : List AnnotatedType} {a : AnnotatedType} :
    AllPlain (as.concat a) ↔ AllPlain as ∧ a.Plain := by
  induction as with
  | nil => simp [AllPlain]
  | cons a' as ih =>
    rw [List.concat, AllPlain, AllPlain, ih, and_assoc]

namespace Grammar

/-- The types in the value of a phrase are plain. -/
def Nonterminal.Plain : (n : Nonterminal) → n.Value → Prop
  | .typeText, a | .annotatedType, a => AnnotatedType.Plain a
  | .moreAnnotatedTypes, as => AnnotatedType.AllPlain as
  | .type, t | .postfixType, t | .primaryType, t | .instantiationType, t | .referenceType, t
  | .functionType, t => TypeExpr.Plain t
  | _, _ => True

/-- The value of a phrase can be written as this phrase without parentheses: it is plain, and of a
kind that the phrase has room for. -/
def Nonterminal.Bare : (n : Nonterminal) → n.Value → Prop
  | .postfixType, t => TypeExpr.isFunction t = false ∧ TypeExpr.Plain t
  | .primaryType, t | .instantiationType, t | .referenceType, t =>
    TypeExpr.isOptional t = false ∧ TypeExpr.isFunction t = false ∧ TypeExpr.Plain t
  | n, v => n.Plain v

/-- The value of a symbol can be written as this symbol without parentheses. -/
def Symbol.Bare : (s : Symbol) → s.Value → Prop
  | .token _, _ => True
  | .phrase n, v => n.Bare v

/-- The types in the value of a symbol are plain. -/
def Symbol.Plain : (s : Symbol) → s.Value → Prop
  | .token _, _ => True
  | .phrase n, v => n.Plain v

/-- The types in the values of a list of symbols are plain. -/
def Symbol.AllPlain : (ss : List Symbol) → Symbol.Values ss → Prop
  | [], _ => True
  | s :: ss, (v, vs) => s.Plain v ∧ Symbol.AllPlain ss vs

/-- The values of a list of symbols can be written without parentheses. -/
def Symbol.AllBare : (ss : List Symbol) → Symbol.Values ss → Prop
  | [], _ => True
  | s :: ss, (v, vs) => s.Bare v ∧ Symbol.AllBare ss vs

/-- A value that can be written without parentheses is plain. -/
theorem Symbol.Bare.plain {s : Symbol} {v : s.Value} (h : s.Bare v) : s.Plain v := by
  cases s with
  | token t => trivial
  | phrase n =>
    cases n
    case postfixType => exact h.2
    case primaryType => exact h.2.2
    case instantiationType => exact h.2.2
    case referenceType => exact h.2.2
    all_goals exact h

/-- Values that can be written without parentheses are plain. -/
theorem Symbol.AllBare.allPlain {ss : List Symbol} {vs : Symbol.Values ss}
    (h : Symbol.AllBare ss vs) : Symbol.AllPlain ss vs := by
  induction ss with
  | nil => trivial
  | cons s ss ih => exact ⟨h.1.plain, ih h.2⟩

/-- What is written without parentheses in its parts is plain. -/
theorem Production.bare_meaning (p : Production) (source : List Char) (s : Unit → Span)
    (vs : Symbol.Values p.rhs) (hp : p ≠ .primaryGroup) (h : Symbol.AllBare p.rhs vs) :
    p.lhs.Bare (p.meaning source s vs) := by
  cases p
  case annotationResource => exact h.2.1
  case typePostfix => exact h.1.2
  case postfixPrimary => exact ⟨h.1.2.1, h.1.2.2⟩
  case postfixOptional => exact ⟨rfl, h.1⟩
  case primaryArray => exact ⟨rfl, rfl, h.2.1⟩
  case primarySizedArray => exact ⟨rfl, rfl, h.2.1⟩
  case primaryDictionary => exact ⟨rfl, rfl, h.2.1, h.2.2.2.1⟩
  case instantiationMany => exact ⟨rfl, rfl, trivial, h.2.2.1, h.2.2.2.1⟩
  case instantiationOne => exact ⟨rfl, rfl, trivial, h.2.2.1, trivial⟩
  case instantiationNone => exact ⟨rfl, rfl, trivial, trivial⟩
  case referenceAuthorized => exact ⟨rfl, rfl, h.2.2.1⟩
  case reference => exact ⟨rfl, rfl, h.2.1⟩
  case functionTypeMany => exact ⟨⟨h.2.2.1, h.2.2.2.1⟩, h.2.2.2.2.2.2.1⟩
  case functionTypeOne => exact ⟨⟨h.2.2.1, trivial⟩, h.2.2.2.2.2.1⟩
  case functionTypeNone => exact ⟨trivial, h.2.2.2.2.1⟩
  case annotationFirst => exact ⟨h.2.1, trivial⟩
  case annotationNext => exact AnnotatedType.allPlain_concat.2 ⟨h.1, h.2.2.1⟩
  all_goals first
    | trivial
    | exact absurd rfl hp
    | exact ⟨rfl, rfl, trivial⟩
    | exact h.1

/-- The productions that hand on a type without making anything of it. -/
def Production.passes : Production → Bool
  | .typeText | .typePostfix | .typeFunction | .postfixPrimary | .primaryInstantiation
  | .primaryReference | .primaryGroup => true
  | _ => false

/-- A type that is plain is made of parts that can be written without parentheses. -/
theorem Production.bare_of_plain (p : Production) (source : List Char) (s : Unit → Span)
    (vs : Symbol.Values p.rhs) (hlhs : p.lhs.isType = true) (hp : p.passes = false)
    (h : p.lhs.Plain (p.meaning source s vs)) : Symbol.AllBare p.rhs vs := by
  cases p
  case annotationResource => exact ⟨trivial, h, trivial⟩
  case postfixOptional => exact ⟨h, trivial, trivial⟩
  case primaryArray => exact ⟨trivial, h, trivial, trivial⟩
  case primarySizedArray => exact ⟨trivial, h, trivial, trivial, trivial, trivial⟩
  case primaryDictionary => exact ⟨trivial, h.1, trivial, h.2, trivial, trivial⟩
  case restrictedMany => exact ⟨trivial, trivial, trivial, trivial, trivial, trivial⟩
  case restrictedOne => exact ⟨trivial, trivial, trivial, trivial, trivial⟩
  case primaryIntersectionMany => exact ⟨trivial, trivial, trivial, trivial, trivial⟩
  case instantiationMany => exact ⟨trivial, trivial, h.2.1, h.2.2, trivial, trivial⟩
  case instantiationOne => exact ⟨trivial, trivial, h.2.1, trivial, trivial⟩
  case referenceAuthorized => exact ⟨trivial, trivial, h, trivial⟩
  case reference => exact ⟨trivial, h, trivial⟩
  case authorizedMany => exact ⟨trivial, trivial, trivial, trivial, trivial, trivial⟩
  case authorizedOne => exact ⟨trivial, trivial, trivial, trivial, trivial⟩
  case functionTypeMany =>
    exact ⟨trivial, trivial, h.1.1, h.1.2, trivial, trivial, h.2, trivial⟩
  case functionTypeOne => exact ⟨trivial, trivial, h.1.1, trivial, trivial, h.2, trivial⟩
  case functionTypeNone => exact ⟨trivial, trivial, trivial, trivial, h.2, trivial⟩
  case annotationFirst => exact ⟨trivial, h.1, trivial⟩
  case annotationNext =>
    have hparts := AnnotatedType.allPlain_concat.1 h
    exact ⟨hparts.1, trivial, hparts.2, trivial⟩
  all_goals first
    | (exfalso; revert hlhs; decide)
    | (exfalso; revert hp; decide)
    | exact ⟨trivial, trivial⟩
    | exact ⟨trivial, trivial, trivial⟩
    | exact ⟨trivial, trivial, trivial, trivial⟩
    | exact ⟨h, trivial⟩

/-- A type that is plain is made of plain parts. -/
theorem Production.allPlain_of_plain (p : Production) (source : List Char) (s : Unit → Span)
    (vs : Symbol.Values p.rhs) (hlhs : p.lhs.isType = true)
    (h : p.lhs.Plain (p.meaning source s vs)) : Symbol.AllPlain p.rhs vs := by
  cases hp : p.passes with
  | false => exact (p.bare_of_plain source s vs hlhs hp h).allPlain
  | true =>
    cases p
    case primaryGroup => exact ⟨trivial, h, trivial, trivial⟩
    all_goals first
      | (exfalso; revert hp; decide)
      | exact ⟨h, trivial⟩

end Grammar

end CadenceEntry
