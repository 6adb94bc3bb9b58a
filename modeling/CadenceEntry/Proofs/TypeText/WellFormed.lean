import CadenceEntry.Proofs.TypeText.SourceWords

/-!
# Types that have been read

Not every type expression can be written down: its names must be names, a size must be the value of
its literal, type arguments belong to a type name, and a function type has a result. A type that has
been read is well-formed in this sense, because every production makes well-formed types of
well-formed parts.
-/

set_option autoImplicit false

namespace CadenceEntry

open Grammar

/-- A name is spelled like one. -/
def Identifier.WellFormed (n : Identifier) : Prop := Terminal.name.Matches n.text.toList

/-- The parts of a type name are names. -/
def NominalType.WellFormed (t : NominalType) : Prop :=
  t.head.WellFormed ∧ ∀ n ∈ t.nested, n.WellFormed

/-- An array size is the value of its literal. -/
def TypeExpr.SizeOf (n : Int) (literal : String) : Prop :=
  Terminal.integer.Matches literal.toList ∧
    Number.IntegerLiteral.value? literal.toList = some n

mutual

/-- The type could be written down. -/
def TypeExpr.WellFormed : TypeExpr → Prop
  | .nominal n => n.WellFormed
  | .optional t _ => t.WellFormed
  | .variableSized t _ => t.WellFormed
  | .constantSized t n literal _ => t.WellFormed ∧ TypeExpr.SizeOf n literal
  | .dictionary k v _ => k.WellFormed ∧ v.WellFormed
  | .instantiation (.nominal n) args _ => n.WellFormed ∧ AnnotatedType.AllWellFormed args
  | .instantiation _ _ _ => False
  | .reference _ es t _ => (∀ e ∈ es, e.WellFormed) ∧ t.WellFormed
  | .intersection ts _ => ∀ t ∈ ts, t.WellFormed
  | .restricted t ts _ => t.WellFormed ∧ ∀ t ∈ ts, t.WellFormed
  | .function _ none _ => False
  | .function ps (some r) _ => AnnotatedType.AllWellFormed ps ∧ r.WellFormed

/-- The type behind the resource marker could be written down. -/
def AnnotatedType.WellFormed : AnnotatedType → Prop
  | .mk _ t _ => t.WellFormed

/-- The types of a list could be written down. -/
def AnnotatedType.AllWellFormed : List AnnotatedType → Prop
  | [] => True
  | a :: as => a.WellFormed ∧ AnnotatedType.AllWellFormed as

end

/-- The types of a list are well-formed if the last and all others are. -/
theorem AnnotatedType.allWellFormed_concat {as : List AnnotatedType} {a : AnnotatedType} :
    AllWellFormed (as.concat a) ↔ AllWellFormed as ∧ a.WellFormed := by
  induction as with
  | nil => simp [AllWellFormed]
  | cons a' as ih => rw [List.concat, AllWellFormed, AllWellFormed, ih, and_assoc]

/-- What holds of all members of a list and of one more holds of all of them. -/
theorem forall_mem_concat {α : Type} {p : α → Prop} {xs : List α} {x : α}
    (hxs : ∀ y ∈ xs, p y) (hx : p x) : ∀ y ∈ xs.concat x, p y := by
  intro y hy
  rw [List.concat_eq_append, List.mem_append, List.mem_singleton] at hy
  rcases hy with hy | rfl
  · exact hxs y hy
  · exact hx

namespace Grammar

/-- The names and types in the value of a phrase of a type are well-formed. -/
def Nonterminal.WellFormed : (n : Nonterminal) → n.Value → Prop
  | .typeText, a | .annotatedType, a => AnnotatedType.WellFormed a
  | .moreAnnotatedTypes, as => AnnotatedType.AllWellFormed as
  | .type, t | .postfixType, t | .primaryType, t | .referenceType, t | .functionType, t
  | .instantiationType, t => TypeExpr.WellFormed t
  | .nominalType, t => NominalType.WellFormed t
  | .moreNameParts, (ns : List Identifier) => ∀ n ∈ ns, n.WellFormed
  | .moreNominals, (ts : List NominalType) | .moreAuthorized, (ts : List NominalType)
  | .authorization, (ts : List NominalType) => ∀ t ∈ ts, t.WellFormed
  | _, _ => True

/-- A word is one of its terminal, and a literal has a value. -/
def Symbol.WellFormed : (s : Symbol) → s.Value → Prop
  | .token t, w => t.Matches (Lexeme.text w) ∧
      (t = .integer → (Number.IntegerLiteral.value? (Lexeme.text w)).isSome = true)
  | .phrase n, v => n.WellFormed v

/-- The values of a list of symbols are well-formed. -/
def Symbol.AllWellFormed : (ss : List Symbol) → Symbol.Values ss → Prop
  | [], _ => True
  | s :: ss, (v, vs) => s.WellFormed v ∧ Symbol.AllWellFormed ss vs

/-- A word of a name is a well-formed name. -/
theorem Symbol.WellFormed.identifier {w : Lexeme} (h : (Symbol.token .name).WellFormed w) :
    (Identifier.ofLexeme w).WellFormed := by
  have hname : Terminal.name.Matches w.text := h.1
  rw [← String.toList_ofList (l := w.text)] at hname
  exact hname

/-- A word of an integer is the literal of its size. -/
theorem Symbol.WellFormed.sizeOf {w : Lexeme} (h : (Symbol.token .integer).WellFormed w) :
    TypeExpr.SizeOf w.size w.spelling := by
  have htext : w.spelling.toList = w.text := String.toList_ofList
  obtain ⟨n, hn⟩ := Option.isSome_iff_exists.1 (h.2 rfl)
  have hsize : w.size = n := by rw [Lexeme.size, hn, Option.getD_some]
  unfold TypeExpr.SizeOf
  rw [htext, hsize]
  exact ⟨h.1, hn⟩

/-- What a production makes of well-formed parts is well-formed. -/
theorem Production.wellFormed_meaning (p : Production) (source : List Char) (s : Unit → Span)
    (vs : Symbol.Values p.rhs) (hp : p.lhs.isType = true) (h : Symbol.AllWellFormed p.rhs vs) :
    p.lhs.WellFormed (p.meaning source s vs) := by
  cases p
  case annotationResource => exact h.2.1
  case primaryArray => exact h.2.1
  case primarySizedArray => exact ⟨h.2.1, h.2.2.2.1.sizeOf⟩
  case primaryDictionary => exact ⟨h.2.1, h.2.2.2.1⟩
  case primaryGroup => exact h.2.1
  case restrictedMany => exact ⟨h.1, List.forall_mem_cons.2 ⟨h.2.2.1, h.2.2.2.1⟩⟩
  case restrictedOne => exact ⟨h.1, List.forall_mem_singleton.2 h.2.2.1⟩
  case restrictedNone => exact ⟨h.1, nofun⟩
  case primaryIntersectionMany => exact List.forall_mem_cons.2 ⟨h.2.1, h.2.2.1⟩
  case primaryIntersectionOne => exact List.forall_mem_singleton.2 h.2.1
  case primaryIntersectionNone => exact nofun
  case nominalQualified => exact ⟨h.1.identifier, h.2.1⟩
  case nominalSimple => exact ⟨h.1.identifier, nofun⟩
  case instantiationMany => exact ⟨h.1, h.2.2.1, h.2.2.2.1⟩
  case instantiationOne => exact ⟨h.1, h.2.2.1, trivial⟩
  case instantiationNone => exact ⟨h.1, trivial⟩
  case referenceAuthorized => exact ⟨h.1, h.2.2.1⟩
  case reference => exact ⟨nofun, h.2.1⟩
  case authorizedMany => exact List.forall_mem_cons.2 ⟨h.2.2.1, h.2.2.2.1⟩
  case authorizedOne => exact List.forall_mem_singleton.2 h.2.2.1
  case authorizedBare => exact nofun
  case functionTypeMany => exact ⟨⟨h.2.2.1, h.2.2.2.1⟩, h.2.2.2.2.2.2.1⟩
  case functionTypeOne => exact ⟨⟨h.2.2.1, trivial⟩, h.2.2.2.2.2.1⟩
  case functionTypeNone => exact ⟨trivial, h.2.2.2.2.1⟩
  case annotationFirst => exact ⟨h.2.1, trivial⟩
  case annotationNext => exact AnnotatedType.allWellFormed_concat.2 ⟨h.1, h.2.2.1⟩
  case namePartFirst => exact List.forall_mem_singleton.2 h.2.1.identifier
  case namePartNext => exact forall_mem_concat h.1 h.2.2.1.identifier
  case nominalFirst => exact List.forall_mem_singleton.2 h.2.1
  case nominalNext => exact forall_mem_concat h.1 h.2.2.1
  case authorizedCommaFirst => exact List.forall_mem_singleton.2 h.2.1
  case authorizedBarFirst => exact List.forall_mem_singleton.2 h.2.1
  case authorizedCommaNext => exact forall_mem_concat h.1 h.2.2.1
  case authorizedBarNext => exact forall_mem_concat h.1 h.2.2.1
  all_goals first
    | exact h.1
    | (exfalso; revert hp; decide)

mutual

/-- The value of a derivation of a part of a type is well-formed if its words are. -/
theorem Derivation.wellFormed_value {s : Symbol} (d : Derivation s) (source : List Char)
    (htype : s.isType = true) (hmatches : ∀ x ∈ d.words, x.1.Matches x.2.text)
    (hvalid : d.invalidInteger? = none) : s.WellFormed (d.value source) :=
  match d with
  | .leaf t w => by
    have hw : t.Matches w.text := hmatches (t, w) (List.mem_singleton.2 rfl)
    have hvalue := (Derivation.leaf t w).invalidInteger?_eq_none_iff.1 hvalid (t, w)
      (List.mem_singleton.2 rfl)
    exact ⟨hw, hvalue⟩
  | .node p ds =>
    p.wellFormed_meaning source (fun _ => ds.span) (ds.values source) htype
      (ds.allWellFormed_values source (fun _ hs => p.isType_of_mem htype hs) hmatches hvalid)

/-- The values of derivations of parts of a type are well-formed if their words are. -/
theorem Derivations.allWellFormed_values {ss : List Symbol} (ds : Derivations ss)
    (source : List Char) (htype : ∀ s ∈ ss, s.isType = true)
    (hmatches : ∀ x ∈ ds.words, x.1.Matches x.2.text) (hvalid : ds.invalidInteger? = none) :
    Symbol.AllWellFormed ss (ds.values source) :=
  match ds with
  | .nil => trivial
  | .cons d ds => by
    obtain ⟨hd, hds⟩ := (Derivations.invalidInteger?_cons d ds).1 hvalid
    constructor
    · exact d.wellFormed_value source (htype _ List.mem_cons_self)
        (fun x hx => hmatches x (List.mem_append_left _ hx)) hd
    · exact ds.allWellFormed_values source (fun s hs => htype s (List.mem_cons_of_mem _ hs))
        (fun x hx => hmatches x (List.mem_append_right _ hx)) hds

end

end Grammar

namespace TypeExpr

/-- A type that has been read is well-formed. -/
theorem wellFormed_of_parse {text : String} {t : TypeExpr} (h : TypeExpr.parse text = .ok t) :
    t.WellFormed := by
  obtain ⟨d, hderive, hvalid, rfl⟩ := parse_eq_ok_iff.1 h
  have hmatches := Source.matches_of_derive (g := .typeText) hderive
  have hannotation : AnnotatedType.WellFormed (d.annotation text.toList) :=
    d.wellFormed_value text.toList rfl hmatches hvalid
  cases hvalue : d.annotation text.toList with
  | mk r t s =>
    rw [hvalue, AnnotatedType.WellFormed] at hannotation
    exact hannotation

end TypeExpr

end CadenceEntry
