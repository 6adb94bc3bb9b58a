import CadenceEntry.Proofs.TypeText.Grouping
import CadenceEntry.Proofs.TypeText.Keywords

/-!
# Writing a plain type without parentheses

The parentheses of a derivation can be left out if its value is plain, and the bars between
entitlements can become commas. What a part was derived as is then no longer what it is derived as:
a nominal type in parentheses was a type, and without them it is a primary type. So the induction
carries, for the value of each part, all ways to derive it that the value has room for: `Writable`.
-/

set_option autoImplicit false

namespace CadenceEntry

open Grammar

namespace Grammar

mutual

/-- A derivation has no grouping parentheses, and no bars between entitlements. -/
def Derivation.Ungrouped {s : Symbol} : Derivation s → Prop
  | .leaf _ _ => True
  | .node p ds => p.isGroup = false ∧ ds.Ungrouped

/-- No derivation of a list has grouping parentheses or bars between entitlements. -/
def Derivations.Ungrouped {ss : List Symbol} : Derivations ss → Prop
  | .nil => True
  | .cons d ds => d.Ungrouped ∧ ds.Ungrouped

end

/-- The derivation means `v` and is written without parentheses, where the keywords `ks` are
reserved at its beginning. -/
structure Derivation.Writes {s : Symbol} (d : Derivation s) (ks : List Terminal) (v : s.Value) :
    Prop where
  proper : d.Proper ks
  ungrouped : d.Ungrouped
  plainValue_eq : d.plainValue = v

/-- What is written where some keywords are reserved is so where fewer are. -/
theorem Derivation.Writes.mono {s : Symbol} {d : Derivation s} {ks ks' : List Terminal}
    {v : s.Value} (h : d.Writes ks v) (hks : ks' ⊆ ks) : d.Writes ks' v :=
  ⟨h.proper.mono hks, h.ungrouped, h.plainValue_eq⟩

end Grammar

/-- A type can be derived without parentheses as everything that it is not too loose for. -/
structure TypeExpr.Writable (t : TypeExpr) (ks : List Terminal) : Prop where
  asType : ∃ d : Derivation (.phrase .type), d.Writes ks t
  asPostfix : t.isFunction = false → ∃ d : Derivation (.phrase .postfixType), d.Writes ks t
  asPrimary : t.isOptional = false → t.isFunction = false →
    ∃ d : Derivation (.phrase .primaryType), d.Writes ks t

namespace TypeExpr.Writable

variable {t : TypeExpr} {ks : List Terminal}

/-- What can be written where some keywords are reserved can be so where fewer are. -/
theorem mono {ks' : List Terminal} (h : t.Writable ks) (hks : ks' ⊆ ks) : t.Writable ks' := by
  obtain ⟨⟨d, hd⟩, hpost, hprimary⟩ := h
  refine ⟨⟨d, hd.mono hks⟩, fun hfunction => ?_, fun hoptional hfunction => ?_⟩
  · obtain ⟨d, hd⟩ := hpost hfunction
    exact ⟨d, hd.mono hks⟩
  · obtain ⟨d, hd⟩ := hprimary hoptional hfunction
    exact ⟨d, hd.mono hks⟩

/-- A function type is nothing but a type. -/
theorem of_function {d : Derivation (.phrase .functionType)} (h : d.Writes ks t)
    (hfunction : t.isFunction = true) : t.Writable ks := by
  have hnot : t.isFunction ≠ false := by rw [hfunction]; simp
  refine ⟨⟨.node .typeFunction (.cons d .nil), ⟨h.proper, trivial⟩, ⟨rfl, h.ungrouped, trivial⟩,
    h.plainValue_eq⟩, fun hfalse => absurd hfalse hnot, fun _ hfalse => absurd hfalse hnot⟩

/-- An optional type is a type. -/
theorem of_postfix {d : Derivation (.phrase .postfixType)} (h : d.Writes ks t)
    (hoptional : t.isOptional = true) : t.Writable ks := by
  have hnot : t.isOptional ≠ false := by rw [hoptional]; simp
  refine ⟨⟨.node .typePostfix (.cons d .nil), ⟨h.proper, trivial⟩, ⟨rfl, h.ungrouped, trivial⟩,
    h.plainValue_eq⟩, fun _ => ⟨d, h⟩, fun hfalse => absurd hfalse hnot⟩

/-- What is a primary type is an optional type and a type as well. -/
theorem of_primary {d : Derivation (.phrase .primaryType)} (h : d.Writes ks t) : t.Writable ks := by
  have hpost : (Derivation.node .postfixPrimary (.cons d .nil)).Writes ks t :=
    ⟨⟨h.proper, trivial⟩, ⟨rfl, h.ungrouped, trivial⟩, h.plainValue_eq⟩
  have htype : (Derivation.node .typePostfix
      (.cons (.node .postfixPrimary (.cons d .nil)) .nil)).Writes ks t :=
    ⟨⟨hpost.proper, trivial⟩, ⟨rfl, hpost.ungrouped, trivial⟩, hpost.plainValue_eq⟩
  exact ⟨⟨_, htype⟩, fun _ => ⟨_, hpost⟩, fun _ _ => ⟨d, h⟩⟩

/-- A type with arguments can be written as it is derived. -/
theorem of_instantiation {d : Derivation (.phrase .instantiationType)} (h : d.Writes ks t) :
    t.Writable ks := by
  have hprimary : (Derivation.node .primaryInstantiation (.cons d .nil)).Writes ks t :=
    ⟨⟨h.proper, trivial⟩, ⟨rfl, h.ungrouped, trivial⟩, h.plainValue_eq⟩
  exact of_primary hprimary

/-- A reference can be written as it is derived. -/
theorem of_reference {d : Derivation (.phrase .referenceType)} (h : d.Writes ks t) :
    t.Writable ks := by
  have hprimary : (Derivation.node .primaryReference (.cons d .nil)).Writes ks t :=
    ⟨⟨h.proper, trivial⟩, ⟨rfl, h.ungrouped, trivial⟩, h.plainValue_eq⟩
  exact of_primary hprimary

end TypeExpr.Writable

namespace Grammar

/-- The value of a symbol can be derived without parentheses: as the symbol itself, and if it is a
type as everything that it is not too loose for. -/
def Symbol.Rewritten : (s : Symbol) → s.Value → List Terminal → Prop
  | .phrase .type, t, ks | .phrase .postfixType, t, ks | .phrase .primaryType, t, ks
  | .phrase .instantiationType, t, ks | .phrase .referenceType, t, ks
  | .phrase .functionType, t, ks => TypeExpr.Writable t ks
  | .phrase .typeText, a, ks => (AnnotatedType.type a).Writable ks
  | .phrase .annotatedType, a, ks => (AnnotatedType.type a).Writable ks ∧
    ∃ d : Derivation (.phrase .annotatedType), d.Writes ks a
  | s, v, ks => ∃ d : Derivation s, d.Writes ks v

/-- The values of the parts of a phrase from the part `n` on can be derived without parentheses. -/
def Symbol.AllRewritten (p : Production) :
    (n : Nat) → (ss : List Symbol) → Symbol.Values ss → List Terminal → Prop
  | _, [], _, _ => True
  | n, s :: ss, (v, vs), ks =>
    s.Rewritten v ks ∧ Symbol.AllRewritten p (n + 1) ss vs (p.reservedAt (n + 1))

/-- A value that can be derived without parentheses can be derived so as its own symbol, if that has
room for it. -/
theorem Symbol.Rewritten.exists_writes {s : Symbol} {v : s.Value} {ks : List Terminal}
    (h : s.Rewritten v ks) (hbare : s.Bare v)
    (hs : s ∉ [.phrase .typeText, .phrase .instantiationType, .phrase .referenceType,
      .phrase .functionType]) : ∃ d : Derivation s, d.Writes ks v := by
  cases s with
  | token t => exact h
  | phrase n =>
    cases n
    case type => exact h.asType
    case postfixType => exact h.asPostfix hbare.1
    case primaryType => exact h.asPrimary hbare.1 hbare.2.1
    case annotatedType => exact h.2
    all_goals first
      | exact h
      | exact absurd hs (by simp)

/-- Parts that can be derived without parentheses make a derivation of the rest of a phrase. -/
theorem Symbol.AllRewritten.exists_writes {p : Production} {n : Nat} {ss : List Symbol}
    {vs : Symbol.Values ss} {ks : List Terminal} (h : Symbol.AllRewritten p n ss vs ks)
    (hbare : Symbol.AllBare ss vs)
    (hss : ∀ s ∈ ss, s ∉ [.phrase .typeText, .phrase .instantiationType, .phrase .referenceType,
      .phrase .functionType]) :
    ∃ ds : Derivations ss, ds.Proper p n ks ∧ ds.Ungrouped ∧ ds.plainValues = vs := by
  induction ss generalizing n ks with
  | nil => exact ⟨.nil, trivial, trivial, rfl⟩
  | cons s ss ih =>
    obtain ⟨v, vs⟩ := vs
    obtain ⟨d, hd⟩ := h.1.exists_writes hbare.1 (hss s List.mem_cons_self)
    obtain ⟨ds, hproper, hungrouped, hvalues⟩ :=
      ih h.2 hbare.2 fun s hs => hss s (List.mem_cons_of_mem _ hs)
    refine ⟨.cons d ds, ⟨hd.proper, hproper⟩, ⟨hd.ungrouped, hungrouped⟩, ?_⟩
    rw [Derivations.plainValues, hd.plainValue_eq, hvalues]

/-- A production that makes something of its parts has none that is handed on as it is. -/
theorem Production.notMem_of_not_passes {p : Production} (htype : p.lhs.isType = true)
    (hp : p.passes = false) : ∀ s ∈ p.rhs, s ∉ [Symbol.phrase .typeText,
      .phrase .instantiationType, .phrase .referenceType, .phrase .functionType] := by
  cases p <;> first
    | decide
    | exact absurd hp (by decide)
    | exact absurd htype (by decide)

/-- A comma is proper everywhere. -/
theorem Derivation.proper_comma (ks : List Terminal) :
    (Derivation.leaf .comma ⟨[','], {}⟩).Proper ks :=
  ⟨by decide, fun hname => absurd hname (by decide), by decide⟩

/-- What is made of parts that can be derived without parentheses can be derived so, if it is
plain. -/
theorem Production.rewritten_meaning (p : Production) (vs : Symbol.Values p.rhs)
    {ks : List Terminal} (hks : ks ⊆ Terminal.typeWords) (htype : p.lhs.isType = true)
    (hplain : p.lhs.Plain (p.meaning [] (fun _ => {}) vs))
    (h : Symbol.AllRewritten p 0 p.rhs vs ks) :
    (Symbol.phrase p.lhs).Rewritten (p.meaning [] (fun _ => {}) vs) ks := by
  have hparts : p.passes = false →
      ∃ ds : Derivations p.rhs, ds.Proper p 0 ks ∧ ds.Ungrouped ∧ ds.plainValues = vs := by
    intro hpasses
    have hbare := p.bare_of_plain [] (fun _ => {}) vs htype hpasses hplain
    exact h.exists_writes hbare (p.notMem_of_not_passes htype hpasses)
  have hnode : p.passes = false → p.isGroup = false →
      ∃ d : Derivation (.phrase p.lhs), d.Writes ks (p.meaning [] (fun _ => {}) vs) := by
    intro hpasses hgroup
    obtain ⟨ds, hproper, hungrouped, hvalues⟩ := hparts hpasses
    exact ⟨.node p ds, hproper, ⟨hgroup, hungrouped⟩, congrArg _ hvalues⟩
  cases p
  case annotationResource => exact ⟨h.2.1.mono hks, hnode rfl rfl⟩
  case annotationPlain => exact ⟨h.1, hnode rfl rfl⟩
  case typeText => exact h.1.1
  case typePostfix => exact h.1
  case typeFunction => exact h.1
  case postfixPrimary => exact h.1
  case primaryInstantiation => exact h.1
  case primaryReference => exact h.1
  case primaryGroup => exact h.2.1.mono hks
  case postfixOptional =>
    obtain ⟨d, hd⟩ := hnode rfl rfl
    exact TypeExpr.Writable.of_postfix hd rfl
  case authorizedBarFirst =>
    obtain ⟨ds, hproper, hungrouped, hvalues⟩ := hparts rfl
    cases ds with
    | cons d ds =>
      obtain ⟨d', rfl⟩ := ds.exists_singleton
      refine ⟨.node .authorizedCommaFirst (.cons (.leaf .comma ⟨[','], {}⟩) (.cons d' .nil)),
        ⟨Derivation.proper_comma ks, hproper.2⟩, ⟨rfl, trivial, hungrouped.2⟩, ?_⟩
      exact congrArg (meaning [] (fun _ => {}) .authorizedBarFirst) hvalues
  case authorizedBarNext =>
    obtain ⟨ds, hproper, hungrouped, hvalues⟩ := hparts rfl
    cases ds with
    | cons d ds =>
      cases ds with
      | cons d' ds =>
        obtain ⟨d'', rfl⟩ := ds.exists_singleton
        refine ⟨.node .authorizedCommaNext
          (.cons d (.cons (.leaf .comma ⟨[','], {}⟩) (.cons d'' .nil))),
          ⟨hproper.1, Derivation.proper_comma _, hproper.2.2⟩,
          ⟨rfl, hungrouped.1, trivial, hungrouped.2.2⟩, ?_⟩
        exact congrArg (meaning [] (fun _ => {}) .authorizedBarNext) hvalues
  case functionTypeMany =>
    obtain ⟨d, hd⟩ := hnode rfl rfl
    exact TypeExpr.Writable.of_function hd rfl
  case functionTypeOne =>
    obtain ⟨d, hd⟩ := hnode rfl rfl
    exact TypeExpr.Writable.of_function hd rfl
  case functionTypeNone =>
    obtain ⟨d, hd⟩ := hnode rfl rfl
    exact TypeExpr.Writable.of_function hd rfl
  all_goals first
    | (exfalso; revert htype; decide)
    | exact hnode rfl rfl
    | (obtain ⟨d, hd⟩ := hnode rfl rfl
       first
        | exact TypeExpr.Writable.of_primary hd
        | exact TypeExpr.Writable.of_instantiation hd
        | exact TypeExpr.Writable.of_reference hd)

mutual

/-- The value of a derivation can be derived without parentheses if it is plain. -/
theorem Derivation.rewritten {s : Symbol} (d : Derivation s) {ks : List Terminal}
    (hks : ks ⊆ Terminal.typeWords) (htype : s.isType = true) (hproper : d.Proper ks)
    (hplain : s.Plain d.plainValue) : s.Rewritten d.plainValue ks :=
  match d with
  | .leaf t w => ⟨.leaf t w, hproper, trivial, rfl⟩
  | .node p ds => by
    have hparts : Symbol.AllPlain p.rhs ds.plainValues :=
      p.allPlain_of_plain [] (fun _ => {}) ds.plainValues htype hplain
    have hrewritten : Symbol.AllRewritten p 0 p.rhs ds.plainValues ks :=
      ds.allRewritten hks (fun s hs => p.isType_of_mem htype hs) hproper hparts
    exact p.rewritten_meaning ds.plainValues hks htype hplain hrewritten

/-- The values of the parts of a phrase can be derived without parentheses if they are plain. -/
theorem Derivations.allRewritten {ss : List Symbol} (ds : Derivations ss) {p : Production} {n : Nat}
    {ks : List Terminal} (hks : ks ⊆ Terminal.typeWords)
    (htype : ∀ s ∈ ss, s.isType = true) (hproper : ds.Proper p n ks)
    (hplain : Symbol.AllPlain ss ds.plainValues) :
    Symbol.AllRewritten p n ss ds.plainValues ks :=
  match ds with
  | .nil => trivial
  | .cons d ds =>
    ⟨d.rewritten hks (htype _ List.mem_cons_self) hproper.1 hplain.1,
      ds.allRewritten (p.reservedAt_subset (n + 1))
        (fun s hs => htype s (List.mem_cons_of_mem _ hs)) hproper.2 hplain.2⟩

end

end Grammar

end CadenceEntry
