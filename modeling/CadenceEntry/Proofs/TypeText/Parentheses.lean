import CadenceEntry.Proofs.Source.Covering
import CadenceEntry.Proofs.TypeText.Layout

/-!
# Parentheses are missed

The text of a type has the parentheses of function types and authorizations only. So if a type is
read off its own text, no parentheses are left for grouping, and the type is one that needs none.
-/

set_option autoImplicit false

namespace CadenceEntry

open Grammar

/-- Places have no part in the text of a type name. -/
theorem NominalType.chars_unplaced (t : NominalType) : t.unplaced.chars = t.chars := by
  unfold chars unplaced
  rw [List.flatMap_map]
  rfl

/-- Places have no part in the text of a list of type names. -/
theorem NominalType.listedChars_unplaced (ts : List NominalType) :
    listedChars chars (ts.map unplaced) = listedChars chars ts := by
  cases ts with
  | nil => rfl
  | cons t ts =>
    rw [List.map_cons, listedChars, listedChars, chars_unplaced, List.flatMap_map]
    simp only [chars_unplaced]

/-- Places have no part in the text of an authorization. -/
theorem NominalType.authorizationChars_unplaced (ts : List NominalType) :
    authorizationChars (ts.map unplaced) = authorizationChars ts := by
  cases ts with
  | nil => rfl
  | cons t ts =>
    rw [List.map_cons, authorizationChars, ← List.map_cons, listedChars_unplaced,
      authorizationChars]

mutual

/-- Places have no part in the text of a type. -/
theorem TypeExpr.chars_unplaced (t : TypeExpr) : t.unplaced.chars = t.chars := by
  match t with
  | .nominal n => exact n.chars_unplaced
  | .optional t _ => rw [TypeExpr.unplaced, TypeExpr.chars, TypeExpr.chars, t.chars_unplaced]
  | .variableSized t _ => rw [TypeExpr.unplaced, TypeExpr.chars, TypeExpr.chars, t.chars_unplaced]
  | .constantSized t size literal _ =>
    rw [TypeExpr.unplaced, TypeExpr.chars, TypeExpr.chars, t.chars_unplaced]
  | .dictionary k v _ =>
    rw [TypeExpr.unplaced, TypeExpr.chars, TypeExpr.chars, k.chars_unplaced, v.chars_unplaced]
  | .instantiation t args _ =>
    rw [TypeExpr.unplaced, TypeExpr.chars, TypeExpr.chars, t.chars_unplaced,
      AnnotatedType.listedChars_unplaced args]
  | .reference authorized es t _ =>
    cases authorized <;> cases es <;>
      simp [TypeExpr.unplaced, TypeExpr.chars, t.chars_unplaced, -List.map_cons,
        NominalType.authorizationChars_unplaced]
  | .intersection ts _ =>
    rw [TypeExpr.unplaced, TypeExpr.chars, TypeExpr.chars, NominalType.listedChars_unplaced]
  | .restricted t ts _ =>
    rw [TypeExpr.unplaced, TypeExpr.chars, TypeExpr.chars, t.chars_unplaced,
      NominalType.listedChars_unplaced]
  | .function ps none _ =>
    rw [TypeExpr.unplaced, TypeExpr.chars, TypeExpr.chars, AnnotatedType.listedChars_unplaced ps]
  | .function ps (some r) _ =>
    rw [TypeExpr.unplaced, TypeExpr.chars, TypeExpr.chars, AnnotatedType.listedChars_unplaced ps,
      r.chars_unplaced]

/-- Places have no part in the text of a type with its resource marker. -/
theorem AnnotatedType.chars_unplaced (a : AnnotatedType) : a.unplaced.chars = a.chars := by
  match a with
  | .mk r t _ =>
    rw [AnnotatedType.unplaced, AnnotatedType.chars, AnnotatedType.chars, t.chars_unplaced]

/-- Places have no part in the text of a list of types. -/
theorem AnnotatedType.listedChars_unplaced (as : List AnnotatedType) :
    AnnotatedType.listedChars (AnnotatedType.unplacedAll as) = AnnotatedType.listedChars as := by
  match as with
  | [] => rfl
  | a :: as =>
    rw [AnnotatedType.unplacedAll, AnnotatedType.listedChars, AnnotatedType.listedChars,
      a.chars_unplaced, AnnotatedType.moreChars_unplaced as]

/-- Places have no part in the text of more types. -/
theorem AnnotatedType.moreChars_unplaced (as : List AnnotatedType) :
    AnnotatedType.moreChars (AnnotatedType.unplacedAll as) = AnnotatedType.moreChars as := by
  match as with
  | [] => rfl
  | a :: as =>
    rw [AnnotatedType.unplacedAll, AnnotatedType.moreChars, AnnotatedType.moreChars,
      a.chars_unplaced, AnnotatedType.moreChars_unplaced as]

end

/-- Places have no part in whether a type is a function type. -/
theorem TypeExpr.isFunction_unplaced (t : TypeExpr) : t.unplaced.isFunction = t.isFunction := by
  match t with
  | .function _ none _ => rfl
  | .function _ (some _) _ => rfl
  | .nominal _ | .optional _ _ | .variableSized _ _ | .constantSized _ _ _ _ | .dictionary _ _ _
  | .instantiation _ _ _ | .reference _ _ _ _ | .intersection _ _ | .restricted _ _ _ => rfl

/-- Places have no part in whether a type is optional. -/
theorem TypeExpr.isOptional_unplaced (t : TypeExpr) : t.unplaced.isOptional = t.isOptional := by
  match t with
  | .function _ none _ => rfl
  | .function _ (some _) _ => rfl
  | .nominal _ | .optional _ _ | .variableSized _ _ | .constantSized _ _ _ _ | .dictionary _ _ _
  | .instantiation _ _ _ | .reference _ _ _ _ | .intersection _ _ | .restricted _ _ _ => rfl

mutual

/-- Places have no part in whether a type is plain. -/
theorem TypeExpr.plain_unplaced (t : TypeExpr) : t.unplaced.Plain ↔ t.Plain := by
  match t with
  | .nominal n => exact Iff.rfl
  | .optional t _ =>
    rw [TypeExpr.unplaced, TypeExpr.Plain, TypeExpr.Plain, t.plain_unplaced, t.isFunction_unplaced]
  | .variableSized t _ => rw [TypeExpr.unplaced, TypeExpr.Plain, TypeExpr.Plain, t.plain_unplaced]
  | .constantSized t size literal _ =>
    rw [TypeExpr.unplaced, TypeExpr.Plain, TypeExpr.Plain, t.plain_unplaced]
  | .dictionary k v _ =>
    rw [TypeExpr.unplaced, TypeExpr.Plain, TypeExpr.Plain, k.plain_unplaced, v.plain_unplaced]
  | .instantiation t args _ =>
    rw [TypeExpr.unplaced, TypeExpr.Plain, TypeExpr.Plain, t.plain_unplaced,
      AnnotatedType.allPlain_unplaced args]
  | .reference authorized es t _ =>
    rw [TypeExpr.unplaced, TypeExpr.Plain, TypeExpr.Plain, t.plain_unplaced, t.isFunction_unplaced,
      t.isOptional_unplaced]
  | .intersection ts _ => exact Iff.rfl
  | .restricted t ts _ => exact Iff.rfl
  | .function ps none _ =>
    rw [TypeExpr.unplaced, TypeExpr.Plain, TypeExpr.Plain, AnnotatedType.allPlain_unplaced ps]
  | .function ps (some r) _ =>
    rw [TypeExpr.unplaced, TypeExpr.Plain, TypeExpr.Plain, AnnotatedType.allPlain_unplaced ps,
      r.plain_unplaced]

/-- Places have no part in whether a type with its resource marker is plain. -/
theorem AnnotatedType.plain_unplaced (a : AnnotatedType) : a.unplaced.Plain ↔ a.Plain := by
  match a with
  | .mk r t _ =>
    rw [AnnotatedType.unplaced, AnnotatedType.Plain, AnnotatedType.Plain, t.plain_unplaced]

/-- Places have no part in whether the types of a list are plain. -/
theorem AnnotatedType.allPlain_unplaced (as : List AnnotatedType) :
    AnnotatedType.AllPlain (AnnotatedType.unplacedAll as) ↔ AnnotatedType.AllPlain as := by
  match as with
  | [] => exact Iff.rfl
  | a :: as =>
    rw [AnnotatedType.unplacedAll, AnnotatedType.AllPlain, AnnotatedType.AllPlain, a.plain_unplaced,
      AnnotatedType.allPlain_unplaced as]

end

namespace Grammar

mutual

/-- The number of grouping parentheses in a derivation. -/
def Derivation.groups {s : Symbol} : Derivation s → Nat
  | .leaf _ _ => 0
  | .node p ds => (if p = .primaryGroup then 1 else 0) + ds.groups

/-- The number of grouping parentheses in a list of derivations. -/
def Derivations.groups {ss : List Symbol} : Derivations ss → Nat
  | .nil => 0
  | .cons d ds => d.groups + ds.groups

end

/-- The characters of the words of a derivation. -/
def wordChars (ws : List (Terminal × Lexeme)) : List Char := ws.flatMap fun x => x.2.text

/-- No parentheses stand between the parts of a phrase. -/
theorem Production.count_spaced (p : Production) (n : Nat) (css : List (List Char)) :
    (p.spaced n css).count '(' = (css.map (List.count '(')).sum := by
  induction css generalizing n with
  | nil => rfl
  | cons cs css ih =>
    have hgap : (p.gap n).count '(' = 0 := by
      rcases p.gap_cases n with hgap | hgap
      · rw [hgap]
        decide
      · rw [hgap]
        decide
    rw [spaced, List.count_append, List.count_append, hgap, ih, List.map_cons, List.sum_cons,
      Nat.zero_add]

/-- The text of what a production means has the opening parentheses of the texts of the parts, but
for those that are grouping parentheses. -/
theorem Production.count_meaning (p : Production) (source : List Char) (s : Unit → Span)
    (vs : Symbol.Values p.rhs) (hp : p.lhs.isType = true) (hvs : Symbol.AllFit p.rhs vs) :
    ((Symbol.charsAll p.rhs vs).map (List.count '(')).sum =
      (p.lhs.chars (p.meaning source s vs)).count '(' + if p = .primaryGroup then 1 else 0 := by
  by_cases hgroup : p.isGroup = true
  · cases p
    case primaryGroup =>
      obtain ⟨_, t, _, _⟩ := vs
      show 1 + (t.chars.count '(' + (0 + 0)) = t.chars.count '(' + 1
      omega
    case authorizedBarFirst =>
      obtain ⟨_, t, _⟩ := vs
      show 0 + (t.chars.count '(' + 0) = (',' :: ' ' :: t.chars ++ []).count '(' + 0
      simp
    case authorizedBarNext =>
      obtain ⟨ts, _, t, _⟩ := vs
      show (ts.flatMap fun t : NominalType => ',' :: ' ' :: t.chars).count '(' +
          (0 + (t.chars.count '(' + 0)) =
        ((List.concat ts t).flatMap fun t : NominalType => ',' :: ' ' :: t.chars).count '(' + 0
      rw [flatMap_concat_chars (fun t : NominalType => ',' :: ' ' :: t.chars) ts t]
      simp
    all_goals exact absurd hgroup (by decide)
  · rw [Bool.not_eq_true] at hgroup
    have hne : p ≠ .primaryGroup := by
      rintro rfl
      exact absurd hgroup (by decide)
    rw [p.chars_meaning source s vs hp hgroup hvs, p.count_spaced, if_neg hne, Nat.add_zero]

mutual

/-- The words of a derivation of a type have the opening parentheses of its text and those that are
grouping parentheses. -/
theorem Derivation.count_words {s : Symbol} (d : Derivation s) (source : List Char)
    (htype : s.isType = true) (hmatches : ∀ x ∈ d.words, x.1.Matches x.2.text) :
    (wordChars d.words).count '(' = (s.chars (d.value source)).count '(' + d.groups :=
  match d with
  | .leaf t w => by
    have hw : t.Matches w.text := hmatches (t, w) (List.mem_singleton.2 rfl)
    have hwords : wordChars (Derivation.leaf t w).words = w.text := List.append_nil w.text
    rw [hwords, Derivation.groups, Nat.add_zero]
    exact congrArg (List.count '(') (Symbol.chars_of_matches w hw).symm
  | .node p ds => by
    have hwords := ds.count_words source (fun s hs => p.isType_of_mem htype hs) hmatches
    rw [p.count_meaning source (fun _ => ds.span) (ds.values source) htype
      (ds.allFit source hmatches), Nat.add_assoc] at hwords
    exact hwords

/-- The words of derivations of parts of a type have the opening parentheses of the texts of the
parts and those that are grouping parentheses. -/
theorem Derivations.count_words {ss : List Symbol} (ds : Derivations ss) (source : List Char)
    (htype : ∀ s ∈ ss, s.isType = true) (hmatches : ∀ x ∈ ds.words, x.1.Matches x.2.text) :
    (wordChars ds.words).count '(' =
      ((Symbol.charsAll ss (ds.values source)).map (List.count '(')).sum + ds.groups :=
  match ds with
  | .nil => rfl
  | .cons d ds => by
    have hd := d.count_words source (htype _ List.mem_cons_self)
      fun x hx => hmatches x (List.mem_append_left _ hx)
    have hds := ds.count_words source (fun s hs => htype s (List.mem_cons_of_mem _ hs))
      fun x hx => hmatches x (List.mem_append_right _ hx)
    rw [Derivations.words, Derivations.groups, Derivations.values, Symbol.charsAll, List.map_cons,
      List.sum_cons, wordChars, List.flatMap_append, List.count_append, ← wordChars, ← wordChars,
      hd, hds]
    omega

end

end Grammar

/-- The opening parentheses of the words among some pieces are among those of the pieces. -/
theorem Segment.count_words_le (ss : List Segment) (p : Position) :
    (wordChars (words p ss)).count '(' ≤ (join ss).count '(' := by
  induction ss generalizing p with
  | nil => exact Nat.zero_le _
  | cons s ss ih =>
    rw [join, List.flatMap_cons, List.count_append, ← join]
    cases s with
    | word t w =>
      have htail := ih (p.afterAll w)
      rw [words, wordChars, List.flatMap_cons, List.count_append, ← wordChars]
      exact Nat.add_le_add_left htail _
    | gap w =>
      have htail := ih (p.afterAll w)
      rw [words]
      exact Nat.le_add_left_of_le htail

namespace Grammar

mutual

/-- What is derived without grouping parentheses needs none. -/
theorem Derivation.bare_of_groups_eq_zero {s : Symbol} (d : Derivation s) (source : List Char)
    (h : d.groups = 0) : s.Bare (d.value source) :=
  match d with
  | .leaf t w => trivial
  | .node p ds => by
    rw [Derivation.groups] at h
    have hp : p ≠ .primaryGroup := by
      intro hp
      rw [if_pos hp] at h
      omega
    rw [if_neg hp, Nat.zero_add] at h
    exact p.bare_meaning source (fun _ => ds.span) (ds.values source) hp
      (ds.allBare_of_groups_eq_zero source h)

/-- What derivations without parentheses mean can be written without parentheses. -/
theorem Derivations.allBare_of_groups_eq_zero {ss : List Symbol} (ds : Derivations ss)
    (source : List Char) (h : ds.groups = 0) : Symbol.AllBare ss (ds.values source) :=
  match ds with
  | .nil => trivial
  | .cons d ds => by
    rw [Derivations.groups, Nat.add_eq_zero_iff] at h
    exact ⟨d.bare_of_groups_eq_zero source h.1, ds.allBare_of_groups_eq_zero source h.2⟩

end

end Grammar

end CadenceEntry
