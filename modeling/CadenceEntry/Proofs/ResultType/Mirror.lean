import CadenceEntry.Proofs.ResultType.Brackets

/-!
# Types as results

The type syntax has a second copy for results, without restriction lists. The words of a type are
those of a result of the same meaning, unless a restriction list stands outside of all brackets:
then the words before this list are a result, and behind it come only question marks. This is shown
production by production: where the last part of a type is a type again, the other parts are kept.
-/

set_option autoImplicit false

namespace CadenceEntry.Grammar

/-- What the words `ws` of a type with the value `v` are as the phrase `n` of the second copy. -/
inductive Mirrored (n : Nonterminal) (ks : List Terminal) (ws : List (Terminal × Lexeme))
    (v : n.Value) : Prop
  /-- No restriction list stands outside of all brackets, and the words are a result. -/
  | whole (d : Derivation (.phrase n)) (hproper : d.Proper ks) (hwords : d.words = ws)
      (hvalue : d.plainValue = v) (name : Bool)
      (hbehind : (WordPlace.mk 0 false).behindAll? ws = some ⟨0, name⟩)
  /-- The words before a restriction list are a result. -/
  | restricted (d : Derivation (.phrase n)) (hproper : d.Proper ks) (l r : Lexeme)
      (inner rest : List (Terminal × Lexeme))
      (hwords : ws = d.words ++ (.leftBrace, l) :: (inner ++ (.rightBrace, r) :: rest))
      (hinner : ∀ x ∈ inner, x.1 ∈ Terminal.listWords) (hrest : ∀ x ∈ rest, x.1 = .question)
      (hbehind : (WordPlace.mk 0 false).behindAll? ws = none)

namespace Mirrored

variable {m n : Nonterminal} {ks ks' : List Terminal} {ws ws' : List (Terminal × Lexeme)}

/-- A result is the last part of another one, behind the words `pre`. -/
theorem within {v : m.Value} {v' : n.Value} (h : Mirrored m ks' ws v)
    (pre : List (Terminal × Lexeme)) (build : Derivation (.phrase m) → Derivation (.phrase n))
    (hproper : ∀ d, d.Proper ks' → (build d).Proper ks)
    (hvalue : ∀ d, d.plainValue = v → (build d).plainValue = v')
    (hwords : ∀ d, (build d).words = pre ++ d.words)
    (hpre : (WordPlace.mk 0 false).behindAll? pre = some ⟨0, false⟩)
    (hws : ws' = pre ++ ws) : Mirrored n ks ws' v' := by
  subst hws
  cases h with
  | whole d hd hdwords hdvalue name hbehind =>
    refine .whole (build d) (hproper d hd) ?_ (hvalue d hdvalue) name ?_
    · rw [hwords, hdwords]
    · rw [WordPlace.behindAll?_append_of_some hpre, hbehind]
  | restricted d hd l r inner rest hdwords hinner hrest hbehind =>
    refine .restricted (build d) (hproper d hd) l r inner rest ?_ hinner hrest ?_
    · rw [hwords, hdwords, List.append_assoc]
    · rw [WordPlace.behindAll?_append_of_some hpre, hbehind]

/-- An optional result. -/
theorem optional {t : TypeExpr} (h : Mirrored .resultPostfix ks ws t) {w : Lexeme}
    (hw : (Derivation.leaf .question w).Proper []) :
    Mirrored .resultPostfix ks (ws ++ [(.question, w)]) (TypeExpr.optional t {}) := by
  cases h with
  | whole d hd hdwords hdvalue name hbehind =>
    refine .whole (.node .resultOptional (.cons d (.cons (.leaf .question w) .nil)))
      ⟨hd, hw, trivial⟩ ?_ ?_ false ?_
    · rw [← hdwords]
      rfl
    · rw [← hdvalue]
      rfl
    · rw [WordPlace.behindAll?_append_of_some hbehind]
      rfl
  | restricted d hd l r inner rest hdwords hinner hrest hbehind =>
    refine .restricted d hd l r inner (rest ++ [(.question, w)]) ?_ hinner ?_
      (WordPlace.behindAll?_append_of_none hbehind)
    · rw [hdwords]
      simp
    · intro x hx
      rcases List.mem_append.1 hx with hx | hx
      · exact hrest x hx
      · rw [List.mem_singleton.1 hx]

end Mirrored

/-- Productions with the same right-hand side reserve the same keywords. -/
theorem Derivations.Proper.of_rhs_eq {ss : List Symbol} {ds : Derivations ss} {p p' : Production}
    {n : Nat} {ks : List Terminal} (h : ds.Proper p n ks) (hrhs : p.rhs = p'.rhs) :
    ds.Proper p' n ks := by
  cases ds with
  | nil => trivial
  | cons d ds =>
    have hreserved : p.reservedAt (n + 1) = p'.reservedAt (n + 1) := by
      unfold Production.reservedAt
      rw [hrhs]
    refine ⟨h.1, ?_⟩
    rw [← hreserved]
    exact h.2.of_rhs_eq hrhs

/-- What is said of a derivation of a type as a result; nothing of other derivations. -/
def Derivation.Mirrors : {s : Symbol} → Derivation s → Prop
  | .phrase .annotatedType, d =>
    ∀ ks, d.Proper ks → Mirrored .annotatedResult ks d.words d.plainValue
  | .phrase .type, d | .phrase .functionType, d =>
    ∀ ks, d.Proper ks → Mirrored .resultType ks d.words d.plainValue
  | .phrase .postfixType, d =>
    ∀ ks, d.Proper ks → Mirrored .resultPostfix ks d.words d.plainValue
  | .phrase .primaryType, d | .phrase .referenceType, d =>
    ∀ ks, d.Proper ks → Mirrored .resultPrimary ks d.words d.plainValue
  | _, _ => True

/-- As `Derivation.Mirrors`, of all parts of a phrase. -/
def Derivations.AllMirror {ss : List Symbol} : Derivations ss → Prop
  | .nil => True
  | .cons d ds => d.Mirrors ∧ ds.AllMirror

/-- A production of both copies keeps its parts. -/
theorem Mirrored.of_rhs_eq (p p' : Production) {ds : Derivations p.rhs} {ks : List Terminal}
    (hrhs : p.rhs = p'.rhs) (hproper : ds.Proper p 0 ks) {name : Bool}
    (hbehind : (WordPlace.mk 0 false).behindAll? ds.words = some ⟨0, name⟩) :
    Mirrored p'.lhs ks ds.words (p'.meaning [] (fun _ => {}) (hrhs ▸ ds.plainValues)) := by
  have hcast : ∀ {ss : List Symbol} (h : p.rhs = ss), ∃ ds' : Derivations ss,
      ds'.words = ds.words ∧ ds'.Proper p 0 ks ∧ ds'.plainValues = h ▸ ds.plainValues := by
    rintro _ rfl
    exact ⟨ds, rfl, hproper, rfl⟩
  obtain ⟨ds', hwords, hproper', hvalues⟩ := hcast hrhs
  refine .whole (.node p' ds') (hproper'.of_rhs_eq hrhs) hwords ?_ name hbehind
  rw [Derivation.plainValue, hvalues]

/-- A production of both copies for a pair of brackets. -/
theorem Mirrored.of_brackets (p p' : Production) {ds : Derivations p.rhs} {ks : List Terminal}
    (hrhs : p.rhs = p'.rhs) (hproper : ds.Proper p 0 ks) (h : Symbol.areBracketed p.rhs = true) :
    Mirrored p'.lhs ks ds.words (p'.meaning [] (fun _ => {}) (hrhs ▸ ds.plainValues)) := by
  obtain ⟨name, hbehind⟩ := ds.exists_behindAll_brackets h false fun _ => rfl
  exact .of_rhs_eq p p' hrhs hproper hbehind

/-- An instantiation leaves no bracket open. -/
theorem Derivation.exists_behindAll_instantiation (d : Derivation (.phrase .instantiationType)) :
    ∃ name, (WordPlace.mk 0 false).behindAll? d.words = some ⟨0, name⟩ := by
  have hparts : ∀ {ss : List Symbol}
      (ds : Derivations (.phrase .nominalType :: .token .less :: ss)),
      Symbol.areBracketed (.token .less :: ss) = true →
        ∃ name, (WordPlace.mk 0 false).behindAll? ds.words = some ⟨0, name⟩ := by
    intro ss ds hss
    cases ds with | cons d ds =>
    obtain ⟨name, hds⟩ := ds.exists_behindAll_brackets hss true (by simp)
    refine ⟨name, ?_⟩
    rw [Derivations.words, WordPlace.behindAll?_append_of_some (d.behindAll?_nominalType 0 false),
      hds]
  obtain ⟨p, hp, ds, rfl⟩ := d.exists_node
  cases p
  case instantiationMany => exact hparts ds rfl
  case instantiationOne => exact hparts ds rfl
  case instantiationNone => exact hparts ds rfl
  all_goals exact absurd hp (by decide)

/-- What stands before the ampersand of a reference leaves no bracket open. -/
theorem Derivation.exists_behindAll_authorization (d : Derivation (.phrase .authorization)) :
    ∃ name, (WordPlace.mk 0 false).behindAll? d.words = some ⟨0, name⟩ := by
  have hparts : ∀ {ss : List Symbol} (ds : Derivations (.token .authWord :: ss)),
      Symbol.areBracketed ss = true →
        ∃ name, (WordPlace.mk 0 false).behindAll? ds.words = some ⟨0, name⟩ := by
    intro ss ds hss
    cases ds with | cons d ds =>
    cases d with | leaf t w =>
    exact ds.exists_behindAll_brackets hss false fun _ => rfl
  obtain ⟨p, hp, ds, rfl⟩ := d.exists_node
  cases p
  case authorizedMany => exact hparts ds rfl
  case authorizedOne => exact hparts ds rfl
  case authorizedBare =>
    obtain ⟨d, rfl⟩ := ds.exists_singleton
    cases d with | leaf t w =>
    exact ⟨false, rfl⟩
  all_goals exact absurd hp (by decide)

/-- What stands before the result of a function type leaves no bracket open. -/
theorem Derivations.behindAll?_parameters {ss : List Symbol} (ds : Derivations ss)
    (h : Symbol.areBracketed ss = true) (f c : Lexeme) :
    (WordPlace.mk 0 false).behindAll? ((.funWord, f) :: (ds.words ++ [(.colon, c)])) =
      some ⟨0, false⟩ := by
  obtain ⟨name, hbehind⟩ := ds.exists_behindAll_brackets h false fun _ => rfl
  have hfun : (WordPlace.mk 0 false).behind? .funWord = some ⟨0, false⟩ := rfl
  rw [WordPlace.behindAll?_cons, hfun, Option.bind_some,
    WordPlace.behindAll?_append_of_some hbehind]
  rfl

/-- A restriction list behind a type name ends the count, and the name is a result. -/
theorem Mirrored.of_restriction {ss : List Symbol} {p : Production} {ks : List Terminal}
    (ds : Derivations (.phrase .nominalType :: .token .leftBrace :: ss))
    (hproper : ds.Proper p 0 ks)
    (hss : ∃ ss', ss = ss' ++ [.token .rightBrace] ∧ ∀ s ∈ ss', s.inList = true) {t : TypeExpr} :
    Mirrored .resultPrimary ks ds.words t := by
  obtain ⟨ss, rfl, hlist⟩ := hss
  have hsplit : ∀ {ss : List Symbol} (ds : Derivations (ss ++ [.token .rightBrace])),
      (∀ s ∈ ss, s.inList = true) → ∃ (inner : List (Terminal × Lexeme)) (r : Lexeme),
        ds.words = inner ++ [(.rightBrace, r)] ∧ ∀ x ∈ inner, x.1 ∈ Terminal.listWords := by
    intro ss ds hss
    induction ss with
    | nil =>
      obtain ⟨d, rfl⟩ := ds.exists_singleton
      cases d with | leaf t r =>
      exact ⟨[], r, rfl, by simp⟩
    | cons s ss ih =>
      cases ds with | cons d ds =>
      obtain ⟨inner, r, hds, hinner⟩ := ih ds fun s hs => hss s (List.mem_cons_of_mem _ hs)
      have hd := d.mem_listWords (hss s List.mem_cons_self)
      refine ⟨d.words ++ inner, r, by rw [Derivations.words, hds, List.append_assoc], ?_⟩
      intro x hx
      rcases List.mem_append.1 hx with hx | hx
      · exact hd x hx
      · exact hinner x hx
  cases ds with | cons d ds =>
  cases ds with | cons d' ds =>
  cases d' with | leaf _ l =>
  obtain ⟨inner, r, hds, hinner⟩ := hsplit ds hlist
  refine .restricted (.node .resultNominal (.cons d .nil)) ⟨hproper.1, trivial⟩ l r inner [] ?_
    hinner (by simp) ?_
  · simp [Derivation.words, Derivations.words, hds]
  · rw [Derivations.words, WordPlace.behindAll?_append_of_some (d.behindAll?_nominalType 0 false)]
    rfl

/-- A function type is a result as far as its own result is one. -/
theorem Production.mirrors_function (p : Production) (hp : p.lhs = .functionType)
    (ds : Derivations p.rhs) (h : ds.AllMirror) : (Derivation.node p ds).Mirrors := by
  cases p
  case functionTypeMany =>
    intro ks hproper
    match ds, h, hproper with
    | .cons (.leaf _ f) (.cons o (.cons a (.cons as (.cons c (.cons (.leaf _ k) (.cons r .nil)))))),
        ⟨_, _, _, _, _, _, hr, _⟩, ⟨hf, ho, ha, has, hc, hk, hproper, _⟩ =>
      let ps := Derivations.cons o (.cons a (.cons as (.cons c .nil)))
      refine (hr _ hproper).within ((.funWord, f) :: (ps.words ++ [(.colon, k)]))
        (fun d => .node .resultFunctionMany (.cons (.leaf .funWord f) (.cons o (.cons a (.cons as
          (.cons c (.cons (.leaf .colon k) (.cons d .nil)))))))) ?_ ?_ ?_ ?_ ?_
      · exact fun d hd => ⟨hf, ho, ha, has, hc, hk, hd, trivial⟩
      · intro d hd
        simp only [Derivation.plainValue, Derivations.plainValues, hd]
        rfl
      · exact fun d => by simp [ps, Derivation.words, Derivations.words]
      · exact ps.behindAll?_parameters rfl f k
      · simp [ps, Derivation.words, Derivations.words]
  case functionTypeOne =>
    intro ks hproper
    match ds, h, hproper with
    | .cons (.leaf _ f) (.cons o (.cons a (.cons c (.cons (.leaf _ k) (.cons r .nil))))),
        ⟨_, _, _, _, _, hr, _⟩, ⟨hf, ho, ha, hc, hk, hproper, _⟩ =>
      let ps := Derivations.cons o (.cons a (.cons c .nil))
      refine (hr _ hproper).within ((.funWord, f) :: (ps.words ++ [(.colon, k)]))
        (fun d => .node .resultFunctionOne (.cons (.leaf .funWord f) (.cons o (.cons a
          (.cons c (.cons (.leaf .colon k) (.cons d .nil))))))) ?_ ?_ ?_ ?_ ?_
      · exact fun d hd => ⟨hf, ho, ha, hc, hk, hd, trivial⟩
      · intro d hd
        simp only [Derivation.plainValue, Derivations.plainValues, hd]
        rfl
      · exact fun d => by simp [ps, Derivation.words, Derivations.words]
      · exact ps.behindAll?_parameters rfl f k
      · simp [ps, Derivation.words, Derivations.words]
  case functionTypeNone =>
    intro ks hproper
    match ds, h, hproper with
    | .cons (.leaf _ f) (.cons o (.cons c (.cons (.leaf _ k) (.cons r .nil)))),
        ⟨_, _, _, _, hr, _⟩, ⟨hf, ho, hc, hk, hproper, _⟩ =>
      let ps := Derivations.cons o (.cons c .nil)
      refine (hr _ hproper).within ((.funWord, f) :: (ps.words ++ [(.colon, k)]))
        (fun d => .node .resultFunctionNone (.cons (.leaf .funWord f) (.cons o
          (.cons c (.cons (.leaf .colon k) (.cons d .nil)))))) ?_ ?_ ?_ ?_ ?_
      · exact fun d hd => ⟨hf, ho, hc, hk, hd, trivial⟩
      · intro d hd
        simp only [Derivation.plainValue, Derivations.plainValues, hd]
        rfl
      · exact fun d => by simp [ps, Derivation.words, Derivations.words]
      · exact ps.behindAll?_parameters rfl f k
      · simp [ps, Derivation.words, Derivations.words]
  all_goals exact absurd hp (by decide)

/-- A production of a type is one of a result, as far as no restriction list is in the way. -/
theorem Production.mirrors (p : Production) (ds : Derivations p.rhs) (h : ds.AllMirror) :
    (Derivation.node p ds).Mirrors := by
  have hempty : ∀ {ws : List (Terminal × Lexeme)}, ws ++ [] = [] ++ ws := by simp
  cases p
  case annotationResource =>
    intro ks hproper
    cases ds with | cons d ds =>
    obtain ⟨d', rfl⟩ := ds.exists_singleton
    cases d with | leaf t w =>
    exact (h.2.1 _ hproper.2.1).within [(.atSign, w)]
      (fun d => .node .resultResource (.cons (.leaf .atSign w) (.cons d .nil)))
      (fun d hd => ⟨hproper.1, hd, trivial⟩) (fun d => congrArg (AnnotatedType.mk true · {}))
      (fun d => by simp [Derivation.words, Derivations.words]) rfl
      (by simp [Derivation.words, Derivations.words])
  case annotationPlain =>
    intro ks hproper
    obtain ⟨d', rfl⟩ := ds.exists_singleton
    exact (h.1 _ hproper.1).within [] (fun d => .node .resultPlain (.cons d .nil))
      (fun d hd => ⟨hd, trivial⟩) (fun d => congrArg (AnnotatedType.mk false · {}))
      (fun d => hempty) rfl hempty
  case typePostfix =>
    intro ks hproper
    obtain ⟨d', rfl⟩ := ds.exists_singleton
    exact (h.1 _ hproper.1).within [] (fun d => .node .resultPostfix (.cons d .nil))
      (fun d hd => ⟨hd, trivial⟩) (fun d hd => hd) (fun d => hempty) rfl hempty
  case typeFunction =>
    intro ks hproper
    obtain ⟨d', rfl⟩ := ds.exists_singleton
    exact (h.1 _ hproper.1).within [] id (fun d hd => hd) (fun d hd => hd) (fun d => rfl) rfl hempty
  case postfixPrimary =>
    intro ks hproper
    obtain ⟨d', rfl⟩ := ds.exists_singleton
    exact (h.1 _ hproper.1).within [] (fun d => .node .resultPrimary (.cons d .nil))
      (fun d hd => ⟨hd, trivial⟩) (fun d hd => hd) (fun d => hempty) rfl hempty
  case postfixOptional =>
    intro ks hproper
    cases ds with | cons d ds =>
    obtain ⟨d', rfl⟩ := ds.exists_singleton
    cases d' with | leaf t w =>
    exact (h.1 _ hproper.1).optional hproper.2.1
  case primaryReference =>
    intro ks hproper
    obtain ⟨d', rfl⟩ := ds.exists_singleton
    exact (h.1 _ hproper.1).within [] id (fun d hd => hd) (fun d hd => hd) (fun d => rfl) rfl hempty
  case restrictedMany =>
    intro ks hproper
    exact .of_restriction ds hproper ⟨[.phrase .nominalType, .phrase .moreNominals], rfl, by decide⟩
  case restrictedOne =>
    intro ks hproper
    exact .of_restriction ds hproper ⟨[.phrase .nominalType], rfl, by decide⟩
  case restrictedNone =>
    intro ks hproper
    exact .of_restriction ds hproper ⟨[], rfl, by decide⟩
  case primaryNominal =>
    intro ks hproper
    obtain ⟨d', rfl⟩ := ds.exists_singleton
    have hbehind := d'.behindAll?_nominalType 0 false
    rw [← List.append_nil d'.words] at hbehind
    exact .of_rhs_eq .primaryNominal .resultNominal rfl hproper hbehind
  case primaryInstantiation =>
    intro ks hproper
    obtain ⟨d', rfl⟩ := ds.exists_singleton
    obtain ⟨name, hbehind⟩ := d'.exists_behindAll_instantiation
    rw [← List.append_nil d'.words] at hbehind
    exact .of_rhs_eq .primaryInstantiation .resultInstantiation rfl hproper hbehind
  case primaryArray =>
    exact fun ks hproper => .of_brackets .primaryArray .resultArray rfl hproper rfl
  case primarySizedArray =>
    exact fun ks hproper => .of_brackets .primarySizedArray .resultSizedArray rfl hproper rfl
  case primaryDictionary =>
    exact fun ks hproper => .of_brackets .primaryDictionary .resultDictionary rfl hproper rfl
  case primaryIntersectionMany =>
    exact fun ks hproper =>
      .of_brackets .primaryIntersectionMany .resultIntersectionMany rfl hproper rfl
  case primaryIntersectionOne =>
    exact fun ks hproper =>
      .of_brackets .primaryIntersectionOne .resultIntersectionOne rfl hproper rfl
  case primaryIntersectionNone =>
    exact fun ks hproper =>
      .of_brackets .primaryIntersectionNone .resultIntersectionNone rfl hproper rfl
  case primaryGroup =>
    exact fun ks hproper => .of_brackets .primaryGroup .resultGroup rfl hproper rfl
  case referenceAuthorized =>
    intro ks hproper
    cases ds with | cons e ds =>
    cases ds with | cons d ds =>
    obtain ⟨d', rfl⟩ := ds.exists_singleton
    cases d with | leaf t w =>
    obtain ⟨name, he⟩ := e.exists_behindAll_authorization
    refine (h.2.2.1 _ hproper.2.2.1).within (e.words ++ [(.ampersand, w)])
      (fun d => .node .resultAuthorizedReference
        (.cons e (.cons (.leaf .ampersand w) (.cons d .nil)))) ?_ ?_ ?_ ?_ ?_
    · exact fun d hd => ⟨hproper.1, hproper.2.1, hd, trivial⟩
    · exact fun d => congrArg (TypeExpr.reference true e.plainValue · {})
    · exact fun d => by simp [Derivation.words, Derivations.words]
    · rw [WordPlace.behindAll?_append_of_some he]
      rfl
    · simp [Derivation.words, Derivations.words]
  case reference =>
    intro ks hproper
    cases ds with | cons d ds =>
    obtain ⟨d', rfl⟩ := ds.exists_singleton
    cases d with | leaf t w =>
    exact (h.2.1 _ hproper.2.1).within [(.ampersand, w)]
      (fun d => .node .resultReference (.cons (.leaf .ampersand w) (.cons d .nil)))
      (fun d hd => ⟨hproper.1, hd, trivial⟩) (fun d => congrArg (TypeExpr.reference false [] · {}))
      (fun d => by simp [Derivation.words, Derivations.words]) rfl
      (by simp [Derivation.words, Derivations.words])
  case functionTypeMany => exact mirrors_function .functionTypeMany rfl ds h
  case functionTypeOne => exact mirrors_function .functionTypeOne rfl ds h
  case functionTypeNone => exact mirrors_function .functionTypeNone rfl ds h
  all_goals exact trivial

mutual

/-- A derivation of a type is one of a result, as far as no restriction list is in the way. -/
theorem Derivation.mirrors {s : Symbol} (d : Derivation s) : d.Mirrors :=
  match d with
  | .leaf t w => trivial
  | .node p ds => p.mirrors ds ds.allMirror

/-- All parts of a phrase are mirrored. -/
theorem Derivations.allMirror {ss : List Symbol} (ds : Derivations ss) : ds.AllMirror :=
  match ds with
  | .nil => trivial
  | .cons d ds => ⟨d.mirrors, ds.allMirror⟩

end

end CadenceEntry.Grammar
