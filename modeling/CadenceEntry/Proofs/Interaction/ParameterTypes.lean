import CadenceEntry.Proofs.Interaction.Selection
import CadenceEntry.Proofs.Syntax.Soundness
import CadenceEntry.Proofs.TypeText.WellFormed

/-!
# The types of parameters

The types of the parameters of a program that has been read are well-formed like a type that is read
by itself: the types in a derivation are, and the productions from there to the program keep the
parameters (`Production.typed_meaning`).
-/

set_option autoImplicit false

namespace CadenceEntry

open Grammar

/-- The types of all parameters are well-formed. -/
def ParameterList.Typed (ps : ParameterList) : Prop := ∀ p ∈ ps.parameters, p.type.WellFormed

/-- The types of the parameters of what can be an entry point are well-formed. -/
def Declaration.Typed : Declaration → Prop
  | .transaction d => d.parameters.Typed
  | .function d => d.parameters.Typed
  | _ => True

namespace Grammar

/-- The types in the value of a phrase are well-formed if they are the types of parameters, or if
the phrase is part of a type. -/
def Nonterminal.Typed : (n : Nonterminal) → n.Value → Prop
  | .program, (p : Program) => ∀ d ∈ p.declarations, d.Typed
  | .declarations, (ds : List Declaration) => ∀ d ∈ ds, d.Typed
  | .declaration, (d? : Option Declaration) => ∀ d ∈ d?.toList, d.Typed
  | .transactionDeclaration, (d : TransactionDeclaration) => d.parameters.Typed
  | .functionDeclaration, (d : FunctionDeclaration) => d.parameters.Typed
  | .parameterList, (ps : ParameterList) => ps.Typed
  | .moreParameters, (ps : List Parameter) => ∀ p ∈ ps, p.type.WellFormed
  | .parameter, (p : Parameter) => p.type.WellFormed
  | n, v => n.WellFormed v

/-- A type that is well-formed is well-formed as the value of a phrase. -/
theorem Nonterminal.typed_of_wellFormed {n : Nonterminal} {v : n.Value} (hn : n.isType = true)
    (h : n.WellFormed v) : n.Typed v := by
  cases n <;> first | exact h | exact absurd hn (by decide)

/-- What is required of the value of a phrase. Nothing is required of words. -/
def Symbol.Typed : (s : Symbol) → s.Value → Prop
  | .token _, _ => True
  | .phrase n, v => n.Typed v

/-- What is required of the values of a list of symbols. -/
def Symbol.AllTyped : (ss : List Symbol) → Symbol.Values ss → Prop
  | [], _ => True
  | s :: ss, (v, vs) => s.Typed v ∧ Symbol.AllTyped ss vs

/-- What is put together from parameters with well-formed types has such parameters. -/
theorem Production.typed_meaning (p : Production) (source : List Char) (s : Unit → Span)
    (vs : Symbol.Values p.rhs) (hp : p.lhs.isType = false) (h : Symbol.AllTyped p.rhs vs) :
    p.lhs.Typed (p.meaning source s vs) := by
  have hdeclarations : ∀ (ds : List Declaration) (d? : Option Declaration),
      (∀ d ∈ ds, d.Typed) → (∀ d ∈ d?.toList, d.Typed) → ∀ d ∈ ds ++ d?.toList, d.Typed :=
    fun _ _ hds hd => List.forall_mem_append.2 ⟨hds, hd⟩
  have hempty : ∀ p ∈ ([] : List Parameter), p.type.WellFormed := nofun
  cases p
  case programSome => exact h.1
  case programEmpty => exact List.forall_mem_nil Declaration.Typed
  case declarationsFirst => exact h.1
  case declarationsNext =>
    obtain ⟨ds, d?, _⟩ := vs
    exact hdeclarations ds d? h.1 h.2.1
  case declarationTransaction => exact List.forall_mem_singleton.2 h.1
  case declarationFunction => exact List.forall_mem_singleton.2 h.1
  case declarationSemicolon => exact List.forall_mem_nil Declaration.Typed
  case transactionParametersMembers => exact h.2.1
  case transactionParameters => exact h.2.1
  case transactionMembers => exact hempty
  case transactionBare => exact hempty
  case functionAccessViewResult => exact h.2.2.2.2.1
  case functionAccessView => exact h.2.2.2.2.1
  case functionAccessResult => exact h.2.2.2.1
  case functionAccess => exact h.2.2.2.1
  case functionViewResult => exact h.2.2.2.1
  case functionView => exact h.2.2.2.1
  case functionResult => exact h.2.2.1
  case function => exact h.2.2.1
  case parametersMany => exact List.forall_mem_cons.2 ⟨h.2.1, h.2.2.1⟩
  case parametersOne => exact List.forall_mem_singleton.2 h.2.1
  case parametersNone => exact hempty
  case parameter => exact h.2.2.1
  case parameterLabeled => exact h.2.2.2.1
  case parameterFirst => exact List.forall_mem_singleton.2 h.2.1
  case parameterNext => exact forall_mem_concat h.1 h.2.2.1
  all_goals first | trivial | exact List.forall_mem_singleton.2 trivial

mutual

/-- What is derived from words of their terminals and literals with a value has parameters with
well-formed types. -/
theorem Derivation.typed_value {s : Symbol} (d : Derivation s) (source : List Char)
    (hmatches : ∀ x ∈ d.words, x.1.Matches x.2.text) (hvalid : d.invalidInteger? = none) :
    s.Typed (d.value source) :=
  match d with
  | .leaf _ _ => trivial
  | .node p ds => by
    cases hp : p.lhs.isType with
    | true =>
      exact Nonterminal.typed_of_wellFormed hp
        ((Derivation.node p ds).wellFormed_value source hp hmatches hvalid)
    | false =>
      exact p.typed_meaning source (fun _ => ds.span) (ds.values source) hp
        (ds.allTyped_values source hmatches hvalid)

/-- The types of parameters in the values of derivations are well-formed. -/
theorem Derivations.allTyped_values {ss : List Symbol} (ds : Derivations ss) (source : List Char)
    (hmatches : ∀ x ∈ ds.words, x.1.Matches x.2.text) (hvalid : ds.invalidInteger? = none) :
    Symbol.AllTyped ss (ds.values source) :=
  match ds with
  | .nil => trivial
  | .cons d ds => by
    obtain ⟨hd, hds⟩ := (Derivations.invalidInteger?_cons d ds).1 hvalid
    exact ⟨d.typed_value source (fun x hx => hmatches x (List.mem_append_left _ hx)) hd,
      ds.allTyped_values source (fun x hx => hmatches x (List.mem_append_right _ hx)) hds⟩

end

end Grammar

/-- The types of the parameters in a program that has been read are well-formed. -/
theorem Program.typed_of_parse {text : String} {p : Program} (h : Program.parse text = .ok p) :
    ∀ d ∈ p.declarations, d.Typed := by
  obtain ⟨d, hderive, hvalid, rfl⟩ := Program.exists_derive_of_parse h
  have hmatches := Source.matches_of_derive (g := .program) hderive
  exact d.typed_value text.toList hmatches hvalid

/-! ## Entry points -/

/-- What a policy chooses is one of the candidates. -/
theorem Policy.mem_of_choose {α : Type} {policy : Policy} {kind : EntryPointKind}
    {candidates : List α} {a : α} (h : policy.choose kind candidates = .ok (some a)) :
    a ∈ candidates := by
  unfold choose at h
  split at h
  · cases h
  · exact List.mem_of_getLast? (Except.ok.inj h)

/-- The types of the parameters of the entry point are well-formed if all in the program are. -/
theorem Program.wellFormed_of_entryPoint {policy : Policy} {p : Program} {e : EntryPoint}
    (hp : ∀ d ∈ p.declarations, d.Typed) (h : p.entryPoint policy = .ok (some e)) :
    ∀ x ∈ e.parameters, x.type.WellFormed := by
  have htransactions : ∀ d ∈ p.transactions, d.parameters.Typed := by
    intro d hd
    obtain ⟨d', hd', heq⟩ := List.mem_filterMap.1 hd
    cases d' <;> cases heq
    exact hp _ hd'
  have hfunctions : ∀ d ∈ p.functions, d.parameters.Typed := by
    intro d hd
    obtain ⟨d', hd', heq⟩ := List.mem_filterMap.1 hd
    cases d' <;> cases heq
    exact hp _ hd'
  by_cases hnil : p.transactions = []
  · rw [entryPoint_of_no_transactions policy hnil] at h
    cases hchoose : policy.choose .main p.mains with
    | error e =>
      rw [hchoose] at h
      cases h
    | ok d? =>
      rw [hchoose] at h
      obtain ⟨d, rfl, rfl⟩ := Option.map_eq_some_iff.1 (Except.ok.inj h)
      exact hfunctions d (List.mem_of_mem_filter (Policy.mem_of_choose hchoose))
  · rw [entryPoint_of_transactions policy hnil] at h
    cases hchoose : policy.choose .transaction p.transactions with
    | error e =>
      rw [hchoose] at h
      cases h
    | ok d? =>
      rw [hchoose] at h
      obtain ⟨d, rfl, rfl⟩ := Option.map_eq_some_iff.1 (Except.ok.inj h)
      exact htransactions d (Policy.mem_of_choose hchoose)

end CadenceEntry
