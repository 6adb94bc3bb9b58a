import CadenceEntry.Proofs.Response.OneResponse

/-!
# Which declaration is the entry point

A policy looks at the transactions of a program, and at the functions called `main` only if there
are none. All that matters of either list is its length and its last declaration, so declarations
of another kind can stand anywhere in a program.
-/

set_option autoImplicit false

namespace CadenceEntry

/-- Whether a declaration can be an entry point: a transaction or a function called `main`. -/
def Declaration.IsCandidate : Declaration → Prop
  | .transaction _ => True
  | .function d => d.name.text = Program.mainName
  | _ => False

namespace Program

/-- The transactions of a program are those of its parts. -/
theorem transactions_append (ds es : List Declaration) :
    transactions ⟨ds ++ es⟩ = transactions ⟨ds⟩ ++ transactions ⟨es⟩ :=
  List.filterMap_append

/-- The main functions of a program are those of its parts. -/
theorem mains_append (ds es : List Declaration) :
    mains ⟨ds ++ es⟩ = mains ⟨ds⟩ ++ mains ⟨es⟩ := by
  unfold mains functions
  rw [List.filterMap_append, List.filter_append]

/-- Where nothing can be an entry point there are no transactions. -/
theorem transactions_eq_nil {ds : List Declaration} (h : ∀ d ∈ ds, ¬ d.IsCandidate) :
    transactions ⟨ds⟩ = [] := by
  apply List.filterMap_eq_nil_iff.2
  intro d hd
  cases d with
  | transaction d => exact absurd trivial (h _ hd)
  | _ => rfl

/-- Where nothing can be an entry point there are no main functions. -/
theorem mains_eq_nil {ds : List Declaration} (h : ∀ d ∈ ds, ¬ d.IsCandidate) :
    mains ⟨ds⟩ = [] := by
  apply List.filter_eq_nil_iff.2
  intro f hf hmain
  obtain ⟨d, hd, hdf⟩ := List.mem_filterMap.1 hf
  cases d with
  | function d =>
    cases hdf
    exact h _ hd (eq_of_beq hmain)
  | _ => cases hdf

/-- Declarations of another kind put among those of a program leave its candidates as they are. -/
theorem candidates_insert (before after : List Declaration) {others : List Declaration}
    (h : ∀ d ∈ others, ¬ d.IsCandidate) :
    transactions ⟨before ++ others ++ after⟩ = transactions ⟨before ++ after⟩ ∧
      mains ⟨before ++ others ++ after⟩ = mains ⟨before ++ after⟩ := by
  constructor
  · rw [transactions_append, transactions_append before, transactions_append before,
      transactions_eq_nil h, List.append_nil]
  · rw [mains_append, mains_append before, mains_append before, mains_eq_nil h, List.append_nil]

/-- The entry point depends on the candidates only. -/
theorem entryPoint_congr {p p' : Program} (ht : p.transactions = p'.transactions)
    (hm : p.mains = p'.mains) (policy : Policy) : p.entryPoint policy = p'.entryPoint policy := by
  unfold entryPoint transaction main
  rw [ht, hm]

/-- With a transaction in a program its functions do not matter. -/
theorem entryPoint_of_transactions (policy : Policy) {p : Program} (h : p.transactions ≠ []) :
    p.entryPoint policy =
      (policy.choose .transaction p.transactions).map (Option.map .transaction) := by
  unfold entryPoint transaction
  rcases policy.choose_cases .transaction p.transactions with ht | ⟨-, -, ht⟩
  · rw [ht, List.getLast?_eq_some_getLast h]
    rfl
  · rw [ht]
    rfl

/-- Without a transaction in a program a function called `main` is chosen. -/
theorem entryPoint_of_no_transactions (policy : Policy) {p : Program} (h : p.transactions = []) :
    p.entryPoint policy = (policy.choose .main p.mains).map (Option.map .script) := by
  have ht : policy.choose .transaction p.transactions = .ok none := by
    rw [h]
    exact if_neg fun hlength => Nat.not_lt_zero _ hlength.2
  unfold entryPoint transaction
  rw [ht]
  cases hm : policy.choose .main p.mains with
  | error e =>
    change (main policy p).bind _ = _
    rw [main, hm]
    rfl
  | ok m? =>
    change (main policy p).bind _ = _
    rw [main, hm]
    rfl

end Program

/-- The strict policy refuses several candidates. -/
theorem Policy.choose_strict {α : Type} (kind : EntryPointKind) {candidates : List α}
    (h : 1 < candidates.length) :
    Policy.strict.choose kind candidates = .error ⟨kind, candidates.length⟩ :=
  if_pos ⟨rfl, h⟩

/-- The message about several candidates says how many of what there are. -/
theorem DuplicateEntryPoint.message_eq (kind : EntryPointKind) (n : Nat) :
    message ⟨kind, n⟩ = "program declares " ++ toString n ++
      (" " ++ (kind.plural ++ ", expected at most one")) := by
  unfold message
  rw [String.append_assoc, String.append_assoc]

/-- The descriptors of the types of the parameters in a pair of parentheses. -/
def ParameterList.descriptors (table : KindTable ScalarKind) (ps : ParameterList) :
    List (Descriptor String) :=
  ps.parameters.map fun p => .ofType table p.type.type

namespace Interaction

/-- How the interaction of a program follows from its transactions and its functions called
`main`. -/
structure FollowsCandidates (table : KindTable ScalarKind) (p : Program) : Prop where
  transaction : ∀ h : p.transactions ≠ [], ofProgram .last table p =
    .ok ⟨.transaction, (p.transactions.getLast h).parameters.descriptors table⟩
  script : p.transactions = [] → ∀ h : p.mains ≠ [], ofProgram .last table p =
    .ok ⟨.script, (p.mains.getLast h).parameters.descriptors table⟩
  unknown : p.transactions = [] → p.mains = [] → ofProgram .last table p = .ok ⟨.unknown, []⟩
  severalTransactions : 1 < p.transactions.length →
    ∃ e, ofProgram .strict table p = .error e ∧ e.message = "program declares " ++
      toString p.transactions.length ++ " transaction declarations, expected at most one"
  severalMains : p.transactions = [] → 1 < p.mains.length →
    ∃ e, ofProgram .strict table p = .error e ∧ e.message = "program declares " ++
      toString p.mains.length ++ " main functions, expected at most one"
  refuses_iff : (∃ e, ofProgram .strict table p = .error e) ↔
    1 < p.transactions.length ∨ p.transactions = [] ∧ 1 < p.mains.length
  strict_eq : ∀ i, ofProgram .strict table p = .ok i → ofProgram .last table p = .ok i
  inserted : ∀ (policy : Policy) (before others after : List Declaration),
    p.declarations = before ++ after → (∀ d ∈ others, ¬ d.IsCandidate) →
      ofProgram policy table ⟨before ++ others ++ after⟩ = ofProgram policy table p

/-- The interaction with a program whose entry point is refused. -/
theorem ofProgram_of_error {policy : Policy} {p : Program} {e : DuplicateEntryPoint}
    (h : p.entryPoint policy = .error e) (table : KindTable ScalarKind) :
    ofProgram policy table p = .error e := by
  unfold ofProgram
  rw [h]
  rfl

/-- Several transactions are refused under the strict policy. -/
theorem ofProgram_strict_of_transactions (table : KindTable ScalarKind) {p : Program}
    (h : 1 < p.transactions.length) :
    ofProgram .strict table p = .error ⟨.transaction, p.transactions.length⟩ := by
  apply ofProgram_of_error
  have hne : p.transactions ≠ [] := List.ne_nil_of_length_pos (Nat.zero_lt_of_lt h)
  rw [Program.entryPoint_of_transactions .strict hne, Policy.choose_strict _ h]
  rfl

/-- Several main functions are too many for the strict policy, where there is no transaction. -/
theorem ofProgram_strict_of_mains (table : KindTable ScalarKind) {p : Program}
    (ht : p.transactions = []) (h : 1 < p.mains.length) :
    ofProgram .strict table p = .error ⟨.main, p.mains.length⟩ := by
  apply ofProgram_of_error
  rw [Program.entryPoint_of_no_transactions .strict ht, Policy.choose_strict _ h]
  rfl

/-- The strict policy gives what the other one does, or refuses a program that is ambiguous. -/
theorem ofProgram_strict_cases (table : KindTable ScalarKind) (p : Program) :
    (∃ i, ofProgram .strict table p = .ok i ∧ ofProgram .last table p = .ok i) ∨
      ∃ e, ofProgram .strict table p = .error e ∧ p.Ambiguous := by
  rcases p.entryPoint_cases .strict with ⟨e?, hstrict, hlast⟩ | ⟨e, he, -, hambiguous⟩
  · left
    refine ⟨ofEntryPoint table e?, ?_, ?_⟩ <;> unfold ofProgram
    · rw [hstrict]
      rfl
    · rw [hlast]
      rfl
  · exact .inr ⟨e, ofProgram_of_error he table, hambiguous⟩

/-- The candidates of a program decide its interaction under both policies. -/
theorem ofProgram_followsCandidates (table : KindTable ScalarKind) (p : Program) :
    FollowsCandidates table p where
  transaction h := by
    unfold ofProgram
    rw [Program.entryPoint_of_transactions .last h, Policy.choose_last,
      List.getLast?_eq_some_getLast h]
    simp [Except.map, ofEntryPoint, kindOf, parameterTypes, EntryPoint.parameters,
      ParameterList.descriptors]
  script ht h := by
    unfold ofProgram
    rw [Program.entryPoint_of_no_transactions .last ht, Policy.choose_last,
      List.getLast?_eq_some_getLast h]
    simp [Except.map, ofEntryPoint, kindOf, parameterTypes, EntryPoint.parameters,
      ParameterList.descriptors]
  unknown ht hm := by
    unfold ofProgram
    rw [Program.entryPoint_of_no_transactions .last ht, Policy.choose_last, hm]
    rfl
  severalTransactions h :=
    ⟨_, ofProgram_strict_of_transactions table h, DuplicateEntryPoint.message_eq _ _⟩
  severalMains ht h :=
    ⟨_, ofProgram_strict_of_mains table ht h, DuplicateEntryPoint.message_eq _ _⟩
  refuses_iff := by
    constructor
    · rintro ⟨e, he⟩
      rcases ofProgram_strict_cases table p with ⟨i, hi, -⟩ | ⟨-, -, hambiguous⟩
      · rw [hi] at he
        cases he
      · exact hambiguous
    · rintro (h | ⟨ht, h⟩)
      · exact ⟨_, ofProgram_strict_of_transactions table h⟩
      · exact ⟨_, ofProgram_strict_of_mains table ht h⟩
  strict_eq i hi := by
    rcases ofProgram_strict_cases table p with ⟨i', hi', hlast⟩ | ⟨e, he, -⟩
    · rw [hlast, ← hi', hi]
    · rw [he] at hi
      cases hi
  inserted policy before others after hp hothers := by
    obtain ⟨ht, hm⟩ := Program.candidates_insert before after hothers
    have hp' : p = ⟨before ++ after⟩ := by rw [← hp]
    unfold ofProgram
    rw [Program.entryPoint_congr ht hm policy, hp']

end Interaction

end CadenceEntry
