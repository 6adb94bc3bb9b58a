import CadenceEntry.Proofs.Response.Assembling
import CadenceEntry.Proofs.Syntax.Building
import CadenceEntry.Response

/-!
# One response to every source text

A response is found by steps that could each break off without one: by an automaton that may get
stuck, by building nodes from lists of children, and by putting descriptors together from parts that
may not fit. `Response.answered` shows that no step ever breaks off, and which of its members the
response has.
-/

set_option autoImplicit false

namespace CadenceEntry

/-- What reading a source text tells. -/
structure ParseResult where
  program : Option Program := none
  error : Option String := none

namespace ParseResult

/-- What reading a source text tells. -/
def ofSource (source : String) : ParseResult :=
  match Program.parse source with
  | .ok p => { program := some p }
  | .error e => { error := some e.message }

/-- What reading a source text tells, unless something breaks. -/
def ofSource? (source : String) : Option ParseResult :=
  match Program.parseStrictly source with
  | .ok p => some { program := some p }
  | .error (.refused e) => some { error := some e.message }
  | .error .broken => none

/-- There is a program and no error, or an error that says something and no program. -/
inductive WellFormed : ParseResult → Prop
  | parsed (p : Program) : WellFormed { program := some p }
  | refused (m : String) (h : m ≠ "") : WellFormed { error := some m }

/-- Nothing breaks, whatever the source text is. -/
theorem ofSource?_eq (source : String) : ofSource? source = some (ofSource source) := by
  unfold ofSource? ofSource
  rw [Program.parseStrictly_eq]
  cases Program.parse source <;> rfl

end ParseResult

/-- A text is not empty if it begins with one that is not. -/
theorem append_ne_empty {s t : String} (h : s ≠ "") : s ++ t ≠ "" := by
  intro hst
  apply h
  rw [← String.toList_inj, String.toList_append] at hst
  rw [← String.toList_inj]
  exact (List.append_eq_nil_iff.1 hst).1

/-- The message of a syntax error says something. -/
theorem SyntaxError.message_ne_empty (e : SyntaxError) : e.message ≠ "" := by
  have hplaced : ∀ (r : String) (p : Position), "Parsing failed:\nerror: " ++ r ++ "\n --> " ++
      toString p.line ++ ":" ++ toString p.column ≠ "" := by
    intro r p
    repeat' apply append_ne_empty
    decide
  cases e with
  | unexpectedWord w as p => exact hplaced _ p
  | unexpectedCharacter c as p => exact hplaced _ p
  | unexpectedEnd as p => exact hplaced _ p
  | invalidInteger s => exact append_ne_empty (by decide)

/-- The message about several entry points says something. -/
theorem DuplicateEntryPoint.message_ne_empty (e : DuplicateEntryPoint) : e.message ≠ "" := by
  unfold message
  repeat' apply append_ne_empty
  decide

/-- A source text gives a program or an error, and not both. -/
theorem ParseResult.wellFormed_ofSource (source : String) : (ofSource source).WellFormed := by
  unfold ofSource
  cases Program.parse source with
  | error e => exact .refused e.message e.message_ne_empty
  | ok p => exact .parsed p

/-- Whether a program has more than one declaration of the kind that decides what it is. -/
def Program.Ambiguous (p : Program) : Prop :=
  1 < p.transactions.length ∨ p.transactions = [] ∧ 1 < p.mains.length

/-- A policy only chooses nothing if it is strict and there are several candidates. -/
theorem Policy.choose_cases {α : Type} (policy : Policy) (kind : EntryPointKind)
    (candidates : List α) :
    policy.choose kind candidates = .ok candidates.getLast? ∨
      policy = .strict ∧ 1 < candidates.length ∧
        policy.choose kind candidates = .error ⟨kind, candidates.length⟩ := by
  by_cases h : policy = .strict ∧ 1 < candidates.length
  · exact .inr ⟨h.1, h.2, if_pos h⟩
  · exact .inl (if_neg h)

/-- The last candidate is chosen by the policy that asks for it. -/
theorem Policy.choose_last {α : Type} (kind : EntryPointKind) (candidates : List α) :
    Policy.last.choose kind candidates = .ok candidates.getLast? :=
  if_neg fun h => nomatch h.1

/-- A policy gives the entry point that the last declaration is, unless it is strict and the program
is ambiguous. -/
theorem Program.entryPoint_cases (policy : Policy) (p : Program) :
    (∃ e?, p.entryPoint policy = .ok e? ∧ p.entryPoint .last = .ok e?) ∨
      ∃ e, p.entryPoint policy = .error e ∧ policy = .strict ∧ p.Ambiguous := by
  unfold entryPoint transaction main
  rw [Policy.choose_last, Policy.choose_last]
  rcases policy.choose_cases .transaction p.transactions with ht | ⟨hstrict, hlength, ht⟩
  · rw [ht]
    cases hlast : p.transactions.getLast? with
    | some d => exact .inl ⟨_, rfl, rfl⟩
    | none =>
      rcases policy.choose_cases .main p.mains with hm | ⟨hstrict, hlength, hm⟩
      · rw [hm]
        exact .inl ⟨_, rfl, rfl⟩
      · rw [hm]
        exact .inr ⟨_, rfl, hstrict, .inr ⟨List.getLast?_eq_none_iff.1 hlast, hlength⟩⟩
  · rw [ht]
    exact .inr ⟨_, rfl, hstrict, .inl hlength⟩

namespace Response

/-- The response to a program, unless something breaks. -/
def ofProgram? (c : Configuration Bool) (p : Program) : Option (Response Json) :=
  let shown := if c.includeProgram then some p else none
  match p.entryPoint c.entryPoints with
  | .error e => some { program := shown, error := e.message }
  | .ok e? =>
    match Interaction.assemble c.kindTable e? with
    | .error _ => none
    | .ok i => some { interaction := some i, program := shown }

/-- The response to a source text, unless something breaks. Without an error there must be a
program. -/
def ofSource? (c : Configuration Bool) (source : String) : Option (Response Json) :=
  match ParseResult.ofSource? source with
  | none => none
  | some { error := some e, .. } => some { error := e }
  | some { error := none, program := some p } => ofProgram? c p
  | some { error := none, program := none } => none

/-- What a response to a source text looks like, given what reading the text tells. -/
structure WellFormed (c : Configuration Bool) (result : ParseResult) (r : Response String) :
    Prop where
  error_iff : r.error = "" ↔ r.interaction.isSome
  program_eq : r.program = if c.includeProgram then result.program else none
  refused : ∀ m, result.error = some m → r = { error := m }
  ambiguous : ∀ p, result.program = some p → r.error ≠ "" →
    c.entryPoints = .strict ∧ p.Ambiguous

/-- Every source text has one response, and it is well-formed. -/
structure Answered (c : Configuration Bool) (source : String) : Prop where
  parse_eq : ParseResult.ofSource? source = some (ParseResult.ofSource source)
  parse_wellFormed : (ParseResult.ofSource source).WellFormed
  response_eq : ofSource? c source = some ((ofSource c source).map .string)
  response_wellFormed : WellFormed c (ParseResult.ofSource source) (ofSource c source)
  includeProgram : ∀ b, ofSource { c with includeProgram := b } source =
    { ofSource c source with program := if b then (ParseResult.ofSource source).program else none }
  last : (ofSource c source).interaction.isSome →
    ofSource { c with entryPoints := .last } source = ofSource c source

/-- The response to a program is found. -/
theorem ofProgram?_eq (c : Configuration Bool) (p : Program) :
    ofProgram? c p = some ((ofProgram c p).map .string) := by
  unfold ofProgram? ofProgram Interaction.ofProgram
  cases p.entryPoint c.entryPoints with
  | error e => rfl
  | ok e? =>
    dsimp only
    rw [Interaction.assemble_eq]
    rfl

/-- The response to a source text is found. -/
theorem ofSource?_eq (c : Configuration Bool) (source : String) :
    ofSource? c source = some ((ofSource c source).map .string) := by
  unfold ofSource? ofSource
  rw [ParseResult.ofSource?_eq, ParseResult.ofSource]
  cases Program.parse source with
  | error e => rfl
  | ok p => exact ofProgram?_eq c p

/-- The response to a program has an interaction, or the policy is strict and the program is
ambiguous. -/
theorem ofProgram_cases (c : Configuration Bool) (p : Program) :
    (∃ i, ∀ b, ofProgram { c with includeProgram := b } p =
        { interaction := some i, program := if b then some p else none } ∧
      ofProgram { c with entryPoints := .last, includeProgram := b } p =
        { interaction := some i, program := if b then some p else none }) ∨
      ∃ m, m ≠ "" ∧ (∀ b, ofProgram { c with includeProgram := b } p =
        { program := if b then some p else none, error := m }) ∧
        c.entryPoints = .strict ∧ p.Ambiguous := by
  unfold ofProgram Interaction.ofProgram
  rcases p.entryPoint_cases c.entryPoints with ⟨e?, he, hlast⟩ | ⟨e, he, hstrict, hambiguous⟩
  · refine .inl ⟨.ofEntryPoint c.kindTable e?, fun b => ?_⟩
    dsimp only
    rw [he, hlast]
    exact ⟨rfl, rfl⟩
  · refine .inr ⟨e.message, e.message_ne_empty, fun b => ?_, hstrict, hambiguous⟩
    dsimp only
    rw [he]
    rfl

/-- What is true of the response to a refused text. -/
theorem wellFormed_refused (c : Configuration Bool) {m : String} (hm : m ≠ "") :
    WellFormed c { error := some m } { error := m } where
  error_iff := ⟨fun h => absurd h hm, nofun⟩
  program_eq := (ite_self none).symm
  refused := fun _ h => congrArg _ (Option.some.inj h)
  ambiguous := nofun

/-- What is true of the response to a program. -/
theorem wellFormed_ofProgram (c : Configuration Bool) (p : Program) :
    WellFormed c { program := some p } (ofProgram c p) := by
  rcases ofProgram_cases c p with ⟨i, hi⟩ | ⟨m, hm, hresponse, hstrict, hambiguous⟩
  · rw [(hi c.includeProgram).1]
    exact ⟨⟨fun _ => rfl, fun _ => rfl⟩, rfl, nofun, fun _ _ h => absurd rfl h⟩
  · rw [hresponse c.includeProgram]
    refine ⟨⟨fun h => absurd h hm, nofun⟩, rfl, nofun, ?_⟩
    intro p' hp' _
    cases hp'
    exact ⟨hstrict, hambiguous⟩

/-- Whether the program is included changes nothing else. -/
theorem ofProgram_includeProgram (c : Configuration Bool) (p : Program) (b : Bool) :
    ofProgram { c with includeProgram := b } p =
      { ofProgram c p with program := if b then some p else none } := by
  rcases ofProgram_cases c p with ⟨i, hi⟩ | ⟨m, -, hresponse, -⟩
  · rw [(hi b).1, (hi c.includeProgram).1]
  · rw [hresponse b, hresponse c.includeProgram]

/-- A policy that gives an interaction gives the one of the last declaration. -/
theorem ofProgram_last (c : Configuration Bool) (p : Program)
    (h : (ofProgram c p).interaction.isSome) :
    ofProgram { c with entryPoints := .last } p = ofProgram c p := by
  rcases ofProgram_cases c p with ⟨i, hi⟩ | ⟨m, -, hresponse, -⟩
  · exact (hi c.includeProgram).2.trans (hi c.includeProgram).1.symm
  · rw [hresponse c.includeProgram] at h
    cases h

/-- Every source text is answered by one response under every configuration. -/
theorem answered (c : Configuration Bool) (source : String) : Answered c source := by
  refine ⟨ParseResult.ofSource?_eq source, ParseResult.wellFormed_ofSource source,
    ofSource?_eq c source, ?_, ?_, ?_⟩
  · unfold ofSource ParseResult.ofSource
    cases Program.parse source with
    | error e => exact wellFormed_refused c e.message_ne_empty
    | ok p => exact wellFormed_ofProgram c p
  · intro b
    unfold ofSource ParseResult.ofSource
    cases Program.parse source with
    | error e => cases b <;> rfl
    | ok p => exact ofProgram_includeProgram c p b
  · intro hinteraction
    unfold ofSource at hinteraction ⊢
    cases hparse : Program.parse source with
    | error e => rfl
    | ok p =>
      simp only [hparse] at hinteraction
      exact ofProgram_last c p hinteraction

example :
    (ofSource { Configuration.default with entryPoints := .strict }
      "transaction \x7b\x7d transaction \x7b\x7d").error =
        "program declares 2 transaction declarations, expected at most one" := by
  decide +kernel

end Response

end CadenceEntry
