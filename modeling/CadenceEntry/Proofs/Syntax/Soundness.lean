import CadenceEntry.Proofs.Source.Covering
import CadenceEntry.Proofs.Syntax.Kept
import CadenceEntry.Syntax.Parse
import Mathlib.Data.List.Forall2

/-!
# What a parsed text says

A text that is parsed is covered by pieces, the words among them are the words of a derivation, and
the program is the value of the derivation. Each declaration of the program is one of the top-level
declarations of the derivation other than semicolons, in order, and has the words of it. Only a
transaction can have words that its value does not tell: of a phase that is repeated it keeps the
last occurrence.
-/

set_option autoImplicit false

namespace CadenceEntry

open Grammar

/-- A phase of a transaction. -/
def TransactionDeclaration.phase? (d : TransactionDeclaration) : Phase → Option PhaseDeclaration
  | .prepare => d.prepare
  | .pre => d.pre
  | .execute => d.execute
  | .post => d.post

/-- The words `ws` are those of the transaction: of its parameters, if any are written, and of its
members in some order. The fields are in this order, and of each phase the last one counts. -/
def TransactionDeclaration.HasWords (d : TransactionDeclaration) (ws : List String) : Prop :=
  ∃ ms : List TransactionMember,
    d.fields = TransactionMember.fields ms ∧
    (∀ p, d.phase? p = TransactionMember.lastPhase? p ms) ∧
    (ws = [["transaction"], d.parameters.words, ["\x7b"], ms.flatMap TransactionMember.words,
        ["\x7d"]].flatten ∨
      d.parameters.parameters = [] ∧
        ws = [["transaction", "\x7b"], ms.flatMap TransactionMember.words, ["\x7d"]].flatten)

/-- The words `ws` are those of the declaration. -/
def Declaration.HasWords : Declaration → List String → Prop
  | .imports d, ws => ws = d.words
  | .pragma d, ws => ws = d.words
  | .transaction d, ws => d.HasWords ws
  | .function d, ws => ws = d.words
  | .composite d, ws => ws = d.words
  | .event d, ws => ws = d.words
  | .entitlement d, ws => ws = d.words

namespace Grammar

mutual

/-- The words that the values of the top-level declarations of a derivation keep, semicolons left
out. -/
def Derivation.topLevel (source : List Char) {s : Symbol} : Derivation s → List (List String)
  | .leaf _ _ => []
  | .node p ds =>
    if p = .declarationSemicolon then []
    else if p.lhs = .declaration then [p.kept (ds.keptAll source)]
    else ds.topLevel source

/-- The words that the values of the top-level declarations of a list of derivations keep. -/
def Derivations.topLevel (source : List Char) {ss : List Symbol} :
    Derivations ss → List (List String)
  | .nil => []
  | .cons d ds => d.topLevel source ++ ds.topLevel source

end

/-- The value of a derivation that can contain a transaction has the words that it keeps. -/
def Derivation.HasKept (source : List Char) : {s : Symbol} → Derivation s → Prop
  | .phrase .program, d =>
    List.Forall₂ Declaration.HasWords (Program.declarations (d.value source)) (d.topLevel source)
  | .phrase .declarations, d =>
    List.Forall₂ Declaration.HasWords (d.value source : List Declaration) (d.topLevel source)
  | .phrase .declaration, d =>
    List.Forall₂ Declaration.HasWords (Option.toList (d.value source)) (d.topLevel source)
  | .phrase .transactionDeclaration, d =>
    TransactionDeclaration.HasWords (d.value source) (d.kept source)
  | _, _ => True

/-- All derivations of a list that can contain transactions have the words that they keep. -/
def Derivations.AllHaveKept (source : List Char) {ss : List Symbol} : Derivations ss → Prop
  | .nil => True
  | .cons d ds => d.HasKept source ∧ ds.AllHaveKept source

/-- The words of a single declaration. -/
theorem hasWords_singleton {x : Declaration} {ws : List String} (h : x.HasWords ws) :
    List.Forall₂ Declaration.HasWords [x] [ws ++ []] := by
  rw [List.append_nil]
  exact .cons h .nil

/-- A transaction has the words that its derivation keeps. -/
theorem Production.hasKept_transaction (p : Production) (ds : Derivations p.rhs)
    (source : List Char) (hds : ∀ x ∈ ds.words, x.1.Matches x.2.text)
    (hp : p.lhs = .transactionDeclaration) : (Derivation.node p ds).HasKept source := by
  have hwords : (∀ s ∈ p.rhs, s.forgets = false) →
      Symbol.wordsAll p.rhs (ds.values source) = ds.keptAll source :=
    ds.wordsAll_values source hds
  have hphases : ∀ (ps : ParameterList) (ms : List TransactionMember) (s : Span) (p : Phase),
      (TransactionDeclaration.ofMembers ps ms s).phase? p =
        TransactionMember.lastPhase? p ms := by
    intro ps ms s p
    cases p <;> rfl
  cases p
  case transactionParametersMembers =>
    have h := hwords (by decide)
    cases ds with | cons _ ds => cases ds with | cons ps ds => cases ds with | cons _ ds =>
    cases ds with | cons ms ds =>
    refine ⟨ms.value source, rfl, hphases _ _ _, .inl ?_⟩
    exact (congrArg List.flatten h).symm
  case transactionParameters =>
    have h := hwords (by decide)
    refine ⟨[], rfl, hphases _ _ _, .inl ?_⟩
    exact (congrArg List.flatten h).symm
  case transactionMembers =>
    have h := hwords (by decide)
    cases ds with | cons _ ds => cases ds with | cons _ ds => cases ds with | cons ms ds =>
    refine ⟨ms.value source, rfl, hphases _ _ _, .inr ⟨rfl, ?_⟩⟩
    exact (congrArg List.flatten h).symm
  case transactionBare =>
    have h := hwords (by decide)
    refine ⟨[], rfl, hphases _ _ _, .inr ⟨rfl, ?_⟩⟩
    exact (congrArg List.flatten h).symm
  all_goals exact absurd hp (by decide)

/-- What a production puts together has the words that it keeps, if its parts have. -/
theorem Production.hasKept (p : Production) (ds : Derivations p.rhs) (source : List Char)
    (hds : ∀ x ∈ ds.words, x.1.Matches x.2.text) (h : ds.AllHaveKept source) :
    (Derivation.node p ds).HasKept source := by
  by_cases hp : p.lhs = .transactionDeclaration
  · exact p.hasKept_transaction ds source hds hp
  · have hleft : ∀ {s : Symbol} {ss : List Symbol} (d : Derivation s) (ds : Derivations ss),
        (∀ x ∈ (Derivations.cons d ds).words, x.1.Matches x.2.text) →
        ∀ x ∈ d.words, x.1.Matches x.2.text :=
      fun d ds h x hx => h x (List.mem_append_left _ hx)
    cases p
    case programEmpty =>
      cases ds
      show List.Forall₂ Declaration.HasWords [] []
      exact .nil
    case programSome =>
      obtain ⟨d, rfl⟩ := ds.exists_singleton
      show List.Forall₂ Declaration.HasWords (d.value source : List Declaration)
        (d.topLevel source ++ [])
      rw [List.append_nil]
      exact h.1
    case declarationsFirst =>
      obtain ⟨d, rfl⟩ := ds.exists_singleton
      show List.Forall₂ Declaration.HasWords (Option.toList (d.value source))
        (d.topLevel source ++ [])
      rw [List.append_nil]
      exact h.1
    case declarationsNext =>
      cases ds with
      | cons d ds =>
        obtain ⟨d', rfl⟩ := ds.exists_singleton
        show List.Forall₂ Declaration.HasWords
          (List.append (d.value source) (Option.toList (d'.value source)))
          (d.topLevel source ++ (d'.topLevel source ++ []))
        rw [List.append_nil]
        exact List.rel_append h.1 h.2.1
    case declarationSemicolon =>
      show List.Forall₂ Declaration.HasWords [] []
      exact .nil
    case declarationImport =>
      obtain ⟨d, rfl⟩ := ds.exists_singleton
      exact hasWords_singleton (d.words_value source (hleft d .nil hds) rfl).symm
    case declarationPragma =>
      obtain ⟨d, rfl⟩ := ds.exists_singleton
      exact hasWords_singleton (d.words_value source (hleft d .nil hds) rfl).symm
    case declarationTransaction =>
      obtain ⟨d, rfl⟩ := ds.exists_singleton
      exact hasWords_singleton (x := .transaction (d.value source)) h.1
    case declarationFunction =>
      obtain ⟨d, rfl⟩ := ds.exists_singleton
      exact hasWords_singleton (d.words_value source (hleft d .nil hds) rfl).symm
    case declarationComposite =>
      obtain ⟨d, rfl⟩ := ds.exists_singleton
      exact hasWords_singleton (d.words_value source (hleft d .nil hds) rfl).symm
    case declarationEvent =>
      obtain ⟨d, rfl⟩ := ds.exists_singleton
      exact hasWords_singleton (d.words_value source (hleft d .nil hds) rfl).symm
    case declarationEntitlement =>
      obtain ⟨d, rfl⟩ := ds.exists_singleton
      exact hasWords_singleton (d.words_value source (hleft d .nil hds) rfl).symm
    all_goals trivial

mutual

/-- The value of a derivation that can contain a transaction has the words that it keeps. -/
theorem Derivation.hasKept {s : Symbol} (d : Derivation s) (source : List Char)
    (hd : ∀ x ∈ d.words, x.1.Matches x.2.text) : d.HasKept source :=
  match d with
  | .leaf _ _ => trivial
  | .node p ds => p.hasKept ds source hd (ds.allHaveKept source hd)

/-- The values of derivations that can contain transactions have the words that they keep. -/
theorem Derivations.allHaveKept {ss : List Symbol} (ds : Derivations ss) (source : List Char)
    (hds : ∀ x ∈ ds.words, x.1.Matches x.2.text) : ds.AllHaveKept source :=
  match ds with
  | .nil => trivial
  | .cons d ds =>
    ⟨d.hasKept source fun x hx => hds x (List.mem_append_left _ hx),
      ds.allHaveKept source fun x hx => hds x (List.mem_append_right _ hx)⟩

end

end Grammar

/-- What can be evaluated to a value has one. -/
theorem exists_ok_of_isSome {α : Type} {r : Except SyntaxError α} (h : r.toOption.isSome = true) :
    ∃ a, r = .ok a := by
  cases r with
  | ok a => exact ⟨a, rfl⟩
  | error e => exact absurd h (by simp [Except.toOption])

namespace Program

/-- A text that is a program has a derivation, and the program is its value. -/
theorem exists_derive_of_parse {text : String} {p : Program} (h : Program.parse text = .ok p) :
    ∃ d : Derivation (.phrase .program), Source.derive .program text.toList = .ok d ∧
      d.invalidInteger? = none ∧ p = d.value text.toList := by
  unfold Program.parse at h
  cases hderive : Source.derive .program text.toList with
  | error e =>
    rw [hderive] at h
    exact absurd h (by simp [Except.bind])
  | ok d =>
    rw [hderive] at h
    have hevaluate : d.evaluate text.toList = .ok p := h
    unfold Derivation.evaluate at hevaluate
    split at hevaluate
    · exact absurd hevaluate (by simp)
    · next hinvalid => exact ⟨d, rfl, hinvalid, (Except.ok.inj hevaluate).symm⟩

/-- A text that is parsed is covered by pieces that are not empty: words of terminals, white space
and comments. The words are, in order and at their places, those of a derivation, and the program is
what the derivation means: one declaration for each top-level declaration of the derivation other
than a semicolon, in order, and with the words of it. -/
theorem derivation_of_parse {text : String} {p : Program} (h : Program.parse text = .ok p) :
    ∃ (ss : List Segment) (d : Derivation (.phrase .program)),
      Segment.join ss = text.toList ∧ (∀ s ∈ ss, s.Valid ∧ s.text ≠ []) ∧
      Segment.words .origin ss = d.words ∧ p = d.value text.toList ∧
      List.Forall₂ Declaration.HasWords p.declarations (d.topLevel text.toList) := by
  obtain ⟨d, hderive, -, rfl⟩ := exists_derive_of_parse h
  obtain ⟨ss, hjoin, hvalid, hwords⟩ := Source.exists_segments_of_derive hderive
  refine ⟨ss, d, hjoin, fun s hs => ⟨hvalid s hs, (hvalid s hs).text_ne_nil⟩, hwords, rfl, ?_⟩
  have hmatches : ∀ x ∈ d.words, x.1.Matches x.2.text := by
    intro x hx
    have hx' : x ∈ Segment.words .origin ss := by
      rw [hwords]
      exact hx
    exact Segment.matches_of_mem_words hvalid hx'
  exact d.hasKept text.toList hmatches

/-- A transaction with a repeated phase, a semicolon and a comment between declarations. -/
def repeatedPhase : String :=
  "import A, B from 0x1 transaction(to a: &T) \x7b let x: [T; 3] execute \x7b f() \x7d " ++
    "execute \x7b\x7d \x7d /* end */ ;"

/-- The pieces and the derivation of a text. -/
theorem derivation_of_parse_repeatedPhase : ∃ p : Program, Program.parse repeatedPhase = .ok p ∧
    ∃ (ss : List Segment) (d : Derivation (.phrase .program)),
      Segment.join ss = repeatedPhase.toList ∧ (∀ s ∈ ss, s.Valid ∧ s.text ≠ []) ∧
      Segment.words .origin ss = d.words ∧ p = d.value repeatedPhase.toList ∧
      List.Forall₂ Declaration.HasWords p.declarations (d.topLevel repeatedPhase.toList) := by
  have hok : (Program.parse repeatedPhase).toOption.isSome = true := by decide +kernel
  cases h : Program.parse repeatedPhase with
  | error e =>
    rw [h] at hok
    exact absurd hok (by simp [Except.toOption])
  | ok p => exact ⟨p, rfl, derivation_of_parse h⟩

end Program

end CadenceEntry
