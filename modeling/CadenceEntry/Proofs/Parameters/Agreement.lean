import CadenceEntry.Proofs.Interaction.Unplaced
import CadenceEntry.Proofs.Parameters.Reading
import CadenceEntry.Proofs.Syntax.Soundness

/-!
# Parameters are described like types by themselves

A transaction and a script with parameters that are written with texts of types are programs, and
their interactions describe the parameters as the types are described that the texts are by
themselves.
-/

set_option autoImplicit false

namespace CadenceEntry

open Grammar
open Source (Head)

namespace ParameterText

/-- A transaction with parameters and nothing else. -/
def transaction (ps : List ParameterText) : String := "transaction(" ++ listText ps ++ ") \x7b\x7d"

/-- A script with parameters and nothing else. -/
def script (ps : List ParameterText) : String := "fun main(" ++ listText ps ++ ") \x7b\x7d"

variable {ps : List ParameterText} {ts : List TypeExpr}

/-- What follows the parameters is an empty pair of braces. -/
theorem exists_braces {q q₁ q₂ q₃ : State} (hq : q ∈ State.behindParameters)
    (hopen : q₁.row.move? (.token .leftBrace) = some q₂)
    (hclose : q₂.row.move? (.token .rightBrace) = some q₃) (place : Position) :
    ∃ p p₁ p₂ p₃, (Derivation.leaf .leftBrace ⟨['\x7b'], p⟩).Reads q₁
        ⟨q, place, [' ', '\x7b', '\x7d']⟩ ⟨q₂, p₁, ['\x7d']⟩ ∧
      (Derivation.leaf .rightBrace ⟨['\x7d'], p₂⟩).Reads q₂ ⟨q₂, p₁, ['\x7d']⟩ ⟨q₃, p₃, []⟩ := by
  have hadmits : q.admits (.word .leftBrace) = true := by
    revert q
    decide
  have hfinds : Head.Finds ⟨q, place, [' ', '\x7b', '\x7d']⟩ .leftBrace ['\x7b'] ['\x7d'] :=
    .of_matches (g := [' ']) rfl (by decide) hadmits (by decide)
      (fun hname => absurd hname (by decide)) fun _ _ => rfl
  obtain ⟨p, p₁, hread⟩ := hfinds.exists_leaf hopen
  obtain ⟨p₂, p₃, hread'⟩ := exists_mark hclose rfl rfl (by decide) p₁ []
  exact ⟨p, p₁, p₂, p₃, hread, hread'⟩

/-- A transaction with parameters is read. -/
theorem exists_transaction (hnamed : ∀ p ∈ ps, p.Named)
    (htypes : List.Forall₂ (fun p t => TypeExpr.parse p.type = .ok t) ps ts) :
    ∃ (d : Derivation (.phrase .transactionDeclaration)) (q : State) (p : Position),
      d.Reads 0 ⟨0, .ofText (transaction ps).toList⟩ ⟨q, p, []⟩ ∧ d.invalidInteger? = none ∧
      ∃ list : ParameterList, d.plainValue = TransactionDeclaration.ofMembers list [] {} ∧
        parameterTypes list.parameters = ts.map TypeExpr.unplaced := by
  have htext : (transaction ps).toList = "transaction".toList ++
      ('(' :: ((listText ps).toList ++ ')' :: [' ', '\x7b', '\x7d'])) := by
    simp [transaction]
  have hstops : ∀ rest, Terminal.transactionWord.Stops ('(' :: rest) := by
    intro rest y hy
    rw [← Option.some.inj hy]
    rfl
  obtain ⟨p₁, p₂, hword⟩ := exists_word (q := 0) (t := .transactionWord) rfl (g := [])
    (w := "transaction".toList) (by decide) (by decide) (fun hname => absurd hname (by decide))
    (hstops _) .origin
  obtain ⟨d, q, p₃, hd, hq, hvalid, htypes⟩ :=
    exists_parameterList (q := 32) rfl hnamed htypes p₂ [' ', '\x7b', '\x7d']
  obtain ⟨p₄, p₅, p₆, p₇, hopen, hclose⟩ :=
    exists_braces hq (show (State.row 33).move? _ = some 34 from rfl) rfl p₃
  refine ⟨.node .transactionParameters (.cons (.leaf .transactionWord ⟨"transaction".toList, p₁⟩)
      (.cons d (.cons (.leaf .leftBrace ⟨['\x7b'], p₄⟩)
        (.cons (.leaf .rightBrace ⟨['\x7d'], p₆⟩) .nil)))),
    37, p₇, ?_, ?_, d.plainValue, rfl, htypes⟩
  · rw [htext]
    exact ⟨_, 32, hword, rfl, _, 33, hd, rfl, _, 34, hopen, rfl, _, 37, hclose, rfl, rfl⟩
  · exact (Derivations.invalidInteger?_cons _ _).2 ⟨rfl,
      (Derivations.invalidInteger?_cons _ _).2 ⟨hvalid, rfl⟩⟩

/-- A function called `main` with parameters is read. -/
theorem exists_script (hnamed : ∀ p ∈ ps, p.Named)
    (htypes : List.Forall₂ (fun p t => TypeExpr.parse p.type = .ok t) ps ts) :
    ∃ (d : Derivation (.phrase .functionDeclaration)) (q : State) (p : Position),
      d.Reads 0 ⟨0, .ofText (script ps).toList⟩ ⟨q, p, []⟩ ∧ d.invalidInteger? = none ∧
      ∃ (list : ParameterList) (body : Block), d.plainValue =
          (⟨none, false, ⟨Program.mainName, {}⟩, list, none, some body, {}⟩ : FunctionDeclaration) ∧
        parameterTypes list.parameters = ts.map TypeExpr.unplaced := by
  have htext : (script ps).toList = "fun".toList ++ ([' '] ++ ("main".toList ++
      ('(' :: ((listText ps).toList ++ ')' :: [' ', '\x7b', '\x7d'])))) := by
    simp [script]
  have hfun : ∀ rest, Terminal.funWord.Stops ([' '] ++ rest) := by
    intro rest y hy
    rw [← Option.some.inj hy]
    rfl
  have hmain : ∀ rest, Terminal.name.Stops ('(' :: rest) := by
    intro rest y hy
    rw [← Option.some.inj hy]
    rfl
  obtain ⟨p₁, p₂, hword⟩ := exists_word (q := 0) (t := .funWord) rfl (g := [])
    (w := "fun".toList) (by decide) (by decide) (fun hname => absurd hname (by decide))
    (hfun _) .origin
  obtain ⟨p₃, p₄, hname⟩ := exists_word (q := 93) (t := .name) rfl (g := [' '])
    (w := "main".toList) (by decide) (by decide) (fun _ => by decide) (hmain _) p₂
  obtain ⟨d, q, p₅, hd, hq, hvalid, htypes⟩ :=
    exists_parameterList (q := 94) rfl hnamed htypes p₄ [' ', '\x7b', '\x7d']
  obtain ⟨p₆, p₇, p₈, p₉, hopen, hclose⟩ :=
    exists_braces hq (show (State.row 95).move? _ = some 179 from rfl) rfl p₅
  refine ⟨.node .function (.cons (.leaf .funWord ⟨"fun".toList, p₁⟩)
      (.cons (.leaf .name ⟨"main".toList, p₃⟩) (.cons d
        (.cons (.node .blockEmpty (.cons (.leaf .leftBrace ⟨['\x7b'], p₆⟩)
          (.cons (.leaf .rightBrace ⟨['\x7d'], p₈⟩) .nil))) .nil)))),
    182, p₉, ?_, ?_, d.plainValue, _, rfl, htypes⟩
  · rw [htext]
    exact ⟨_, 93, hword, rfl, _, 94, hname, rfl, _, 95, hd, rfl, _, 99,
      ⟨_, 179, hopen, rfl, _, 182, hclose, rfl, rfl⟩, rfl, rfl⟩
  · exact (Derivations.invalidInteger?_cons _ _).2 ⟨rfl,
      (Derivations.invalidInteger?_cons _ _).2 ⟨rfl,
        (Derivations.invalidInteger?_cons _ _).2 ⟨hvalid, rfl⟩⟩⟩

end ParameterText

/-- A text that is read as one declaration is the program of this declaration. -/
theorem Program.parse_of_declaration {text : String} {d : Derivation (.phrase .declaration)}
    {q : State} {p : Position} (hd : d.Reads 0 ⟨0, .ofText text.toList⟩ ⟨q, p, []⟩)
    (hvalid : d.invalidInteger? = none) :
    Program.parse text = .ok ⟨Option.toList (d.value text.toList)⟩ := by
  let d' : Derivation (.phrase .program) :=
    .node .programSome (.cons (.node .declarationsFirst (.cons d .nil)) .nil)
  have hreads : d'.Reads 0 ⟨0, .ofText text.toList⟩ ⟨q, p, []⟩ :=
    ⟨_, 4, ⟨_, 6, hd, rfl, rfl⟩, rfl, rfl⟩
  have hvalid' : d'.invalidInteger? = none :=
    (Derivations.invalidInteger?_cons _ _).2
      ⟨(Derivations.invalidInteger?_cons _ _).2 ⟨hvalid, rfl⟩, rfl⟩
  have hderive : Source.derive .program text.toList = .ok d' :=
    Source.derive_of_reads (g := .program) hreads (NextWord.read_of_nil rfl)
  exact parse_of_derive hderive hvalid'

/-- A text with a single declaration is the program of it. -/
theorem Program.exists_parse_of_declaration {text : String}
    {d : Derivation (.phrase .declaration)} {q : State} {p : Position}
    (hd : d.Reads 0 ⟨0, .ofText text.toList⟩ ⟨q, p, []⟩) (hvalid : d.invalidInteger? = none)
    {x : Declaration} (hx : d.plainValue = some x) :
    ∃ p : Program, Program.parse text = .ok p ∧ p.unplaced = ⟨[x]⟩ := by
  refine ⟨_, Program.parse_of_declaration hd hvalid, ?_⟩
  have hvalue : Option.map Declaration.unplaced (d.value text.toList) = some x :=
    (d.unplaced_value text.toList).trans hx
  obtain ⟨y, hy, rfl⟩ := Option.map_eq_some_iff.1 hvalue
  rw [hy]
  rfl

/-- Parameters are described by their types as if these stood alone. -/
theorem Descriptor.ofType_parameterTypes (table : KindTable ScalarKind) {ps : List Parameter}
    {ts : List TypeExpr} (h : parameterTypes ps = ts.map TypeExpr.unplaced) :
    (parameterTypes ps).map (Descriptor.ofType table) = ts.map (Descriptor.ofType table) := by
  rw [h, List.map_map]
  exact List.map_congr_left fun t _ => Descriptor.ofType_unplaced table t

namespace Interaction

/-- A transaction and a script whose parameters are written with texts of types are programs.
Whatever the policy, their interactions are a transaction and a script with these parameters, and
each parameter is described as the type is that its text is by itself. -/
theorem ofProgram_of_parameterTexts {ps : List ParameterText} {ts : List TypeExpr}
    (hnamed : ∀ p ∈ ps, p.Named)
    (htypes : List.Forall₂ (fun p t => TypeExpr.parse p.type = .ok t) ps ts) :
    (∃ p, Program.parse (ParameterText.transaction ps) = .ok p ∧ ∀ policy table,
      ofProgram policy table p = .ok ⟨.transaction, ts.map (Descriptor.ofType table)⟩) ∧
    ∃ p, Program.parse (ParameterText.script ps) = .ok p ∧ ∀ policy table,
      ofProgram policy table p = .ok ⟨.script, ts.map (Descriptor.ofType table)⟩ := by
  constructor
  · obtain ⟨d, q, place, hd, hvalid, list, hvalue, hlist⟩ :=
      ParameterText.exists_transaction hnamed htypes
    obtain ⟨p, hparse, hp⟩ := Program.exists_parse_of_declaration
      (d := .node .declarationTransaction (.cons d .nil)) ⟨_, 10, hd, rfl, rfl⟩
      ((Derivations.invalidInteger?_cons _ _).2 ⟨hvalid, rfl⟩)
      (congrArg (fun d => some (Declaration.transaction d)) hvalue)
    refine ⟨p, hparse, fun policy table => ?_⟩
    rw [← ofProgram_unplaced, hp, ← Descriptor.ofType_parameterTypes table hlist]
    cases policy <;> rfl
  · obtain ⟨d, q, place, hd, hvalid, list, body, hvalue, hlist⟩ :=
      ParameterText.exists_script hnamed htypes
    obtain ⟨p, hparse, hp⟩ := Program.exists_parse_of_declaration
      (d := .node .declarationFunction (.cons d .nil)) ⟨_, 11, hd, rfl, rfl⟩
      ((Derivations.invalidInteger?_cons _ _).2 ⟨hvalid, rfl⟩)
      (congrArg (fun d => some (Declaration.function d)) hvalue)
    refine ⟨p, hparse, fun policy table => ?_⟩
    rw [← ofProgram_unplaced, hp, ← Descriptor.ofType_parameterTypes table hlist]
    cases policy <;> rfl

/-- Two parameters that are called like keywords, with comments behind their types. -/
def keywordParameters : List ParameterText :=
  [⟨some "fun", "transaction", "@\x7bString: [Int; 3]\x7d // )"⟩, ⟨none, "auth", "(A.B?) /* , */"⟩]

/-- The interactions with these parameters. -/
theorem ofProgram_of_parameterTexts_keywords : ∃ ts : List TypeExpr,
    (∀ p ∈ keywordParameters, p.Named) ∧
    List.Forall₂ (fun p t => TypeExpr.parse p.type = .ok t) keywordParameters ts ∧
    (∃ p, Program.parse (ParameterText.transaction keywordParameters) = .ok p ∧ ∀ policy table,
      ofProgram policy table p = .ok ⟨.transaction, ts.map (Descriptor.ofType table)⟩) ∧
    ∃ p, Program.parse (ParameterText.script keywordParameters) = .ok p ∧ ∀ policy table,
      ofProgram policy table p = .ok ⟨.script, ts.map (Descriptor.ofType table)⟩ := by
  obtain ⟨t₁, ht₁⟩ : ∃ t, TypeExpr.parse "@\x7bString: [Int; 3]\x7d // )" = .ok t :=
    exists_ok_of_isSome (by decide +kernel)
  obtain ⟨t₂, ht₂⟩ : ∃ t, TypeExpr.parse "(A.B?) /* , */" = .ok t :=
    exists_ok_of_isSome (by decide +kernel)
  have hnamed : ∀ p ∈ keywordParameters, p.Named := by
    intro p hp
    rcases List.mem_cons.1 hp with rfl | hp
    · exact ⟨by decide, by decide⟩
    · rw [List.mem_singleton.1 hp]
      exact ⟨by decide, by decide⟩
  have htypes : List.Forall₂ (fun p t => TypeExpr.parse p.type = .ok t) keywordParameters
      [t₁, t₂] := .cons ht₁ (.cons ht₂ .nil)
  exact ⟨[t₁, t₂], hnamed, htypes, ofProgram_of_parameterTexts hnamed htypes⟩

end Interaction

end CadenceEntry
