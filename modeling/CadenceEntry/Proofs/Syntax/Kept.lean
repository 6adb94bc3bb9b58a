import CadenceEntry.Proofs.Grammar.Closure
import CadenceEntry.Proofs.Syntax.Words

/-!
# What a derivation keeps

`Derivation.kept` are the words of a derivation that its value keeps, `words_value` says that these
are the words of the value. Of a transaction the value keeps its fields and the last of each of its
phases: `TransactionDeclaration.Writes` says which words it can have been read from, and a program
is read from the words of its declarations one after the other, `Derivation.writes_topLevel`.
-/

set_option autoImplicit false

namespace CadenceEntry

namespace Grammar

/-- The text from the first word of some derivations to the last. -/
def Derivations.extent (source : List Char) {ss : List Symbol} (ds : Derivations ss) : String :=
  match ds.first?, ds.last? with
  | some a, some z =>
    String.ofList ((source.drop a.start.offset).take
      (z.start.offset + z.text.length - a.start.offset))
  | _, _ => ""

mutual

/-- The words that the value of a derivation keeps. A body is one word. -/
def Derivation.kept (source : List Char) {s : Symbol} : Derivation s → List String
  | .leaf _ w => [w.spelling]
  | .node p ds => if p.lhs = .block then [ds.extent source] else p.kept (ds.keptAll source)

/-- The words that the values of a list of derivations keep. -/
def Derivations.keptAll (source : List Char) {ss : List Symbol} :
    Derivations ss → List (List String)
  | .nil => []
  | .cons d ds => d.kept source :: ds.keptAll source

end

/-- A symbol of which the value does not determine the words. -/
def Symbol.forgets : Symbol → Bool
  | .token _ => false
  | .phrase n => n.forgets

/-- What determines its words is made of such. -/
theorem Production.rhs_forgets {p : Production} (hp : p.lhs.forgets = false)
    (hblock : p.lhs ≠ .block) : ∀ s ∈ p.rhs, s.forgets = false := by
  have hall : (Production.all.all fun p => p.lhs.forgets || p.lhs == .block ||
      p.rhs.all fun s => !s.forgets) = true := by
    decide
  have h := List.all_eq_true.1 hall p p.mem_all
  simp only [hp, Bool.false_or, Bool.or_eq_true, beq_iff_eq, hblock, false_or, List.all_eq_true,
    Bool.not_eq_true'] at h
  exact h

/-- The value of a derivation fits its symbol. -/
theorem Derivation.fits {s : Symbol} (d : Derivation s) (source : List Char)
    (hd : ∀ x ∈ d.words, x.1.Matches x.2.text) : s.Fits (d.value source) := by
  cases d with
  | leaf t w => exact hd (t, w) (by simp [Derivation.words])
  | node p ds =>
    cases p
    case importNamesMany => exact List.cons_ne_nil _ _
    case importNamesOne => exact List.cons_ne_nil _ _
    all_goals trivial

/-- The values of derivations fit their symbols. -/
theorem Derivations.allFit {ss : List Symbol} (ds : Derivations ss) (source : List Char)
    (hds : ∀ x ∈ ds.words, x.1.Matches x.2.text) : Symbol.AllFit ss (ds.values source) :=
  match ds with
  | .nil => trivial
  | .cons d ds =>
    ⟨d.fits source fun x hx => hds x (List.mem_append_left _ hx),
      ds.allFit source fun x hx => hds x (List.mem_append_right _ hx)⟩

/-- The source of a body is the text from its first word to its last. -/
theorem Derivations.source_ofSpan {ss : List Symbol} {ds : Derivations ss} {a z : Lexeme}
    (ha : ds.first? = some a) (hz : ds.last? = some z) (hne : z.text ≠ [])
    (source : List Char) : (Block.ofSpan source ds.span).source = ds.extent source := by
  have hpos : 0 < z.text.length := List.length_pos_iff.2 hne
  have hstop : z.stop.offset + 1 = z.start.offset + z.text.length := by
    rw [Lexeme.stop, Position.offset_afterAll, List.length_dropLast]
    omega
  simp only [Block.ofSpan, span, extent, ha, hz, hstop]

/-- A body keeps its text. -/
theorem Derivation.words_block (p : Production) (ds : Derivations p.rhs) (source : List Char)
    (hp : p.lhs = .block) (hds : ∀ x ∈ ds.words, x.1.Matches x.2.text) :
    p.lhs.words (p.meaning source (fun _ => ds.span) (ds.values source)) = [ds.extent source] := by
  have hlast : ∀ z, (Terminal.rightBrace, z) ∈ ds.words → z.text ≠ [] := by
    intro z hz hnil
    have hmatches := hds _ hz
    rw [hnil] at hmatches
    exact Terminal.not_matches_nil _ hmatches
  cases p
  case blockItems =>
    cases ds with | cons d ds => cases d with | leaf t a =>
    cases ds with | cons items ds => cases ds with | cons d ds => cases d with | leaf t z =>
    cases ds
    have hz : z.text ≠ [] := hlast z (by simp [Derivations.words, Derivation.words])
    exact congrArg ([·]) (Derivations.source_ofSpan rfl rfl hz source)
  case blockEmpty =>
    cases ds with | cons d ds => cases d with | leaf t a =>
    cases ds with | cons d ds => cases d with | leaf t z =>
    cases ds
    have hz : z.text ≠ [] := hlast z (by simp [Derivations.words, Derivation.words])
    exact congrArg ([·]) (Derivations.source_ofSpan rfl rfl hz source)
  all_goals exact absurd hp (by decide)

mutual

/-- The words of the value of a derivation are the words that it keeps. -/
theorem Derivation.words_value {s : Symbol} (d : Derivation s) (source : List Char)
    (hd : ∀ x ∈ d.words, x.1.Matches x.2.text) (hs : s.forgets = false) :
    s.words (d.value source) = d.kept source :=
  match d with
  | .leaf t w => by
    have hmatches := hd (t, w) (by simp [Derivation.words])
    exact congrArg ([·]) (Lexeme.getD_spelling_of_matches hmatches)
  | .node p ds => by
    by_cases hblock : p.lhs = .block
    · rw [Derivation.kept, if_pos hblock]
      exact Derivation.words_block p ds source hblock hd
    · rw [Derivation.kept, if_neg hblock,
        ← ds.wordsAll_values source hd (Production.rhs_forgets hs hblock)]
      exact p.words_meaning source (fun _ => ds.span) (ds.values source) hs hblock
        (ds.allFit source hd)

/-- The words of the values of derivations are the words that they keep. -/
theorem Derivations.wordsAll_values {ss : List Symbol} (ds : Derivations ss) (source : List Char)
    (hds : ∀ x ∈ ds.words, x.1.Matches x.2.text) (hss : ∀ s ∈ ss, s.forgets = false) :
    Symbol.wordsAll ss (ds.values source) = ds.keptAll source :=
  match ds with
  | .nil => rfl
  | .cons d ds => by
    rw [Derivations.values, Derivations.keptAll, Symbol.wordsAll,
      d.words_value source (fun x hx => hds x (List.mem_append_left _ hx))
        (hss _ List.mem_cons_self),
      ds.wordsAll_values source (fun x hx => hds x (List.mem_append_right _ hx))
        fun s hs => hss s (List.mem_cons_of_mem _ hs)]

end

end Grammar

end CadenceEntry
