import CadenceEntry.Proofs.Body.Closing

/-!
# The headers of bodies

A body stands behind the header of a function, of a composite or an interface, or of a phase of a
transaction. The words of such a header lead to a stack on which the opening brace of a body can be
pushed, whatever text follows.
-/

set_option autoImplicit false

namespace CadenceEntry

open Grammar

/-- The word that declares a composite. -/
def CompositeKind.word : CompositeKind → Terminal
  | contract => .contractWord
  | resource => .resourceWord
  | struct => .structWord
  | enum => .enumWord

/-- The word that opens a phase. -/
def Phase.word : Phase → Terminal
  | prepare => .prepareWord
  | pre => .preWord
  | execute => .executeWord
  | post => .postWord

/-- What has a body. -/
inductive BodyHeader where
  | function
  | composite (kind : CompositeKind) (isInterface : Bool)
  | phase (p : Phase)
  deriving DecidableEq, Repr

/-- A word with the white space before it. -/
structure SpacedWord where
  gap : String
  terminal : Terminal
  text : String

namespace SpacedWord

/-- The text that words with white space between them make. -/
def join (ws : List SpacedWord) : List Char :=
  ws.flatMap fun w => w.gap.toList ++ w.text.toList

/-- The state looks for the word, and finds nothing longer if `cs` comes behind it. Nothing makes an
opening brace longer. -/
def isReadIn (w : SpacedWord) (q : State) (cs : List Char) : Bool :=
  decide (IsBlank w.gap.toList) && q.admits (.word w.terminal) &&
    decide (w.terminal.Matches w.text.toList) &&
    (w.terminal != .name || !q.reserves w.text.toList) &&
    match cs with
    | [] => w.terminal == .leftBrace
    | x :: _ => !w.terminal.continues x

end SpacedWord

namespace Grammar.Stack

variable {g : Goal}

/-- Pushes words that stand one after the other from the place `p` on. -/
def pushWords? (k : Stack g) (p : Position) : List SpacedWord → Option (Stack g)
  | [] => some k
  | w :: ws =>
    if w.isReadIn k.state (SpacedWord.join ws) then
      ((k.settle (.word w.terminal)).push?
        (.leaf w.terminal ⟨w.text.toList, p.afterAll w.gap.toList⟩)).bind fun k' =>
          pushWords? k' (p.afterAll (w.gap.toList ++ w.text.toList)) ws
    else none

end Grammar.Stack

namespace Source

variable {g : Goal}

/-- Words that can be pushed are read, whatever text follows them. -/
theorem exists_deriveFrom_of_pushWords? {ws : List SpacedWord} {k k' : Stack g} {p : Position}
    (h : k.pushWords? p ws = some k') (last : Position) (cs : List Char) :
    ∃ last', deriveFrom k last ⟨p, SpacedWord.join ws ++ cs⟩ =
      deriveFrom k' last' ⟨p.afterAll (SpacedWord.join ws), cs⟩ := by
  induction ws generalizing k p last with
  | nil =>
    obtain rfl := Option.some.inj h
    exact ⟨last, rfl⟩
  | cons w ws ih =>
    unfold Stack.pushWords? at h
    split at h
    · next hread =>
      obtain ⟨k₁, hpush, h⟩ := Option.bind_eq_some_iff.1 h
      simp only [SpacedWord.isReadIn, Bool.and_eq_true, decide_eq_true_eq, Bool.or_eq_true,
        bne_iff_ne, Bool.not_eq_true'] at hread
      obtain ⟨⟨⟨⟨hgap, hadmits⟩, hmatches⟩, hname⟩, hstops⟩ := hread
      have hstops' : w.terminal.Stops (SpacedWord.join ws ++ cs) := by
        intro x hx
        cases hjoin : SpacedWord.join ws with
        | nil =>
          rw [hjoin] at hstops
          rw [beq_iff_eq.1 hstops]
          rfl
        | cons y ys =>
          rw [hjoin] at hstops hx
          obtain rfl := Option.some.inj hx
          simpa using hstops
      have hjoin : SpacedWord.join (w :: ws) ++ cs =
          w.gap.toList ++ (w.text.toList ++ (SpacedWord.join ws ++ cs)) := by
        simp [SpacedWord.join]
      have hread := NextWord.read_of_matches (c := ⟨p, SpacedWord.join (w :: ws) ++ cs⟩) hjoin hgap
        hadmits hmatches (fun hn => hname.resolve_left (fun h => h hn)) hstops'
      obtain ⟨last', hrun⟩ := ih h (p.afterAll w.gap.toList)
      refine ⟨last', (deriveFrom_of_word hread hpush).trans (hrun.trans ?_)⟩
      rw [← Position.afterAll_append]
      simp [SpacedWord.join]
    · exact absurd h (by simp)

end Source

namespace BodyHeader

/-- Every header, once. -/
def all : List BodyHeader :=
  [.function, .composite .contract false, .composite .contract true, .composite .resource false,
    .composite .resource true, .composite .struct false, .composite .struct true,
    .composite .enum false, .composite .enum true, .phase .prepare, .phase .pre, .phase .execute,
    .phase .post]

/-- All headers are listed. -/
theorem mem_all (h : BodyHeader) : h ∈ all := by
  cases h with
  | function => decide
  | composite kind isInterface => cases kind <;> cases isInterface <;> decide
  | phase p => cases p <;> decide

/-- The text of a header, as far as the brace that opens the body. -/
def text : BodyHeader → String
  | function => "fun main() "
  | composite kind false => kind.text ++ " A "
  | composite kind true => kind.text ++ " interface A "
  | phase .prepare => "transaction \x7b prepare() "
  | phase p => "transaction \x7b " ++ p.text ++ " "

/-- The words of a header and the brace that opens the body. -/
def words : BodyHeader → List SpacedWord
  | function => [⟨"", .funWord, "fun"⟩, ⟨" ", .name, "main"⟩, ⟨"", .leftParen, "("⟩,
      ⟨"", .rightParen, ")"⟩, ⟨" ", .leftBrace, "\x7b"⟩]
  | composite kind false => [⟨"", kind.word, kind.text⟩, ⟨" ", .name, "A"⟩,
      ⟨" ", .leftBrace, "\x7b"⟩]
  | composite kind true => [⟨"", kind.word, kind.text⟩, ⟨" ", .interfaceWord, "interface"⟩,
      ⟨" ", .name, "A"⟩, ⟨" ", .leftBrace, "\x7b"⟩]
  | phase .prepare => [⟨"", .transactionWord, "transaction"⟩, ⟨" ", .leftBrace, "\x7b"⟩,
      ⟨" ", .prepareWord, "prepare"⟩, ⟨"", .leftParen, "("⟩, ⟨"", .rightParen, ")"⟩,
      ⟨" ", .leftBrace, "\x7b"⟩]
  | phase p => [⟨"", .transactionWord, "transaction"⟩, ⟨" ", .leftBrace, "\x7b"⟩,
      ⟨" ", p.word, p.text⟩, ⟨" ", .leftBrace, "\x7b"⟩]

/-- The symbols that a header is put together to. -/
def symbols : BodyHeader → List Symbol
  | function => [.token .funWord, .token .name, .phrase .parameterList]
  | composite _ false => [.phrase .compositeKind, .token .name]
  | composite _ true => [.phrase .compositeKind, .token .interfaceWord, .token .name]
  | phase .prepare => [.token .transactionWord, .token .leftBrace, .token .prepareWord,
      .phrase .parameterList]
  | phase p => [.token .transactionWord, .token .leftBrace, .token p.word]

/-- The words of a header lead to the opening brace of a body. -/
def opensBody (h : BodyHeader) : Bool :=
  match (Stack.empty .program).pushWords? .origin h.words with
  | some ⟨f :: fs⟩ =>
    f.symbol == .token .leftBrace && f.state == 179 &&
      (f.derivation.first?.map fun w => w.start.offset) == some h.text.length &&
      (⟨fs⟩ : Stack .program).state.row.move? (.token .leftBrace) == some 179 &&
      fs.reverse.map Frame.symbol == h.symbols
  | _ => false

/-- Behind every header a body is opened. -/
theorem opensBody_eq_true (h : BodyHeader) : h.opensBody = true := by
  have hall : all.all opensBody = true := by decide +kernel
  exact List.all_eq_true.1 hall h h.mem_all

/-- The words of a header make up its text and the brace behind it. -/
theorem join_words (h : BodyHeader) :
    SpacedWord.join h.words = h.text.toList ++ ['\x7b'] := by
  have hall : ∀ h ∈ all, SpacedWord.join h.words = h.text.toList ++ ['\x7b'] := by decide
  exact hall h h.mem_all

/-- What a header has been put together to lies on the stack `k`, and the opening brace `w` of the
body on it, whatever the text of the body is. -/
structure Leads (h : BodyHeader) (k k₀ : Stack .program) (w : Lexeme) : Prop where
  open_state : k₀.state = 179
  opens : k.push? (.leaf .leftBrace w) = some k₀
  offset : w.start.offset = h.text.length
  symbols : k.frames.reverse.map Frame.symbol = h.symbols
  run : ∀ cs, ∃ last, Source.derive .program (h.text.toList ++ '\x7b' :: cs) =
    Source.deriveFrom k₀ last ⟨Position.origin.afterAll (h.text.toList ++ ['\x7b']), cs⟩

/-- Every header leads to a stack. -/
theorem exists_leads (h : BodyHeader) : ∃ k k₀ w, h.Leads k k₀ w := by
  have hopens := h.opensBody_eq_true
  unfold opensBody at hopens
  split at hopens
  · next f fs hpush =>
    obtain ⟨s, d, q⟩ := f
    simp only [Bool.and_eq_true, beq_iff_eq] at hopens
    obtain ⟨⟨⟨⟨hs, hq⟩, hoffset⟩, hmove⟩, hsymbols⟩ := hopens
    subst hs hq
    cases d with
    | leaf t w =>
      refine ⟨⟨fs⟩, _, w, rfl, Stack.push?_of_move? _ hmove, Option.some.inj hoffset, hsymbols, ?_⟩
      intro cs
      obtain ⟨last, hrun⟩ := Source.exists_deriveFrom_of_pushWords? hpush .origin cs
      rw [h.join_words, List.append_assoc] at hrun
      exact ⟨last, hrun⟩
  · exact absurd hopens (by simp)

end BodyHeader

end CadenceEntry
