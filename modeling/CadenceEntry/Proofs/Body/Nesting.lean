import CadenceEntry.Proofs.Body.Words
import CadenceEntry.Proofs.Syntax.Evaluation

/-!
# Bodies within the automaton

Behind the opening brace of a body the stack grows by braces that open nested blocks, and between
two braces by at most one list of items. `Opened` counts the braces; `Pending` is what holds after
each word of a body, when the word has not been put together with what is below it yet. Each word
keeps it, with one brace more, one less or as many, until the closing brace of the body is pushed.
-/

set_option autoImplicit false

namespace CadenceEntry.Grammar

namespace State

/-- The state behind the opening brace of a body, or of a block that is nested in one. -/
def opened (nested : Bool) : State := if nested then 183 else 179

/-- The state behind the items that follow an opening brace. -/
def filled (nested : Bool) : State := if nested then 184 else 180

/-- The states in which the next word of a body is pushed. -/
def pushStates : List State := [179, 180, 183, 184]

/-- The next word is pushed in the state behind an opening brace. -/
theorem opened_mem (nested : Bool) : opened nested ∈ pushStates := by cases nested <;> decide

/-- The next word is pushed in the state behind the items of a body. -/
theorem filled_mem (nested : Bool) : filled nested ∈ pushStates := by cases nested <;> decide

/-- Between the braces of a body everything is put together with the next word. -/
theorem reduction?_of_mem_bodyWords {t : Terminal} (ht : t ∈ Terminal.bodyWords) :
    (State.row 185).reduction? (.word t) = some .nestedItems ∧
    (State.row 186).reduction? (.word t) = some .nestedEmpty ∧
    (State.row 187).reduction? (.word t) = some .blockItemFirst ∧
    (State.row 188).reduction? (.word t) = some .blockItemNext ∧
    (State.row 189).reduction? (.word t) = some .itemNested ∧
    (State.row 190).reduction? (.word t) = some .itemString ∧
    (State.row 191).reduction? (.word t) = some .itemStatement ∧
    ∀ q ∈ pushStates, q.row.reduction? (.word t) = none := by
  have hall : ∀ t ∈ Terminal.bodyWords,
      (State.row 185).reduction? (.word t) = some .nestedItems ∧
      (State.row 186).reduction? (.word t) = some .nestedEmpty ∧
      (State.row 187).reduction? (.word t) = some .blockItemFirst ∧
      (State.row 188).reduction? (.word t) = some .blockItemNext ∧
      (State.row 189).reduction? (.word t) = some .itemNested ∧
      (State.row 190).reduction? (.word t) = some .itemString ∧
      (State.row 191).reduction? (.word t) = some .itemStatement ∧
      ∀ q ∈ pushStates, q.row.reduction? (.word t) = none := by
    decide
  exact hall t ht

/-- Where the words of a body lead. -/
theorem moves_of_mem_pushStates {q : State} (hq : q ∈ pushStates) :
    q.row.move? (.token .leftBrace) = some 183 ∧ q.row.move? (.token .string) = some 190 ∧
    q.row.move? (.token .statement) = some 191 ∧ q.row.move? (.phrase .nestedBlock) = some 189 ∧
    (q.row.move? (.phrase .blockItem)).isSome = true := by
  have hall : ∀ q ∈ pushStates, q.row.move? (.token .leftBrace) = some 183 ∧
      q.row.move? (.token .string) = some 190 ∧ q.row.move? (.token .statement) = some 191 ∧
      q.row.move? (.phrase .nestedBlock) = some 189 ∧
      (q.row.move? (.phrase .blockItem)).isSome = true := by
    decide
  exact hall q hq

/-- Where items and the closing brace lead behind an opening brace. -/
theorem moves_opened (nested : Bool) :
    (opened nested).row.move? (.phrase .blockItem) = some 187 ∧
    (opened nested).row.move? (.phrase .blockItems) = some (filled nested) ∧
    (opened nested).row.move? (.token .rightBrace) = some (if nested then 186 else 182) := by
  cases nested <;> decide

/-- Where another item and the closing brace lead behind items. -/
theorem moves_filled (nested : Bool) :
    (filled nested).row.move? (.phrase .blockItem) = some 188 ∧
    (filled nested).row.move? (.token .rightBrace) = some (if nested then 185 else 181) := by
  cases nested <;> decide

end State

namespace Stack

variable {g : Goal} {k₀ : Stack g}

/-- What is pushed leads to the state on top. -/
theorem state_of_push? {k k' : Stack g} {s : Symbol} {d : Derivation s} (h : k.push? d = some k') :
    k.state.row.move? s = some k'.state := by
  obtain ⟨q, hmove, hframes⟩ := push?_eq_some h
  unfold state at hmove ⊢
  rw [hframes]
  exact hmove

/-- A right-hand side that has been pushed is put together when the lookahead asks for it. -/
theorem reduces_of_pushAll? {k k' k'' : Stack g} {a : Lookahead} {p : Production}
    {ds : Derivations p.rhs} (hpush : k.pushAll? ds = some k')
    (hreduction : k'.state.row.reduction? a = some p) (hnode : k.push? (.node p ds) = some k'') :
    Reduces a k' k'' :=
  ⟨p, hreduction, (reduce?_of_pushAll? hpush).trans hnode⟩

/-- Derivations are pushed one after the other. -/
theorem pushAll?_cons {k k' k'' : Stack g} {s : Symbol} {ss : List Symbol} {d : Derivation s}
    {ds : Derivations ss} (hd : k.push? d = some k') (hds : k'.pushAll? ds = some k'') :
    k.pushAll? (.cons d ds) = some k'' := by
  rw [pushAll?, hd]
  exact hds

/-- The stack `k` is `b`, or `b` with the items of a body. -/
def Holds (b k : Stack g) : Prop :=
  k = b ∨ ∃ d : Derivation (.phrase .blockItems), d.invalidInteger? = none ∧ b.push? d = some k

/-- The stack ends with an opening brace that is `n` braces deep within the one `k₀` ends with. -/
inductive Opened (k₀ : Stack g) : Nat → Stack g → Prop
  | outer : Opened k₀ 0 k₀
  | inner {n : Nat} {b k b' : Stack g} {w : Lexeme} (hb : Opened k₀ n b) (hk : Holds b k)
      (hpush : k.push? (.leaf .leftBrace w) = some b') : Opened k₀ (n + 1) b'

/-- With or without items in a body, the next word is pushed. -/
theorem Holds.state {b k : Stack g} {nested : Bool} (h : Holds b k)
    (hb : b.state = .opened nested) : k.state ∈ State.pushStates := by
  rcases h with rfl | ⟨d, -, hpush⟩
  · rw [hb]
    exact State.opened_mem nested
  · have hmove := state_of_push? hpush
    rw [hb, (State.moves_opened nested).2.1] at hmove
    rw [← Option.some.inj hmove]
    exact State.filled_mem nested

/-- The state behind an opening brace is that of its depth. -/
theorem Opened.state {n : Nat} {b : Stack g} (h : Opened k₀ n b) (hk₀ : k₀.state = 179) :
    b.state = .opened (decide (0 < n)) := by
  induction h with
  | outer => exact hk₀
  | inner hb hk hpush ih =>
    have hmove := state_of_push? hpush
    rw [(State.moves_of_mem_pushStates (hk.state ih)).1] at hmove
    exact (Option.some.inj hmove).symm

/-- An item that is pushed on the items before it becomes one of them with the next word. -/
theorem Holds.exists_of_item {b k k' : Stack g} {nested : Bool} (h : Holds b k)
    (hb : b.state = .opened nested) {d : Derivation (.phrase .blockItem)}
    (hd : d.invalidInteger? = none) (hpush : k.push? d = some k') :
    ∃ k'', Holds b k'' ∧ ∀ t ∈ Terminal.bodyWords, Reduces (.word t) k' k'' := by
  obtain ⟨hitem, hitems, -⟩ := State.moves_opened nested
  rw [← hb] at hitem hitems
  have hmove := state_of_push? hpush
  rcases h with rfl | ⟨d₀, hd₀, hpush₀⟩
  · have hnode := push?_of_move? (.node .blockItemFirst (.cons d .nil)) hitems
    refine ⟨_, .inr ⟨_, ?_, hnode⟩, fun t ht => ?_⟩
    · exact (Derivations.invalidInteger?_cons _ _).2 ⟨hd, rfl⟩
    · refine reduces_of_pushAll? (pushAll?_cons hpush rfl) ?_ hnode
      rw [hitem] at hmove
      rw [← Option.some.inj hmove]
      exact (State.reduction?_of_mem_bodyWords ht).2.2.1
  · have hnode := push?_of_move? (.node .blockItemNext (.cons d₀ (.cons d .nil))) hitems
    refine ⟨_, .inr ⟨_, ?_, hnode⟩, fun t ht => ?_⟩
    · refine (Derivations.invalidInteger?_cons _ _).2 ⟨hd₀, ?_⟩
      exact (Derivations.invalidInteger?_cons _ _).2 ⟨hd, rfl⟩
    · refine reduces_of_pushAll? (pushAll?_cons hpush₀ (pushAll?_cons hpush rfl)) ?_ hnode
      have hstate := state_of_push? hpush₀
      rw [hitems] at hstate
      rw [← Option.some.inj hstate, (State.moves_filled nested).1] at hmove
      rw [← Option.some.inj hmove]
      exact (State.reduction?_of_mem_bodyWords ht).2.2.2.1

/-- A string literal or other text that is pushed is an item. -/
theorem Holds.exists_of_word {b k k' : Stack g} {nested : Bool} (h : Holds b k)
    (hb : b.state = .opened nested) {t : Terminal} {w : Lexeme}
    (ht : t = .string ∨ t = .statement) (hpush : k.push? (.leaf t w) = some k') :
    ∃ k'', Holds b k'' ∧ ∀ s ∈ Terminal.bodyWords, Settles (.word s) k' k'' := by
  obtain ⟨-, hstring, hstatement, -, hitem⟩ := State.moves_of_mem_pushStates (h.state hb)
  obtain ⟨q, hq⟩ := Option.isSome_iff_exists.1 hitem
  have hmove := state_of_push? hpush
  rcases ht with rfl | rfl
  · rw [hstring] at hmove
    have hnode := push?_of_move? (.node .itemString (.cons (.leaf .string w) .nil)) hq
    obtain ⟨k'', hk'', hreduces⟩ := h.exists_of_item hb (d := .node .itemString _) rfl hnode
    refine ⟨k'', hk'', fun s hs => .head ?_ (.single (hreduces s hs))⟩
    refine reduces_of_pushAll? (pushAll?_cons hpush rfl) ?_ hnode
    rw [← Option.some.inj hmove]
    exact (State.reduction?_of_mem_bodyWords hs).2.2.2.2.2.1
  · rw [hstatement] at hmove
    have hnode := push?_of_move? (.node .itemStatement (.cons (.leaf .statement w) .nil)) hq
    obtain ⟨k'', hk'', hreduces⟩ := h.exists_of_item hb (d := .node .itemStatement _) rfl hnode
    refine ⟨k'', hk'', fun s hs => .head ?_ (.single (hreduces s hs))⟩
    refine reduces_of_pushAll? (pushAll?_cons hpush rfl) ?_ hnode
    rw [← Option.some.inj hmove]
    exact (State.reduction?_of_mem_bodyWords hs).2.2.2.2.2.2.1

/-- A block that is nested in a body and has been put together is an item. -/
theorem Holds.exists_of_nestedBlock {b k k' : Stack g} {nested : Bool} (h : Holds b k)
    (hb : b.state = .opened nested) {d : Derivation (.phrase .nestedBlock)}
    (hd : d.invalidInteger? = none) (hpush : k.push? d = some k') :
    ∃ k'', Holds b k'' ∧ ∀ t ∈ Terminal.bodyWords, Settles (.word t) k' k'' := by
  obtain ⟨-, -, -, hblock, hitem⟩ := State.moves_of_mem_pushStates (h.state hb)
  obtain ⟨q, hq⟩ := Option.isSome_iff_exists.1 hitem
  have hmove := state_of_push? hpush
  rw [hblock] at hmove
  have hnode := push?_of_move? (.node .itemNested (.cons d .nil)) hq
  have hd' : (Derivation.node .itemNested (.cons d .nil)).invalidInteger? = none :=
    (Derivations.invalidInteger?_cons _ _).2 ⟨hd, rfl⟩
  obtain ⟨k'', hk'', hreduces⟩ := h.exists_of_item hb hd' hnode
  refine ⟨k'', hk'', fun t ht => .head ?_ (.single (hreduces t ht))⟩
  refine reduces_of_pushAll? (pushAll?_cons hpush rfl) ?_ hnode
  rw [← Option.some.inj hmove]
  exact (State.reduction?_of_mem_bodyWords ht).2.2.2.2.1

/-- With its closing brace a block that is nested in a body is put together. -/
theorem Holds.exists_of_closing {b k b' k₁ k' : Stack g} {nested : Bool} {w w' : Lexeme}
    (h : Holds b k) (hb : b.state = .opened nested) (hopen : k.push? (.leaf .leftBrace w) = some b')
    (hk₁ : Holds b' k₁) (hclose : k₁.push? (.leaf .rightBrace w') = some k') :
    ∃ k'', Holds b k'' ∧ ∀ t ∈ Terminal.bodyWords, Settles (.word t) k' k'' := by
  obtain ⟨hbrace, -, -, hblock, -⟩ := State.moves_of_mem_pushStates (h.state hb)
  have hb' := state_of_push? hopen
  rw [hbrace] at hb'
  replace hb' : b'.state = .opened true := (Option.some.inj hb').symm
  obtain ⟨-, hitems, hempty⟩ := State.moves_opened true
  have hmove := state_of_push? hclose
  rcases hk₁ with rfl | ⟨d, hd, hpush⟩
  · rw [hb', hempty] at hmove
    have hnode := push?_of_move?
      (.node .nestedEmpty (.cons (.leaf .leftBrace w) (.cons (.leaf .rightBrace w') .nil))) hblock
    obtain ⟨k'', hk'', hsettles⟩ := h.exists_of_nestedBlock hb (by rfl) hnode
    refine ⟨k'', hk'', fun t ht => .head ?_ (hsettles t ht)⟩
    refine reduces_of_pushAll? (pushAll?_cons hopen (pushAll?_cons hclose rfl)) ?_ hnode
    rw [← Option.some.inj hmove]
    exact (State.reduction?_of_mem_bodyWords ht).2.1
  · have hfilled := state_of_push? hpush
    rw [hb', hitems] at hfilled
    rw [← Option.some.inj hfilled, (State.moves_filled true).2] at hmove
    have hnode := push?_of_move? (.node .nestedItems (.cons (.leaf .leftBrace w)
      (.cons d (.cons (.leaf .rightBrace w') .nil)))) hblock
    have hvalid : (Derivation.node .nestedItems (.cons (.leaf .leftBrace w)
        (.cons d (.cons (.leaf .rightBrace w') .nil)))).invalidInteger? = none := by
      refine (Derivations.invalidInteger?_cons _ _).2 ⟨rfl, ?_⟩
      exact (Derivations.invalidInteger?_cons _ _).2 ⟨hd, rfl⟩
    obtain ⟨k'', hk'', hsettles⟩ := h.exists_of_nestedBlock hb hvalid hnode
    refine ⟨k'', hk'', fun t ht => .head ?_ (hsettles t ht)⟩
    refine reduces_of_pushAll?
      (pushAll?_cons hopen (pushAll?_cons hpush (pushAll?_cons hclose rfl))) ?_ hnode
    rw [← Option.some.inj hmove]
    exact (State.reduction?_of_mem_bodyWords ht).1

/-- A word of a body has just been pushed, within `n` braces that have not been closed. With every
further word of the body what lies on the last of these braces is put together. -/
structure Pending (k₀ : Stack g) (n : Nat) (k : Stack g) : Prop where
  state_mem : k.state ∈ State.bodyStates
  pushed : ∃ (t : Terminal) (w : Lexeme) (k₁ : Stack g), k₁.push? (.leaf t w) = some k
  settles : ∃ b k', Opened k₀ n b ∧ Holds b k' ∧
    ∀ t ∈ Terminal.bodyWords, Settles (.word t) k k'

/-- On the stack `k` a body lies, as far as its closing brace. -/
inductive Closed (k : Stack g) (w w' : Lexeme) (k' : Stack g) : Prop
  | items (d : Derivation (.phrase .blockItems)) (hd : d.invalidInteger? = none)
      (hpush : k.pushAll? (.cons (.leaf .leftBrace w)
        (.cons d (.cons (.leaf .rightBrace w') .nil))) = some k') (hstate : k'.state = 181)
  | empty (hpush : k.pushAll? (.cons (.leaf .leftBrace w)
      (.cons (.leaf .rightBrace w') .nil)) = some k') (hstate : k'.state = 182)

/-- The opening brace of a body leaves it pending. -/
theorem Opened.pending {n : Nat} {k k' : Stack g} {w : Lexeme} (h : Opened k₀ n k')
    (hk₀ : k₀.state = 179) (hpush : k.push? (.leaf .leftBrace w) = some k') :
    Pending k₀ n k' := by
  refine ⟨?_, ⟨_, _, _, hpush⟩, k', k', h, .inl rfl, fun _ _ => .refl⟩
  rw [h.state hk₀]
  cases decide (0 < n) <;> decide

/-- What lies on the last brace is put together before a word is pushed. -/
theorem Pending.settle {n : Nat} {k : Stack g} (h : Pending k₀ n k) (hk₀ : k₀.state = 179) :
    ∃ b k', Opened k₀ n b ∧ Holds b k' ∧
      ∀ t ∈ Terminal.bodyWords, k.settle (.word t) = k' := by
  obtain ⟨b, k', hb, hk', hsettles⟩ := h.settles
  refine ⟨b, k', hb, hk', fun t ht => settle_eq_of_settles (hsettles t ht) ?_⟩
  exact (State.reduction?_of_mem_bodyWords ht).2.2.2.2.2.2.2 _ (hk'.state (hb.state hk₀))

/-- A string literal or other text leaves the braces as they are. -/
theorem Pending.item {n : Nat} {k : Stack g} (h : Pending k₀ n k) (hk₀ : k₀.state = 179)
    {t : Terminal} (w : Lexeme) (ht : t = .string ∨ t = .statement) :
    ∃ k', (k.settle (.word t)).push? (.leaf t w) = some k' ∧ Pending k₀ n k' := by
  obtain ⟨b, k₁, hb, hk₁, hsettle⟩ := h.settle hk₀
  obtain ⟨-, hstring, hstatement, -⟩ := State.moves_of_mem_pushStates (hk₁.state (hb.state hk₀))
  obtain ⟨q, hq, hmem⟩ : ∃ q, k₁.state.row.move? (.token t) = some q ∧ q ∈ State.bodyStates := by
    rcases ht with rfl | rfl
    · exact ⟨190, hstring, by decide⟩
    · exact ⟨191, hstatement, by decide⟩
  have hpush := push?_of_move? (.leaf t w) hq
  obtain ⟨k', hk', hsettles⟩ := hk₁.exists_of_word (hb.state hk₀) ht hpush
  rw [hsettle t (by rcases ht with rfl | rfl <;> decide)]
  exact ⟨_, hpush, hmem, ⟨_, _, _, hpush⟩, b, k', hb, hk', hsettles⟩

/-- An opening brace is one brace more. -/
theorem Pending.opening {n : Nat} {k : Stack g} (h : Pending k₀ n k) (hk₀ : k₀.state = 179)
    (w : Lexeme) :
    ∃ k', (k.settle (.word .leftBrace)).push? (.leaf .leftBrace w) = some k' ∧
      Pending k₀ (n + 1) k' := by
  obtain ⟨b, k₁, hb, hk₁, hsettle⟩ := h.settle hk₀
  obtain ⟨hbrace, -⟩ := State.moves_of_mem_pushStates (hk₁.state (hb.state hk₀))
  have hpush := push?_of_move? (.leaf .leftBrace w) hbrace
  rw [hsettle .leftBrace (by decide)]
  exact ⟨_, hpush, (Opened.inner hb hk₁ hpush).pending hk₀ hpush⟩

/-- A closing brace within others is one brace less. -/
theorem Pending.closing {n : Nat} {k : Stack g} (h : Pending k₀ (n + 1) k) (hk₀ : k₀.state = 179)
    (w : Lexeme) :
    ∃ k', (k.settle (.word .rightBrace)).push? (.leaf .rightBrace w) = some k' ∧
      Pending k₀ n k' := by
  obtain ⟨b', k₁, hb', hk₁, hsettle⟩ := h.settle hk₀
  have hstate := hb'.state hk₀
  obtain ⟨q, hq, hmem⟩ :
      ∃ q, k₁.state.row.move? (.token .rightBrace) = some q ∧ q ∈ State.bodyStates := by
    rcases hk₁ with rfl | ⟨d, -, hpush⟩
    · rw [hstate]
      exact ⟨186, (State.moves_opened true).2.2, by decide⟩
    · have hmove := state_of_push? hpush
      rw [hstate, (State.moves_opened _).2.1] at hmove
      rw [← Option.some.inj hmove]
      exact ⟨185, (State.moves_filled true).2, by decide⟩
  have hpush := push?_of_move? (.leaf .rightBrace w) hq
  cases hb' with
  | inner hb hk hopen =>
    obtain ⟨k', hk', hsettles⟩ := hk.exists_of_closing (hb.state hk₀) hopen hk₁ hpush
    rw [hsettle .rightBrace (by decide)]
    exact ⟨_, hpush, hmem, ⟨_, _, _, hpush⟩, _, k', hb, hk', hsettles⟩

/-- The closing brace behind the last open one closes the body. -/
theorem Pending.closed {k k₁ : Stack g} {w : Lexeme} (h : Pending k₀ 0 k) (hk₀ : k₀.state = 179)
    (hopen : k₁.push? (.leaf .leftBrace w) = some k₀) (w' : Lexeme) :
    ∃ k', (k.settle (.word .rightBrace)).push? (.leaf .rightBrace w') = some k' ∧
      Closed k₁ w w' k' := by
  obtain ⟨b, k₂, hb, hk₂, hsettle⟩ := h.settle hk₀
  rw [hsettle .rightBrace (by decide)]
  cases hb with
  | outer =>
    rcases hk₂ with rfl | ⟨d, hd, hpush⟩
    · have hclose : k₂.state.row.move? (.token .rightBrace) = some 182 := by
        rw [hk₀]
        exact (State.moves_opened false).2.2
      have hpush := push?_of_move? (.leaf .rightBrace w') hclose
      exact ⟨_, hpush, .empty (pushAll?_cons hopen (pushAll?_cons hpush rfl)) rfl⟩
    · have hclose : k₂.state.row.move? (.token .rightBrace) = some 181 := by
        have hmove := state_of_push? hpush
        rw [hk₀] at hmove
        rw [← Option.some.inj (((State.moves_opened false).2.1).symm.trans hmove)]
        exact (State.moves_filled false).2
      have hpush' := push?_of_move? (.leaf .rightBrace w') hclose
      exact ⟨_, hpush', .items d hd (pushAll?_cons hopen (pushAll?_cons hpush
        (pushAll?_cons hpush' rfl))) rfl⟩

/-- Within a body nothing is complete. -/
theorem Pending.result?_settle {n : Nat} {k : Stack g} (h : Pending k₀ n k) :
    (k.settle .finish).result? = none := by
  have hnone : ∀ q ∈ State.bodyStates, q.row.reduction? .finish = none := by
    decide
  have hsettle : k.settle .finish = k := settle_eq_of_settles .refl (hnone _ h.state_mem)
  rw [hsettle]
  cases hresult : k.result? with
  | none => rfl
  | some d =>
    obtain ⟨t, w, k₁, hpush⟩ := h.pushed
    obtain ⟨q, -, hframes⟩ := push?_eq_some hpush
    obtain ⟨q', hframes'⟩ := Source.frames_of_result? hresult
    rw [hframes] at hframes'
    have hsymbol := congrArg Frame.symbol (List.cons.inj hframes').1
    exact absurd hsymbol (by simp)

end Stack

end CadenceEntry.Grammar
