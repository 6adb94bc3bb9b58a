import CadenceEntry.Proofs.Source.Completing

/-!
# Reading never gets stuck

`deriveStrictly` reads like `derive`, but it tells apart that a text is refused and that the
automaton is broken: that a state is not in the table, that what lies on the stack is not the
right-hand side of a production that is to be put together, that there is no state to go to
afterwards, or that putting together does not come to an end. The automaton is never broken:
`deriveStrictly_eq`.
-/

set_option autoImplicit false

namespace CadenceEntry

open Grammar

/-- Why there is no result: the text is refused, or something is missing that must be there. -/
inductive Failure where
  | refused (e : SyntaxError)
  | broken
  deriving DecidableEq, Repr

namespace Grammar.Stack

variable {g : Goal}

/-- Puts productions together as long as the lookahead asks for it. -/
def settleStrictly : Nat → Stack g → Lookahead → Except Failure (Stack g)
  | 0, k, a =>
    match Table.rows[k.state]? with
    | none => .error .broken
    | some r => if (r.reduction? a).isSome then .error .broken else .ok k
  | fuel + 1, k, a =>
    match Table.rows[k.state]? with
    | none => .error .broken
    | some r =>
      match r.reduction? a with
      | none => .ok k
      | some p =>
        match k.reduce? p with
        | none => .error .broken
        | some k' => settleStrictly fuel k' a

/-- Frames with given symbols hold derivations of them. -/
theorem exists_derivations? {fs : List Frame} {ss : List Symbol}
    (h : fs.map Frame.symbol = ss) : ∃ ds, derivations? ss fs = some ds := by
  subst h
  induction fs with
  | nil => exact ⟨.nil, rfl⟩
  | cons f fs ih =>
    obtain ⟨ds, hds⟩ := ih
    refine ⟨.cons f.derivation ds, ?_⟩
    show derivations? (f.symbol :: fs.map Frame.symbol) (f :: fs) = _
    rw [derivations?, dif_pos rfl, hds]
    rfl

/-- Where a viable production begins, there is a move for its phrase. -/
theorem Viable.exists_move? {fs : List Frame} {p : Production} (h : Viable g fs p 0) :
    ∃ q, (⟨fs⟩ : Stack g).state.row.move? (.phrase p.lhs) = some q := by
  cases h with
  | start h =>
    obtain ⟨q, hq, -⟩ := g.exists_move?
    exact ⟨q, by rw [h]; exact hq⟩
  | begin h hs =>
    obtain ⟨-, ws, -, hcompletes⟩ := Source.exists_completes h
    obtain ⟨q, hq, -⟩ := hcompletes.awaits.next hs
    exact ⟨q, hq⟩

/-- What the lookahead asks to put together can be put together. -/
theorem exists_reduce? {k : Stack g} (hk : Linked g k.frames) {a : Lookahead} {p : Production}
    (h : k.state.row.reduction? a = some p) : ∃ k', k.reduce? p = some k' := by
  obtain ⟨i, hi, hcomplete, -, rfl⟩ := Row.exists_item_of_reduction? h
  have hdone : i.done = i.production.rhs.length := beq_iff_eq.1 hcomplete
  have hviable := viable_of_mem_items (g := g) hk i hi
  obtain ⟨top, rest, hframes, htop, hrest⟩ := hviable.exists_frames
  obtain ⟨q, hmove⟩ := hrest.exists_move?
  rw [hdone, List.take_length] at htop
  obtain ⟨ds, hds⟩ := exists_derivations? htop
  have hlength : top.length = i.production.rhs.length := by
    rw [← htop, List.length_map, List.length_reverse]
  refine ⟨⟨⟨_, .node i.production ds, q⟩ :: rest⟩, ?_⟩
  unfold reduce?
  dsimp only
  rw [hframes, ← hlength, List.take_left, List.drop_left, hds]
  exact push?_of_move? _ hmove

/-- Putting together strictly gives what putting together gives. -/
theorem settleStrictly_eq {k : Stack g} (hk : Linked g k.frames) (a : Lookahead) {fuel : Nat}
    (hfuel : k.weight ≤ fuel) : settleStrictly fuel k a = .ok (settleWithin fuel k a) := by
  have hrow : ∀ k : Stack g, Linked g k.frames → Table.rows[k.state]? = some k.state.row := by
    intro k hk
    have hlt : k.state < Table.rows.length := hk.state_lt
    rw [State.row, List.getElem?_eq_getElem hlt]
    rfl
  induction fuel generalizing k with
  | zero =>
    have hnone : k.state.row.reduction? a = none := by
      rw [Option.eq_none_iff_forall_ne_some]
      intro p hp
      obtain ⟨k', hk'⟩ := exists_reduce? hk hp
      have hlt := weight_lt_of_reduces ⟨p, hp, hk'⟩
      omega
    rw [settleStrictly, hrow k hk]
    simp only [hnone, Option.isSome_none, Bool.false_eq_true, if_false, settleWithin]
  | succ fuel ih =>
    rw [settleStrictly, settleWithin, hrow k hk]
    cases hp : k.state.row.reduction? a with
    | none => simp only [hp]
    | some p =>
      obtain ⟨k', hk'⟩ := exists_reduce? hk hp
      have hlt := weight_lt_of_reduces ⟨p, hp, hk'⟩
      simp only [hp, hk']
      exact ih (hk.settles (.single ⟨p, hp, hk'⟩)) (by omega)

end Grammar.Stack

namespace Source

variable {g : Goal}

/-- Reads on from the cursor strictly, where `last` is the place of the word before it. -/
def deriveFromStrictly (k : Stack g) (last : Position) (c : Cursor) :
    Except Failure (Derivation (.phrase g.phrase)) :=
  match _ : NextWord.read k.state c with
  | .word t w c' =>
    match k.settleStrictly k.settleBound (.word t) with
    | .error e => .error e
    | .ok k =>
      match k.push? (.leaf t w) with
      | some k => deriveFromStrictly k w.start c'
      | none => .error (.refused (.unexpectedWord w.text k.state.lookaheads w.start))
  | .finish =>
    match k.settleStrictly k.settleBound .finish with
    | .error e => .error e
    | .ok k =>
      match k.result? with
      | some d => .ok d
      | none => .error (.refused (.unexpectedEnd k.state.lookaheads last))
  | .stuck c' => .error (.refused (stuckError k.state c'))
termination_by c.rest.length
decreasing_by exact NextWord.length_lt_of_readBy ‹_›

/-- The derivation of the text `cs`, found strictly. -/
def deriveStrictly (g : Goal) (cs : List Char) :
    Except Failure (Derivation (.phrase g.phrase)) :=
  deriveFromStrictly (Stack.empty g) .origin (.ofText cs)

/-- Reading on strictly gives what reading on gives. -/
theorem deriveFromStrictly_eq {k : Stack g} (hk : Stack.Linked g k.frames) (last : Position)
    (c : Cursor) :
    deriveFromStrictly k last c = (deriveFrom k last c).mapError .refused := by
  have hsettle : ∀ a, k.settleStrictly k.settleBound a = .ok (k.settle a) := fun a =>
    Stack.settleStrictly_eq hk a k.weight_le_settleBound
  rw [deriveFromStrictly, deriveFrom_eq]
  split
  · next t w c' hread =>
    rw [hread, hsettle]
    dsimp only
    cases hpush : (k.settle (.word t)).push? (.leaf t w) with
    | none => rfl
    | some k' =>
      have hk' := (hk.settles (Stack.settles_settle k (.word t))).push? hpush
      have hlt := NextWord.length_lt_of_readBy hread
      exact deriveFromStrictly_eq hk' w.start c'
  · next hread =>
    rw [hread, hsettle]
    dsimp only
    cases (k.settle .finish).result? <;> rfl
  · next c' hread =>
    rw [hread]
    rfl
termination_by c.rest.length

/-- A text is derived or refused, and the automaton is never broken. -/
theorem deriveStrictly_eq (g : Goal) (cs : List Char) :
    deriveStrictly g cs = (derive g cs).mapError .refused :=
  deriveFromStrictly_eq (k := Stack.empty g) trivial .origin (.ofText cs)

end Source

end CadenceEntry
