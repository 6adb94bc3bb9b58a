import CadenceEntry.Proofs.Source.Completing

/-!
# What a stack takes

A state admits a word that leads on from it, and every lookahead that completes a production in it.
The lookaheads of a production are those of all places where the state can be reached, so the state
alone does not tell what can come next. The stack does: it takes a lookahead if the productions that
this asks for lead to a state that the word leads on from, or to the whole text at its end.

What has been put together for another lookahead takes nothing that the stack before did not take:
`Stack.takes_of_settles`.
-/

set_option autoImplicit false

namespace CadenceEntry.Grammar

namespace State

/-- Whether what can come behind a phrase that begins in the state `q` is expected behind it. -/
def expectsBehind (q : State) : Bool :=
  q.row.moves.all fun m =>
    match m.1 with
    | .token _ => true
    | .phrase n =>
      m.2.row.moves.all fun m' =>
        match m'.1 with
        | .token t => (q.row.expected n).has (.word t)
        | .phrase _ => true

/-- Whether no word leads on from the state `q` that also completes a production in it. -/
def decides (q : State) : Bool :=
  q.row.moves.all fun m =>
    match m.1 with
    | .token t => (q.row.reduction? (.word t)).isNone
    | .phrase _ => true

/-- In every state, what can come behind a phrase is expected behind it. -/
theorem expectsBehind_all : (List.range Table.rows.length).all expectsBehind = true := by
  decide +kernel

/-- In no state, a word both leads on and completes a production. -/
theorem decides_all : (List.range Table.rows.length).all decides = true := by decide +kernel

variable {q q' : State} {s : Symbol} {t : Terminal}

/-- A move is one of the row, and its state is in the table. -/
theorem mem_moves_of_move? (h : q.row.move? s = some q') :
    (s, q') ∈ q.row.moves ∧ q ∈ List.range Table.rows.length := by
  obtain ⟨l₁, l₂, hl, -⟩ := List.lookup_eq_some_iff.1 h
  have hmem : (s, q') ∈ q.row.moves := by
    rw [hl]
    simp
  refine ⟨hmem, List.mem_range.2 ?_⟩
  by_contra hge
  have hrow : q.row = ⟨[], []⟩ := by
    rw [row, List.getElem?_eq_none (Nat.le_of_not_lt hge)]
    rfl
  rw [hrow] at hmem
  exact absurd hmem (by simp)

/-- A word that leads on completes nothing. -/
theorem reduction?_eq_none_of_move? (h : (q.row.move? (.token t)).isSome = true) :
    q.row.reduction? (.word t) = none := by
  obtain ⟨q', hq'⟩ := Option.isSome_iff_exists.1 h
  obtain ⟨hmem, hq⟩ := mem_moves_of_move? hq'
  have hdecides := List.all_eq_true.1 (List.all_eq_true.1 decides_all q hq) _ hmem
  exact Option.isNone_iff_eq_none.1 hdecides

/-- A word that leads on behind a phrase is expected behind it. -/
theorem expected_of_move? {n : Nonterminal} (h : q.row.move? (.phrase n) = some q')
    (ht : (q'.row.move? (.token t)).isSome = true) :
    (q.row.expected n).has (.word t) = true := by
  obtain ⟨q'', hq''⟩ := Option.isSome_iff_exists.1 ht
  obtain ⟨hmem, hq⟩ := mem_moves_of_move? h
  obtain ⟨hmem', -⟩ := mem_moves_of_move? hq''
  have hbehind := List.all_eq_true.1 (List.all_eq_true.1 expectsBehind_all q hq) _ hmem
  exact List.all_eq_true.1 hbehind _ hmem'

end State

namespace Stack

open State (Awaits)

variable {g : Goal} {a b : Lookahead} {k k' : Stack g}

/-- The lookahead can be taken at once: the word leads on, or the whole text is put together. -/
def Ready (k : Stack g) : Lookahead → Prop
  | .word t => (k.state.row.move? (.token t)).isSome = true
  | .finish => k.result?.isSome = true

/-- The lookahead can be taken when what it asks for has been put together. -/
def Takes (k : Stack g) (a : Lookahead) : Prop := (k.settle a).Ready a

instance (k : Stack g) (a : Lookahead) : Decidable (k.Ready a) :=
  match a with
  | .word t => inferInstanceAs (Decidable ((k.state.row.move? (.token t)).isSome = true))
  | .finish => inferInstanceAs (Decidable (k.result?.isSome = true))

instance (k : Stack g) (a : Lookahead) : Decidable (k.Takes a) :=
  inferInstanceAs (Decidable ((k.settle a).Ready a))

/-- What can be taken at once asks for nothing. -/
theorem Ready.reduction?_eq_none (hk : Linked g k.frames) (h : k.Ready a) :
    k.state.row.reduction? a = none := by
  cases a with
  | word t => exact State.reduction?_eq_none_of_move? h
  | finish =>
    obtain ⟨d, hd⟩ := Option.isSome_iff_exists.1 h
    obtain ⟨q, hframes⟩ := Source.frames_of_result? hd
    obtain ⟨q', hmove, hnone⟩ := g.exists_move?
    rw [hframes] at hk
    have hstate : g.start.row.move? (.phrase g.phrase) = some q := hk.1
    obtain rfl := Option.some.inj (hmove.symm.trans hstate)
    rw [state, hframes]
    exact hnone

/-- Where settling leads to a stack with which the lookahead can be taken, it is taken. -/
theorem takes_of_ready (hk : Linked g k.frames) (h : Settles a k k') (hready : k'.Ready a) :
    k.Takes a := by
  have hsettle := settle_eq_of_settles h (hready.reduction?_eq_none (hk.settles h))
  rw [Takes, hsettle]
  exact hready

/-- The state on top admits a word that the stack takes. -/
theorem Takes.admits {t : Terminal} (h : k.Takes (.word t)) : k.state.admits (.word t) = true := by
  unfold State.admits Row.admits
  cases hreduction : k.state.row.reduction? (.word t) with
  | some p => rfl
  | none =>
    have hsettle : k.settle (.word t) = k := settle_eq_of_settles .refl hreduction
    have hmove : ((k.settle (.word t)).state.row.move? (.token t)).isSome = true := h
    rw [hsettle] at hmove
    exact hmove

/-- The symbols that have been read of an awaited production lead to where the rest is awaited. -/
theorem Linked.awaits {top rest : List Frame} {p : Production}
    (hk : Linked g (top ++ rest)) (htop : top.reverse.map Frame.symbol = p.rhs.take top.length)
    (h : (⟨rest⟩ : Stack g).state.Awaits p 0 a) :
    (⟨top ++ rest⟩ : Stack g).state.Awaits p top.length a := by
  induction top with
  | nil => exact h
  | cons f fs ih =>
    obtain ⟨hmove, hfs⟩ := hk
    have hlength : fs.length < p.rhs.length := by
      have hlength := congrArg List.length htop
      rw [List.length_map, List.length_reverse, List.length_take, List.length_cons] at hlength
      omega
    rw [List.length_cons, List.take_add_one, List.getElem?_eq_getElem hlength, List.reverse_cons,
      List.map_append] at htop
    obtain ⟨hinit, hlast⟩ := List.append_inj htop (by simp; omega)
    have hsymbol : p.rhs[fs.length]? = some f.symbol := by
      rw [List.getElem?_eq_getElem hlength]
      exact congrArg List.head? hlast.symm
    obtain ⟨q, hq, hawaits⟩ := (ih hfs hinit).next hsymbol
    obtain rfl := Option.some.inj (hmove.symm.trans hq)
    exact hawaits

/-- What is put together is a production that is awaited before its right-hand side, for a lookahead
with which all of it is awaited, and no other. -/
theorem Reduces.exists_awaits (hk : Linked g k.frames) (h : Reduces b k k') :
    ∃ (p : Production) (top rest : List Frame) (f : Frame),
      k.state.row.reduction? b = some p ∧ k.reduce? p = some k' ∧
      k.frames = top ++ rest ∧ k'.frames = f :: rest ∧ f.symbol = .phrase p.lhs ∧
      top.reverse.map Frame.symbol = p.rhs ∧
      ∀ a, (⟨rest⟩ : Stack g).state.Awaits p 0 a → k.state.Awaits p p.rhs.length a := by
  obtain ⟨p, hreduction, hreduce⟩ := h
  obtain ⟨top, ds, rest, hframes, hds, hpush⟩ := reduce?_eq_some hreduce
  obtain ⟨q, -, hframes'⟩ := push?_eq_some hpush
  have hsymbols := map_symbol_of_derivations? hds
  have hlength : p.rhs.length = top.length := by
    rw [← hsymbols, List.length_map, List.length_reverse]
  refine ⟨p, top, rest, _, hreduction, hreduce, hframes, hframes', rfl, hsymbols, fun a h => ?_⟩
  rw [hframes] at hk
  have hawaits := hk.awaits (by rw [hsymbols, ← hlength, List.take_length]) h
  rw [hlength]
  show (⟨k.frames⟩ : Stack g).state.Awaits p top.length a
  rw [hframes]
  exact hawaits

/-- If the lookahead is taken with a phrase on top, all ways to build the phrase are awaited with it
where the phrase begins. -/
theorem awaits_of_settles (hk : Linked g k.frames) (h : Settles a k k') (hready : k'.Ready a)
    {f : Frame} {fs : List Frame} (hframes : k.frames = f :: fs) {p : Production}
    (hp : f.symbol = .phrase p.lhs) : (⟨fs⟩ : Stack g).state.Awaits p 0 a := by
  induction h using Relation.ReflTransGen.head_induction_on generalizing f fs p with
  | refl =>
    rw [hframes] at hk
    have hmove := hk.1
    rw [hp] at hmove
    cases a with
    | word t =>
      have hstate : k'.state = f.state := by rw [state, hframes]
      have hnext : (k'.state.row.move? (.token t)).isSome = true := hready
      rw [hstate] at hnext
      exact .inr ⟨rfl, State.expected_of_move? hmove hnext⟩
    | finish =>
      obtain ⟨d, hd⟩ := Option.isSome_iff_exists.1 hready
      obtain ⟨q, hframes'⟩ := Source.frames_of_result? hd
      obtain ⟨rfl, rfl⟩ := List.cons.inj (hframes.symm.trans hframes')
      exact g.awaits (Symbol.phrase.inj hp).symm
  | @head k k₁ hstep hsettles ih =>
    obtain ⟨p₁, top, rest, f₁, hreduction, -, htop, hframes₁, hf₁, hsymbols, -⟩ :=
      hstep.exists_awaits hk
    have hrest := ih (hk.settles (.single hstep)) hframes₁ hf₁
    rw [hframes] at htop hk
    cases top with
    | nil =>
      -- behind a move every item has been begun, so nothing is put together from nothing
      have hstate : k.state = f.state := by rw [state, hframes]
      obtain ⟨i, hi, hcomplete, -, rfl⟩ := Row.exists_item_of_reduction? hreduction
      rw [hstate] at hi
      have hleads := (State.leads_of_move? hk.1).2.2.1 i hi
      have hdone : i.done = 0 := by
        rw [beq_iff_eq.1 hcomplete, ← hsymbols]
        rfl
      rw [State.leadsTo, hdone] at hleads
      exact absurd hleads (by simp)
    | cons f' top =>
      obtain ⟨rfl, rfl⟩ := List.cons.inj htop
      rw [List.reverse_cons, List.map_append] at hsymbols
      have hinit : top.reverse.map Frame.symbol = p₁.rhs.take top.length := by
        rw [← hsymbols, List.take_left' (by simp)]
      have hnext : p₁.rhs[top.length]? = some (.phrase p.lhs) := by
        rw [← hsymbols, ← hp, List.getElem?_append_right (by simp)]
        simp
      have hdrop : p₁.rhs.drop (top.length + 1) = [] := by
        rw [List.drop_eq_nil_iff, ← hsymbols]
        simp
      refine (hk.2.awaits hinit hrest).begin hnext rfl ?_
      rw [hdrop]
      simp [LookaheadSet.before]

/-- A stack takes what it takes after something has been put together, also if this was done for
another lookahead. -/
theorem takes_of_settles (hk : Linked g k.frames) (h : Settles b k k') (ha : k'.Takes a) :
    k.Takes a := by
  induction h using Relation.ReflTransGen.head_induction_on with
  | refl => exact ha
  | @head k k₁ hstep _ ih =>
    have hk₁ := hk.settles (.single hstep)
    have hsettles := settles_settle k₁ a
    obtain ⟨p, top, rest, f, -, hreduce, -, hframes, hf, -, hawaits⟩ := hstep.exists_awaits hk
    have hrest := awaits_of_settles hk₁ hsettles (ih hk₁) hframes hf
    have hreduction := (hawaits a hrest).reduction?
    exact takes_of_ready hk (.head ⟨p, hreduction, hreduce⟩ hsettles) (ih hk₁)

end Stack

end CadenceEntry.Grammar
