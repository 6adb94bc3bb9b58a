import CadenceEntry.Proofs.Grammar.Closure
import Mathlib.Logic.Relation

/-!
# Putting productions together

`Stack.settle` puts productions together as long as the lookahead asks for it, at most as often as
its bound says. The bound is never reached: a production with two symbols or more makes the stack
shorter, and one with a single symbol puts a higher symbol on top of a stack of the same length. So
settling ends where the lookahead asks for nothing more, which is `settle_eq_of_settles`.
-/

set_option autoImplicit false

namespace CadenceEntry.Grammar

/-- How many phrases within each other a symbol can be built from alone, up to `depth`. -/
def Symbol.heightWithin : Nat → Symbol → Nat
  | _, .token _ => 0
  | 0, .phrase _ => 0
  | depth + 1, .phrase n =>
    n.productions.foldr (fun p m =>
      match p.rhs with
      | [s] => max m (heightWithin depth s + 1)
      | _ => m) 0

/-- How many phrases within each other a symbol can be built from alone. -/
def Symbol.height (s : Symbol) : Nat := s.heightWithin 12

/-- A phrase that is built from one symbol is higher than it. -/
theorem Production.height_lt {p : Production} {s : Symbol} (h : p.rhs = [s]) :
    s.height < (Symbol.phrase p.lhs).height := by
  have hall : (Production.all.all fun p =>
      match p.rhs with
      | [s] => decide (s.height < (Symbol.phrase p.lhs).height)
      | _ => true) = true := by
    decide +kernel
  have hp := List.all_eq_true.1 hall p p.mem_all
  simpa only [h, decide_eq_true_eq] using hp

/-- No symbol is very high. -/
theorem Symbol.height_lt (s : Symbol) : s.height < 50 := by
  cases s with
  | token t => exact Nat.succ_pos 49
  | phrase n =>
    have hall : (Nonterminal.all.all fun n => decide ((Symbol.phrase n).height < 50)) = true := by
      decide
    exact of_decide_eq_true (List.all_eq_true.1 hall n n.mem_all)

/-- A row is in the table, unless it knows nothing. -/
theorem State.row_mem (q : State) : q.row ∈ Table.rows ∨ q.row = ⟨[], []⟩ := by
  unfold State.row
  cases hr : Table.rows[q]? with
  | none => exact .inr rfl
  | some r => exact .inl (List.mem_of_getElem? hr)

/-- A row with an item is in the table. -/
theorem State.row_mem_of_item {q : State} {i : Item} (h : i ∈ q.row.items) :
    q.row ∈ Table.rows := by
  refine q.row_mem.resolve_right fun hrow => ?_
  rw [hrow] at h
  exact List.not_mem_nil h

/-- A row that leads on is in the table. -/
theorem State.row_mem_of_move? {q q' : State} {s : Symbol} (h : q.row.move? s = some q') :
    q.row ∈ Table.rows := by
  refine q.row_mem.resolve_right fun hrow => ?_
  rw [hrow] at h
  exact absurd h (by simp [Row.move?])

/-- What is put together is an item that has been read to its end. -/
theorem Row.exists_item_of_reduction? {r : Row} {a : Lookahead} {p : Production}
    (h : r.reduction? a = some p) :
    ∃ i ∈ r.items, i.isComplete = true ∧ a ∈ i.follow ∧ i.production = p := by
  obtain ⟨i, hi, rfl⟩ := Option.map_eq_some_iff.1 h
  have hprop := List.find?_some hi
  simp only [Bool.and_eq_true, List.contains_iff_mem] at hprop
  exact ⟨i, List.mem_of_find?_eq_some hi, hprop.1, hprop.2, rfl⟩

/-- What is put together from nothing leads to the state `2`. -/
theorem State.move?_of_empty {q : State} {a : Lookahead} {p : Production}
    (h : q.row.reduction? a = some p) (hp : p.rhs = []) :
    q.row.move? (.phrase p.lhs) = some 2 := by
  have hall : (Table.rows.all fun r => r.items.all fun i =>
      !i.isComplete || !i.production.rhs.isEmpty ||
        r.move? (.phrase i.production.lhs) == some 2) = true := by
    decide +kernel
  obtain ⟨i, hi, hcomplete, -, rfl⟩ := Row.exists_item_of_reduction? h
  have hitem := List.all_eq_true.1 (List.all_eq_true.1 hall _ (State.row_mem_of_item hi)) i hi
  simpa [hcomplete, hp] using hitem

/-- Nothing is put together in the state `2`. -/
theorem State.reduction?_two (a : Lookahead) : (State.row 2).reduction? a = none := rfl

namespace Stack

variable {g : Goal} {a : Lookahead}

/-- One production is put together because the lookahead asks for it. -/
def Reduces (a : Lookahead) (k k' : Stack g) : Prop :=
  ∃ p, k.state.row.reduction? a = some p ∧ k.reduce? p = some k'

/-- Productions are put together because the lookahead asks for them. -/
def Settles (a : Lookahead) : Stack g → Stack g → Prop := Relation.ReflTransGen (Reduces a)

/-- What is pushed lies on top. -/
theorem push?_eq_some {k k' : Stack g} {s : Symbol} {d : Derivation s} (h : k.push? d = some k') :
    ∃ q, k.state.row.move? s = some q ∧ k'.frames = ⟨s, d, q⟩ :: k.frames := by
  unfold push? at h
  obtain ⟨q, hq, rfl⟩ := Option.map_eq_some_iff.1 h
  exact ⟨q, hq, rfl⟩

/-- A stack with a move for the symbol takes a derivation of it. -/
theorem push?_of_move? {k : Stack g} {s : Symbol} {q : State} (d : Derivation s)
    (h : k.state.row.move? s = some q) : k.push? d = some ⟨⟨s, d, q⟩ :: k.frames⟩ := by
  unfold push?
  rw [h]
  rfl

/-- Derivations of given symbols come from as many frames. -/
theorem map_symbol_of_derivations? {ss : List Symbol} {fs : List Frame} {ds : Derivations ss}
    (h : derivations? ss fs = some ds) : fs.map Frame.symbol = ss := by
  induction ss generalizing fs with
  | nil =>
    cases fs with
    | nil => rfl
    | cons f fs => simp [derivations?] at h
  | cons s ss ih =>
    cases fs with
    | nil => simp [derivations?] at h
    | cons f fs =>
      unfold derivations? at h
      split at h
      · next hf =>
        obtain ⟨ds', hds', -⟩ := Option.map_eq_some_iff.1 h
        rw [List.map_cons, hf, ih hds']
      · simp at h

/-- What a reduction leaves: the frames of the right-hand side are gone, and one with the phrase
lies in their place. -/
theorem reduce?_eq_some {k k' : Stack g} {p : Production} (h : k.reduce? p = some k') :
    ∃ (fs : List Frame) (ds : Derivations p.rhs) (rest : List Frame),
      k.frames = fs ++ rest ∧ derivations? p.rhs fs.reverse = some ds ∧
        push? (⟨rest⟩ : Stack g) (.node p ds) = some k' := by
  unfold reduce? at h
  dsimp only at h
  cases hds : derivations? p.rhs (k.frames.take p.rhs.length).reverse with
  | none => simp [hds] at h
  | some ds =>
    rw [hds] at h
    exact ⟨_, ds, _, (List.take_append_drop _ _).symm, hds, h⟩

/-- How much a stack can still be settled. -/
def weight (k : Stack g) : Nat :=
  if k.state = 2 then 0
  else
    match k.frames with
    | [] => 50
    | f :: fs => (fs.length + 2) * 50 - f.symbol.height

/-- The bound on settling is at least the weight. -/
theorem weight_le_settleBound (k : Stack g) : k.weight ≤ k.settleBound := by
  have hall : Nonterminal.all.length = 50 := rfl
  unfold weight settleBound
  rw [hall]
  split
  · exact Nat.zero_le _
  · cases k.frames with
    | nil => simp
    | cons f fs => simp only [List.length_cons]; omega

/-- Each production that is put together makes a stack lighter. -/
theorem weight_lt_of_reduces {k k' : Stack g} (h : Reduces a k k') : k'.weight < k.weight := by
  obtain ⟨p, hred, hk'⟩ := h
  obtain ⟨fs, ds, rest, hframes, hds, hpush⟩ := reduce?_eq_some hk'
  obtain ⟨q, hmove, hk'⟩ := push?_eq_some hpush
  have hsymbols := map_symbol_of_derivations? hds
  have hlength : fs.length = p.rhs.length := by rw [← hsymbols]; simp
  have hheight := (Symbol.phrase p.lhs).height_lt
  have hstate : k.state ≠ 2 := by
    intro h2
    rw [h2, State.reduction?_two] at hred
    exact absurd hred (by simp)
  have hweight : k'.weight ≤ (rest.length + 2) * 50 - (Symbol.phrase p.lhs).height := by
    unfold weight
    rw [hk']
    split <;> simp
  match hrhs : p.rhs, fs with
  | [], [] =>
    have hq : k'.state = 2 := by
      have hrest : (⟨rest⟩ : Stack g) = k := by
        cases k
        simp_all
      have hleads := State.move?_of_empty hred hrhs
      rw [hrest, hleads] at hmove
      unfold state
      rw [hk']
      exact (Option.some.inj hmove).symm
    have hk : 0 < k.weight := by
      unfold weight
      rw [if_neg hstate]
      cases k.frames with
      | nil => simp
      | cons f fs =>
        have := f.symbol.height_lt
        simp only
        omega
    have hk'' : k'.weight = 0 := by
      unfold weight
      rw [if_pos hq]
    omega
  | [s], [f] =>
    have hlt := Production.height_lt hrhs
    have hf : f.symbol = s := by simpa [hrhs] using hsymbols
    have hk : k.weight = (rest.length + 2) * 50 - s.height := by
      unfold weight
      rw [if_neg hstate, hframes]
      simp [hf]
    omega
  | _ :: _ :: _, f :: f' :: fs =>
    have hf := f.symbol.height_lt
    have hk : (rest.length + 3) * 50 - f.symbol.height ≤ k.weight := by
      unfold weight
      rw [if_neg hstate, hframes]
      simp only [List.cons_append, List.length_cons, List.length_append]
      omega
    omega
  | [], _ :: _ => simp [hrhs] at hlength
  | _ :: _, [] => simp [hrhs] at hlength
  | [_], _ :: _ :: _ => simp [hrhs] at hlength
  | _ :: _ :: _, [_] => simp [hrhs] at hlength

/-- Settling begins with the production that the lookahead asks for. -/
theorem settleWithin_of_reduces {k k' : Stack g} (h : Reduces a k k') (fuel : Nat) :
    settleWithin (fuel + 1) k a = settleWithin fuel k' a := by
  obtain ⟨p, hp, hk'⟩ := h
  rw [settleWithin, hp]
  simp only [hk']

/-- Where nothing reduces, nothing is settled. -/
theorem settleWithin_of_not_reduces {k : Stack g} (h : ¬ ∃ k', Reduces a k k') (fuel : Nat) :
    settleWithin fuel k a = k := by
  cases fuel with
  | zero => rfl
  | succ fuel =>
    rw [settleWithin]
    cases hp : k.state.row.reduction? a with
    | none => rfl
    | some p =>
      cases hk' : k.reduce? p with
      | none => simp only [hk']
      | some k' => exact absurd ⟨k', p, hp, hk'⟩ h

/-- With enough fuel, settling ends where the lookahead asks for nothing more. -/
theorem settleWithin_of_settles {k k' : Stack g} (h : Settles a k k')
    (hk' : k'.state.row.reduction? a = none) {fuel : Nat} (hfuel : k.weight ≤ fuel) :
    settleWithin fuel k a = k' := by
  induction h using Relation.ReflTransGen.head_induction_on generalizing fuel with
  | refl =>
    refine settleWithin_of_not_reduces ?_ fuel
    rintro ⟨k'', p, hp, -⟩
    rw [hk'] at hp
    exact absurd hp (by simp)
  | head hstep _ ih =>
    have hlt := weight_lt_of_reduces hstep
    cases fuel with
    | zero => omega
    | succ fuel =>
      rw [settleWithin_of_reduces hstep]
      exact ih (by omega)

/-- Settling ends where the lookahead asks for nothing more. -/
theorem settle_eq_of_settles {k k' : Stack g} (h : Settles a k k')
    (hk' : k'.state.row.reduction? a = none) : k.settle a = k' :=
  settleWithin_of_settles h hk' k.weight_le_settleBound

/-- All fuel that is enough leads to the same stack. -/
theorem settleWithin_eq {k : Stack g} {m n : Nat} (hm : k.weight ≤ m) (hn : k.weight ≤ n) :
    settleWithin m k a = settleWithin n k a := by
  induction m generalizing k n with
  | zero =>
    have hstuck : ¬ ∃ k', Reduces a k k' := by
      rintro ⟨k', hk'⟩
      have hlt := weight_lt_of_reduces hk'
      omega
    rw [settleWithin_of_not_reduces hstuck, settleWithin_of_not_reduces hstuck]
  | succ m ih =>
    by_cases hreduces : ∃ k', Reduces a k k'
    · obtain ⟨k', hk'⟩ := hreduces
      have hlt := weight_lt_of_reduces hk'
      cases n with
      | zero => omega
      | succ n =>
        rw [settleWithin_of_reduces hk', settleWithin_of_reduces hk']
        exact ih (by omega) (by omega)
    · rw [settleWithin_of_not_reduces hreduces, settleWithin_of_not_reduces hreduces]

/-- Settling can begin with the first production that the lookahead asks for. -/
theorem settle_of_reduces {k k' : Stack g} (h : Reduces a k k') : k.settle a = k'.settle a := by
  have hlt := weight_lt_of_reduces h
  have hbound := k.weight_le_settleBound
  unfold settle
  cases hfuel : k.settleBound with
  | zero => omega
  | succ fuel =>
    rw [settleWithin_of_reduces h]
    exact settleWithin_eq (by omega) k'.weight_le_settleBound

/-- Settling puts productions together. -/
theorem settles_settleWithin (fuel : Nat) (k : Stack g) : Settles a k (settleWithin fuel k a) := by
  induction fuel generalizing k with
  | zero => exact .refl
  | succ fuel ih =>
    by_cases hreduces : ∃ k', Reduces a k k'
    · obtain ⟨k', hk'⟩ := hreduces
      rw [settleWithin_of_reduces hk']
      exact .head hk' (ih k')
    · rw [settleWithin_of_not_reduces hreduces]
      exact .refl

/-- Settling puts productions together. -/
theorem settles_settle (k : Stack g) (a : Lookahead) : Settles a k (k.settle a) :=
  settles_settleWithin _ _

end Stack

end CadenceEntry.Grammar
