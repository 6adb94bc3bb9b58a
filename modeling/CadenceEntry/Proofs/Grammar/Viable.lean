import CadenceEntry.Proofs.Grammar.Corners
import CadenceEntry.Proofs.Grammar.Reduction

/-!
# What lies on the stack is the beginning of something

A production of which some symbols lie on top of the stack is viable if there is a way from it to
the goal: it is a way to build the goal, or a phrase that comes next in a viable production with the
rest of the stack. Every move of the table leads to items that are read one symbol further or begin
where the move begins, so on every stack that the moves build, all items of the state on top are
viable: `Stack.viable_of_mem_items`.
-/

set_option autoImplicit false

namespace CadenceEntry.Grammar

namespace State

/-- The phrases that come next in the state `q`: those of its items, or the goal at the start. -/
def next (q : State) : List Nonterminal :=
  (match q with
    | 0 => [.program]
    | 1 => [.typeText]
    | _ => []) ++
  q.row.items.filterMap fun i =>
    match i.production.rhs.drop i.done with
    | .phrase n :: _ => some n
    | _ => none

/-- Whether the item `i` behind the symbol `s` is one of the state `q` that is read one symbol
further, or one that begins with `s` in the state `q`. -/
def leadsTo (q : State) (s : Symbol) (i : Item) : Bool :=
  match i.done with
  | 0 => false
  | n + 1 =>
    i.production.rhs[n]? == some s &&
      ((q.row.items.any fun j => j.production == i.production && j.done == n) ||
        n == 0 && q.next.any fun k => Nat.testBit k.corners i.production.lhs.ctorIdx)

/-- Whether every move of the state `q` leads to what its items lead to, never out of the table or
back to a start, and with a word to at least one item. -/
def leadsOn (q : State) : Bool :=
  q.row.moves.all fun m =>
    Nat.ble 2 m.2 && Nat.blt m.2 Table.rows.length && (m.2.row.items.all (q.leadsTo m.1)) &&
      match m.1 with
      | .token _ => !m.2.row.items.isEmpty
      | .phrase _ => true

/-- The moves of every state lead to what its items lead to. -/
theorem leadsOn_all : (List.range Table.rows.length).all leadsOn = true := by decide +kernel

end State

namespace Stack

/-- The frames lie on each other as the moves of the table lead from state to state. -/
def Linked (g : Goal) : List Frame → Prop
  | [] => True
  | f :: fs => (⟨fs⟩ : Stack g).state.row.move? f.symbol = some f.state ∧ Linked g fs

/-- The production `p`, of which `n` symbols lie on top of the frames, is on a way to the goal. -/
inductive Viable (g : Goal) : List Frame → Production → Nat → Prop
  | start {p : Production} (h : p.lhs = g.phrase) : Viable g [] p 0
  | read {f : Frame} {fs : List Frame} {p : Production} {n : Nat} (h : Viable g fs p n)
      (hs : p.rhs[n]? = some f.symbol)
      (hmove : (⟨fs⟩ : Stack g).state.row.move? f.symbol = some f.state) :
      Viable g (f :: fs) p (n + 1)
  | begin {fs : List Frame} {p p' : Production} {n : Nat} (h : Viable g fs p n)
      (hs : p.rhs[n]? = some (.phrase p'.lhs)) : Viable g fs p' 0

end Stack

namespace State

variable {q q' : State} {s : Symbol}

/-- What a move leads to. -/
theorem leads_of_move? (h : q.row.move? s = some q') :
    2 ≤ q' ∧ q' < Table.rows.length ∧ (∀ i ∈ q'.row.items, q.leadsTo s i = true) ∧
      ∀ t, s = .token t → q'.row.items ≠ [] := by
  obtain ⟨l₁, l₂, hl, -⟩ := List.lookup_eq_some_iff.1 h
  have hmem : (s, q') ∈ q.row.moves := by
    rw [hl]
    simp
  have hq : q.leadsOn = true := by
    by_cases hlt : q < Table.rows.length
    · exact List.all_eq_true.1 leadsOn_all q (List.mem_range.2 hlt)
    · have hrow : q.row = ⟨[], []⟩ := by
        rw [row, List.getElem?_eq_none (Nat.le_of_not_lt hlt)]
        rfl
      rw [hrow] at hmem
      exact absurd hmem (by simp)
  have hmove := List.all_eq_true.1 hq _ hmem
  simp only [Bool.and_eq_true, List.all_eq_true] at hmove
  obtain ⟨⟨⟨hle, hlt⟩, hitems⟩, hwords⟩ := hmove
  refine ⟨Nat.le_of_ble_eq_true hle, Nat.le_of_ble_eq_true hlt, hitems, ?_⟩
  rintro t rfl hnil
  rw [hnil] at hwords
  exact absurd hwords (by simp)

end State

namespace Stack

variable {g : Goal}

/-- The lower frames of a stack lie on each other as the moves lead. -/
theorem Linked.drop {fs : List Frame} (h : Linked g fs) (n : Nat) : Linked g (fs.drop n) := by
  induction n generalizing fs with
  | zero => exact h
  | succ n ih =>
    cases fs with
    | nil => exact h
    | cons f fs => exact ih h.2

/-- What is pushed lies on the stack as the moves lead. -/
theorem Linked.push? {k k' : Stack g} {s : Symbol} {d : Derivation s} (hk : Linked g k.frames)
    (h : k.push? d = some k') : Linked g k'.frames := by
  obtain ⟨q, hmove, hframes⟩ := push?_eq_some h
  rw [hframes]
  exact ⟨hmove, hk⟩

/-- A settled stack is linked as before. -/
theorem Linked.settles {k k' : Stack g} {a : Lookahead} (hk : Linked g k.frames)
    (h : Settles a k k') : Linked g k'.frames := by
  induction h with
  | refl => exact hk
  | tail _ hreduces ih =>
    obtain ⟨p, -, hreduce⟩ := hreduces
    obtain ⟨fs, ds, rest, hframes, -, hpush⟩ := reduce?_eq_some hreduce
    have hrest : Linked g rest := by
      have hdrop := ih.drop fs.length
      rwa [hframes, List.drop_left] at hdrop
    exact Linked.push? (k := ⟨rest⟩) hrest hpush

/-- Where all ways to build a phrase are viable, so are those of the phrases it can begin with. -/
theorem viable_of_corner {fs : List Frame} {n k : Nonterminal} (hn : n.Corner k)
    (h : ∀ p : Production, p.lhs = n → Viable g fs p 0) :
    ∀ p : Production, p.lhs = k → Viable g fs p 0 := by
  induction hn with
  | refl n => exact h
  | @step p' n k hhead _ ih =>
    refine ih fun p hp => (h p' rfl).begin ?_
    rw [← List.head?_eq_getElem?, hhead, hp]

/-- On frames that lie on each other as the moves lead, all items of the state on top are viable. -/
theorem viable_of_mem_items {fs : List Frame} (hfs : Linked g fs) :
    ∀ i ∈ (⟨fs⟩ : Stack g).state.row.items, Viable g fs i.production i.done := by
  induction fs with
  | nil =>
    have hstart : (g.start.row.items.all fun i =>
        i.production.lhs == g.phrase && i.done == 0) = true := by
      cases g <;> decide
    intro i hi
    have hitem := List.all_eq_true.1 hstart i hi
    simp only [Bool.and_eq_true, beq_iff_eq] at hitem
    rw [hitem.2]
    exact .start hitem.1
  | cons f fs ih =>
    obtain ⟨hmove, hfs'⟩ := hfs
    obtain ⟨-, -, hitems, -⟩ := State.leads_of_move? hmove
    intro i hi
    have hleads := hitems i hi
    unfold State.leadsTo at hleads
    split at hleads
    · exact absurd hleads (by simp)
    · next n hn =>
      simp only [Bool.and_eq_true, Bool.or_eq_true, beq_iff_eq, List.any_eq_true] at hleads
      obtain ⟨hs, ⟨j, hj, hproduction, hdone⟩ | ⟨rfl, k, hk, hcorner⟩⟩ := hleads
      · -- the item is read one symbol further
        have hviable := ih hfs' j hj
        rw [hproduction, hdone] at hviable
        rw [hn]
        exact hviable.read hs hmove
      · -- the item begins here, because a phrase comes next that can begin with its phrase
        have hnext : ∀ p : Production, p.lhs = k → Viable g fs p 0 := by
          intro p hp
          rcases List.mem_append.1 hk with hstart | hitem
          · cases fs with
            | nil =>
              refine .start (hp.trans ?_)
              cases g with
              | program => exact List.mem_singleton.1 hstart
              | typeText => exact List.mem_singleton.1 hstart
            | cons f' fs' =>
              obtain ⟨hle, -, -, -⟩ := State.leads_of_move? hfs'.1
              have hstate : (⟨f' :: fs'⟩ : Stack g).state = f'.state := rfl
              rw [hstate] at hstart
              split at hstart
              · next hzero =>
                rw [hzero] at hle
                exact absurd hle (by decide)
              · next hone =>
                rw [hone] at hle
                exact absurd hle (by decide)
              · exact absurd hstart (by simp)
          · obtain ⟨j, hj, hphrase⟩ := List.mem_filterMap.1 hitem
            split at hphrase
            · next n' ss hn' =>
              obtain rfl := Option.some.inj hphrase
              refine (ih hfs' j hj).begin ?_
              rw [← List.head?_drop, hn', hp]
              rfl
            · exact absurd hphrase (by simp)
        rw [hn]
        refine Viable.read ?_ hs hmove
        exact viable_of_corner (Nonterminal.corner_of_testBit hcorner) hnext _ rfl

/-- The state on frames that lie on each other as the moves lead is in the table. -/
theorem Linked.state_lt {fs : List Frame} (hfs : Linked g fs) :
    (⟨fs⟩ : Stack g).state < Table.rows.length := by
  cases fs with
  | nil => cases g <;> decide +kernel
  | cons f fs => exact (State.leads_of_move? hfs.1).2.1

/-- The symbols of a viable production that have been read lie on top, and what lies below them
could begin with it. -/
theorem Viable.exists_frames {fs : List Frame} {p : Production} {n : Nat} (h : Viable g fs p n) :
    ∃ top rest, fs = top ++ rest ∧ top.reverse.map Frame.symbol = p.rhs.take n ∧
      Viable g rest p 0 := by
  induction h with
  | start h => exact ⟨[], [], rfl, rfl, .start h⟩
  | @begin fs p p' n h hs _ => exact ⟨[], fs, rfl, rfl, h.begin hs⟩
  | @read f fs p n _ hs _ ih =>
    obtain ⟨top, rest, rfl, htop, hrest⟩ := ih
    refine ⟨f :: top, rest, rfl, ?_, hrest⟩
    rw [List.reverse_cons, List.map_append, htop, List.take_add_one, hs]
    rfl

/-- On frames that lie on each other as the moves lead, with a word on top or nothing at all, some
production is viable. -/
theorem exists_viable {fs : List Frame} (hfs : Linked g fs)
    (htop : ∀ f ∈ fs.head?, ∃ t, f.symbol = .token t) : ∃ p n, Viable g fs p n := by
  cases fs with
  | nil =>
    cases g with
    | program => exact ⟨.programEmpty, 0, .start rfl⟩
    | typeText => exact ⟨.typeText, 0, .start rfl⟩
  | cons f fs =>
    obtain ⟨t, ht⟩ := htop f rfl
    obtain ⟨-, -, -, hwords⟩ := State.leads_of_move? hfs.1
    obtain ⟨i, is, hi⟩ := List.exists_cons_of_ne_nil (hwords t ht)
    have hstate : (⟨f :: fs⟩ : Stack g).state = f.state := rfl
    have hmem : i ∈ (⟨f :: fs⟩ : Stack g).state.row.items := by
      rw [hstate, hi]
      exact List.mem_cons_self
    exact ⟨i.production, i.done, viable_of_mem_items hfs i hmem⟩

end Stack

end CadenceEntry.Grammar
