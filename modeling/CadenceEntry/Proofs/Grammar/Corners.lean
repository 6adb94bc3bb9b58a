import CadenceEntry.Proofs.Grammar.Closure

/-!
# What phrases can begin with

A phrase can begin with another phrase if it is that phrase, or if one of its productions begins
with a phrase that can. `Nonterminal.corners` finds the phrases that a phrase can begin with as a
set of bits, and nothing else: `Nonterminal.corner_of_testBit`.
-/

set_option autoImplicit false

namespace CadenceEntry.Grammar

/-- Where the phrase `n` can begin, the phrase `k` can begin: it is `n`, or it comes first in a
phrase that a production of `n` begins with. -/
inductive Nonterminal.Corner : Nonterminal → Nonterminal → Prop
  | refl (n : Nonterminal) : Corner n n
  | step {p : Production} {n k : Nonterminal} (hhead : p.rhs.head? = some (.phrase n))
    (h : Corner n k) : Corner p.lhs k

/-- The phrases that can begin where `n` can begin, one bit for each, as far as `depth` phrases
within each other tell. -/
def Nonterminal.cornersWithin : Nat → Nonterminal → Nat
  | 0, n => 2 ^ n.ctorIdx
  | depth + 1, n =>
    n.productions.foldr (fun p m =>
      match p.rhs with
      | .phrase k :: _ => if k == n then m else Nat.lor (cornersWithin depth k) m
      | _ => m) (2 ^ n.ctorIdx)

/-- The phrases that can begin where `n` can begin, one bit for each. -/
def Nonterminal.corners (n : Nonterminal) : Nat := n.cornersWithin 12

/-- A phrase stands in the list of all phrases at its number. -/
theorem Nonterminal.all_getElem? (n : Nonterminal) : Nonterminal.all[n.ctorIdx]? = some n := by
  cases n <;> rfl

/-- Phrases with the same bit are the same. -/
theorem Nonterminal.testBit_ctorIdx {n k : Nonterminal}
    (h : Nat.testBit (2 ^ n.ctorIdx) k.ctorIdx = true) : n = k := by
  rw [Nat.testBit_two_pow, decide_eq_true_eq] at h
  have hn := n.all_getElem?
  rw [h, k.all_getElem?] at hn
  exact (Option.some.inj hn).symm

/-- What is found can begin there. -/
theorem Nonterminal.corner_of_testBit {depth : Nat} {n k : Nonterminal}
    (h : Nat.testBit (n.cornersWithin depth) k.ctorIdx = true) : n.Corner k := by
  induction depth generalizing n with
  | zero =>
    obtain rfl := testBit_ctorIdx h
    exact .refl n
  | succ depth ih =>
    have hfold : ∀ ps : List Production, (∀ p ∈ ps, p.lhs = n) →
        Nat.testBit (ps.foldr (fun p m =>
          match p.rhs with
          | .phrase k :: _ => if k == n then m else Nat.lor (cornersWithin depth k) m
          | _ => m) (2 ^ n.ctorIdx)) k.ctorIdx = true → n.Corner k := by
      intro ps hps
      induction ps with
      | nil =>
        intro h
        obtain rfl := testBit_ctorIdx h
        exact .refl n
      | cons p ps ihps =>
        have hrest := ihps fun p' hp' => hps p' (List.mem_cons_of_mem _ hp')
        intro h
        rw [List.foldr_cons] at h
        split at h
        · next k' ss hrhs =>
          split at h
          · exact hrest h
          · have hor := (Nat.testBit_or _ _ _).symm.trans h
            rcases Bool.or_eq_true_iff.1 hor with hk | hk
            · have hhead : p.rhs.head? = some (.phrase k') := by
                rw [hrhs]
                rfl
              rw [← hps p List.mem_cons_self]
              exact .step hhead (ih hk)
            · exact hrest hk
        · exact hrest h
    refine hfold n.productions (fun p hp => ?_) h
    exact beq_iff_eq.1 (List.mem_filter.1 hp).2

end CadenceEntry.Grammar
