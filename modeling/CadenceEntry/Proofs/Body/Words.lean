import CadenceEntry.Proofs.Body.Scan

/-!
# The words of a body

Inside a body every state looks for the same words: braces, string literals and other text. So what
is found next does not depend on the state there, and the scan of a body goes on with it.
-/

set_option autoImplicit false

namespace CadenceEntry

open Grammar

namespace Grammar

/-- The words that a body consists of. -/
def Terminal.bodyWords : List Terminal := [.leftBrace, .rightBrace, .statement, .string]

/-- The states between the opening and the closing brace of a body. -/
def State.bodyStates : List State := [179, 180, 183, 184, 185, 186, 187, 188, 189, 190, 191]

/-- Inside a body the words of a body are admitted. -/
theorem State.admits_of_mem_bodyStates {q : State} (hq : q ∈ bodyStates) (t : Terminal) :
    q.admits (.word t) = Terminal.bodyWords.contains t := by
  have hall : (bodyStates.all fun q => Terminal.all.all fun t =>
      q.admits (.word t) == Terminal.bodyWords.contains t) = true := by
    decide +kernel
  exact beq_iff_eq.1 (List.all_eq_true.1 (List.all_eq_true.1 hall q hq) t t.mem_all)

/-- Inside a body, the words of a body and what separates them are looked for. -/
theorem State.sought_of_mem_bodyStates {q : State} (hq : q ∈ bodyStates) :
    q.wordClasses = WordClass.inBody ∧ q.fixedWords = [.leftBrace, .rightBrace] := by
  have hall : (bodyStates.all fun q => q.wordClasses == WordClass.inBody &&
      q.fixedWords == [.leftBrace, .rightBrace]) = true := by
    decide
  have hsought := List.all_eq_true.1 hall q hq
  rw [Bool.and_eq_true, beq_iff_eq, beq_iff_eq] at hsought
  exact hsought

end Grammar

/-- What stands next inside a body, and how a scan goes on with it. -/
inductive BodyPiece (q : State) (cs : List Char) : Prop
  | gap (n : Nat) (hnext : Piece.next? q cs = some (.gap n))
      (hscan : ∀ depth, ScansTo .code depth cs n)
  | item (t : Terminal) (n : Nat) (ht : t = .string ∨ t = .statement)
      (hnext : Piece.next? q cs = some (.word t n)) (hscan : ∀ depth, ScansTo .code depth cs n)
  | opening (cs' : List Char) (hcs : cs = '\x7b' :: cs')
      (hnext : Piece.next? q cs = some (.word .leftBrace 1))
  | closing (cs' : List Char) (hcs : cs = '\x7d' :: cs')
      (hnext : Piece.next? q cs = some (.word .rightBrace 1))
  | stuck (hnext : Piece.next? q cs = none) (hscan : ∀ depth, scanBody .code depth cs = none)

/-- Inside a body one of these stands next, if anything does. -/
theorem bodyPiece_of_cons {q : State} (hq : q ∈ State.bodyStates) (x : Char) (cs : List Char) :
    BodyPiece q (x :: cs) := by
  obtain ⟨hclasses, hfixed⟩ := State.sought_of_mem_bodyStates hq
  by_cases hnone : ∀ c ∈ WordClass.inBody, c.length? (x :: cs) = none
  · have hnext := Piece.next?_of_no_class (q := q) (by rw [hclasses]; exact hnone)
    rw [hfixed] at hnext
    by_cases hopen : x = '\x7b'
    · subst hopen
      exact .opening cs rfl hnext
    by_cases hclose : x = '\x7d'
    · subst hclose
      exact .closing cs rfl hnext
    refine .stuck ?_ fun depth => scanBody_eq_none depth ⟨hopen, hclose⟩ hnone
    cases hspelling : Piece.ofSpelling? [Terminal.leftBrace, .rightBrace] (x :: cs) with
    | none => rw [hnext, hspelling]
    | some p =>
      obtain ⟨t, ht, w, hw, ⟨rest, hrest⟩, -⟩ := Piece.exists_of_ofSpelling? hspelling
      have hbrace : t = .leftBrace ∨ t = .rightBrace := by simpa using ht
      rcases hbrace with rfl | rfl
      · obtain rfl : ['\x7b'] = w := Option.some.inj hw
        exact absurd (List.cons.inj hrest).1.symm hopen
      · obtain rfl : ['\x7d'] = w := Option.some.inj hw
        exact absurd (List.cons.inj hrest).1.symm hclose
  · rw [not_forall] at hnone
    obtain ⟨c, hc⟩ := hnone
    rw [Classical.not_imp] at hc
    obtain ⟨hc, hlength⟩ := hc
    obtain ⟨n, hn⟩ := Option.ne_none_iff_exists'.1 hlength
    have hnext := Piece.next?_of_class (q := q) (by rw [hclasses]; exact hc) hn
    have hscan := fun depth => scansTo_of_length? depth hc hn
    obtain ⟨hle, htake⟩ := WordClass.length?_take hn
    have hwidth : ((x :: cs).take n).length = n := List.length_take_of_le hle
    have hword : ∀ t, t = .string ∨ t = .statement → t.class? = some c →
        Piece.next? q (x :: cs) = some (.word t n) := by
      intro t ht hclass
      have hadmits : q.admits (.word t) = true := by
        rw [State.admits_of_mem_bodyStates hq]
        rcases ht with rfl | rfl <;> decide
      have hreserves : q.reserves ((x :: cs).take n) = false := by
        refine State.reserves_of_class hclass ?_ hadmits (by rw [htake, hwidth])
        rcases ht with rfl | rfl <;> decide
      rw [hnext, Piece.ofClass, Terminal.class?_eq_some_iff.1 hclass]
      dsimp only
      rw [hwidth, State.classify_of_not_reserves hreserves]
    have hgap : c.terminal? = none → Piece.next? q (x :: cs) = some (.gap n) := by
      intro hterminal
      rw [hnext, Piece.ofClass, hterminal]
      dsimp only
      rw [hwidth]
    cases c
    case statement => exact .item .statement n (.inr rfl) (hword _ (.inr rfl) rfl) hscan
    case string => exact .item .string n (.inl rfl) (hword _ (.inl rfl) rfl) hscan
    case blockComment => exact .gap n (hgap rfl) hscan
    case blanks => exact .gap n (hgap rfl) hscan
    case lineComment => exact .gap n (hgap rfl) hscan
    all_goals exact absurd hc (by decide)

end CadenceEntry
