import CadenceEntry.Number.IntegerLiteral
import CadenceEntry.Proofs.Source.WordClass

/-!
# The value of an integer literal

A decimal text is read with a sign in front of it, but an integer literal begins with a digit, and
neither underscores nor white space are before it. So the value of a literal is never negative.
-/

set_option autoImplicit false

namespace CadenceEntry

namespace Number

/-- A decimal digit is no white space. -/
theorem not_isMargin_of_isDigit {c : Char} (hc : c.isDigit = true) : isMargin c = false := by
  rw [WordClass.isDigit_iff] at hc
  simp [isMargin, Text.isBlank]
  omega

/-- White space at the end of a text does not reach a character that is none. -/
theorem exists_trimEnd_cons {c : Char} (hc : isMargin c = false) (cs : List Char) :
    ∃ ds, trimEnd (c :: cs) = c :: ds := by
  unfold trimEnd
  rw [List.reverse_cons, List.dropWhile_append]
  split
  · exact ⟨[], by simp [hc]⟩
  · exact ⟨_, List.reverse_append.trans rfl⟩

/-- A text that begins with a digit is not the text of a negative number. -/
theorem ofDecimal_nonneg {c : Char} {cs : List Char} {v : Int} (hc : c.isDigit = true)
    (h : ofDecimal (c :: cs) = .ok v) : 0 ≤ v := by
  have hmargin := not_isMargin_of_isDigit hc
  obtain ⟨ds, hds⟩ := exists_trimEnd_cons hmargin cs
  have htrim : trim (c :: cs) = c :: ds := by
    rw [trim, List.dropWhile_cons_of_neg (by simp [hmargin]), hds]
  have hsign : sign (c :: ds) = (false, c :: ds) := by
    unfold sign
    split
    · next heq =>
      obtain ⟨rfl, -⟩ := List.cons.inj heq
      exact absurd hc (by decide)
    · next heq =>
      obtain ⟨rfl, -⟩ := List.cons.inj heq
      exact absurd hc (by decide)
    · rfl
  unfold ofDecimal at h
  rw [htrim, hsign] at h
  dsimp only at h
  split at h
  · cases h
  · split at h
    · cases h
    · split at h
      · cases h
      · rw [← Except.ok.inj h]
        exact Int.natCast_nonneg _

/-- The value of an integer literal is not negative. -/
theorem IntegerLiteral.value?_nonneg {cs : List Char} {v : Int}
    (hcs : WordClass.integerLength? cs = some cs.length) (h : value? cs = some v) : 0 ≤ v := by
  obtain ⟨c, ds, rfl, hc⟩ : ∃ c ds, cs = c :: ds ∧ c.isDigit = true := by
    rcases WordClass.integerLength?_eq_some hcs with ⟨m, ds, p, k, rfl, -⟩ | ⟨c, ds, rfl, hc, -⟩
    · exact ⟨'0', m :: ds, rfl, by decide⟩
    · exact ⟨c, ds, rfl, hc⟩
  have hkept : (c != '_') = true := by
    rw [bne_iff_ne]
    rintro rfl
    exact absurd hc (by decide)
  have hdecimal : ∀ ds, (ofDecimal (c :: ds)).toOption = some v → 0 ≤ v := by
    intro ds hds
    cases hvalue : ofDecimal (c :: ds) with
    | error e =>
      rw [hvalue] at hds
      cases hds
    | ok v' =>
      rw [hvalue] at hds
      cases hds
      exact ofDecimal_nonneg hc hvalue
  have hfilter : (c :: ds).filter (· != '_') = c :: ds.filter (· != '_') := by
    simp [hkept]
  unfold value? at h
  rw [hfilter] at h
  split at h
  · next m ds' heq =>
    split at h
    · obtain ⟨n, -, rfl⟩ := Option.map_eq_some_iff.1 h
      exact Int.natCast_nonneg n
    · rw [← heq] at h
      exact hdecimal _ h
  · exact hdecimal _ h

end Number

end CadenceEntry
