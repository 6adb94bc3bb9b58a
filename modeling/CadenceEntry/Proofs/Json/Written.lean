import CadenceEntry.Proofs.Json.Writing

/-!
# Documents for a value

A document for a value spells it and nothing else; every reader that follows the grammar of JSON
gets the value back, whatever the indent is. A plain object is written as a document for it exactly
if the indent is a number of the machine and no integer in it is too long: `Plain.written_write`.
-/

set_option autoImplicit false

namespace CadenceEntry.Json

/-- A text is a document for a value: it spells the value and nothing else, a reader gives the value
back, and it is written in ASCII and on one line unless there is an indent. -/
structure Faithful (indent : Option Int) (v : Json) (s : String) : Prop where
  spells : Spells s.toList (.element v)
  unique : ∀ v', Spells s.toList (.element v') → v' = v
  read_eq : ∀ read, Reads read → read s = some v
  isAscii : ∀ c ∈ s.toList, c.toNat < 0x80
  oneLine : indent = none → '\n' ∉ s.toList

/-- What is written of a plain document is a document for it. -/
theorem Plain.faithful_written {v : Json} (h : Plain v) (indent : Option Int) :
    Faithful indent v (String.ofList (written indent 0 v)) := by
  have hspells : Spells (String.ofList (written indent 0 v)).toList (.element v) := by
    have helement := Spells.element Gap.nil (h.spells_written indent 0) Gap.nil
    rw [String.toList_ofList]
    rwa [List.nil_append, List.append_nil] at helement
  have hwritten : IsWritten indent (String.ofList (written indent 0 v)).toList := by
    rw [String.toList_ofList]
    exact h.isWritten indent 0
  refine ⟨hspells, fun v' => hspells.unique, fun read hread => hread.read_eq hspells, ?_, ?_⟩
  · intro c hc
    rcases hwritten c hc with hprintable | ⟨rfl, -⟩
    · simp only [isPrintable, Bool.and_eq_true, decide_eq_true_eq] at hprintable
      omega
    · decide
  · intro hnone hc
    rcases hwritten '\n' hc with hprintable | ⟨-, hsome⟩
    · exact absurd hprintable (by decide)
    · exact hsome hnone

/-- The spaces of a level of the indent can be counted by a number of the machine. -/
def IndentInRange (indent : Option Int) : Prop :=
  ∀ n ∈ indent, -0x8000000000000000 ≤ n ∧ n < 0x8000000000000000

/-- No integer in a document has more digits than a decimal text may have. -/
def IntegersFit (v : Json) : Prop :=
  ∀ n ∈ v.integers, n.natAbs < Nat.pow 10 Number.maxDecimalDigits

/-- What writing a document comes to. -/
inductive Written (indent : Option Int) (v : Json) : Except WritingFault String → Prop
  | document {s : String} (hindent : IndentInRange indent) (hintegers : v.IntegersFit)
      (h : Faithful indent v s) : Written indent v (.ok s)
  | indentOutOfRange (h : ¬ IndentInRange indent) : Written indent v (.error .indentOutOfRange)
  | integerTooLong (hindent : IndentInRange indent) (h : ¬ v.IntegersFit) :
      Written indent v (.error .integerTooLong)

/-- The writer checks whether the indent is a number of the machine. -/
theorem all_isIndent_iff (indent : Option Int) :
    indent.all isIndent = true ↔ IndentInRange indent := by
  cases indent <;> simp [IndentInRange, isIndent]

/-- The writer checks whether the integers fit. -/
theorem all_hasDecimal_iff (v : Json) :
    v.integers.all Number.hasDecimal = true ↔ v.IntegersFit := by
  simp only [List.all_eq_true, IntegersFit, Number.hasDecimal, decide_eq_true_eq]

/-- A plain object is written as a document for it unless the indent or an integer is in the way;
the indent is looked at first. -/
theorem Plain.written_write {ms : List (String × Json)} (h : Plain (.object ms))
    (indent : Option Int) : Written indent (.object ms) (write indent (.object ms)) := by
  unfold write
  dsimp only
  by_cases hindent : IndentInRange indent
  · rw [if_pos ((all_isIndent_iff indent).2 hindent)]
    by_cases hintegers : (Json.object ms).IntegersFit
    · rw [if_pos ((all_hasDecimal_iff _).2 hintegers)]
      exact .document hindent hintegers (h.faithful_written indent)
    · rw [if_neg (mt (all_hasDecimal_iff _).1 hintegers)]
      exact .integerTooLong hindent hintegers
  · rw [if_neg (mt (all_isIndent_iff indent).1 hindent)]
    exact .indentOutOfRange hindent

end CadenceEntry.Json
