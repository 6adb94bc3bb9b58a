import CadenceEntry.Configuration.Loader
import CadenceEntry.Proofs.Text.Decoding

/-!
# Files that are decoded part by part

A loader that stops at a part that is no text stops in a file that is none
(`Loader.not_text_of_load`), and a loader that asks for all parts is given the whole text or stops
so (`Loader.loadFrom_of_patient`).
-/

set_option autoImplicit false

namespace CadenceEntry

namespace Loader

open Text.Utf8 (decode decodePart decoded?)

/-- A loader that stops at a part that is no text stops in a file that is none. -/
theorem decoded?_of_loadFrom {l : Loader} {parts : List (List Char)} {pending bytes : List UInt8}
    {e : Text.Utf8.DecodeError} (h : l.loadFrom parts pending bytes = .error e) :
    decoded? (pending ++ bytes) = none := by
  fun_induction loadFrom l parts pending bytes with
  | case1 => cases h
  | case2 parts pending hearly =>
    rw [List.append_nil]
    cases hdecode : decode pending with
    | error e' => rw [decoded?, hdecode]; rfl
    | ok cs =>
      rw [hdecode] at h
      cases h
  | case3 parts pending bytes hearly hbytes size e' hpart =>
    rw [← List.take_append_drop size bytes, ← List.append_assoc]
    exact Text.Utf8.decoded?_append_of_error hpart _
  | case4 parts pending bytes hearly hbytes size cs pending' hpart ih =>
    -- what is left open behind this part is read on with the next one
    rw [← List.take_append_drop size bytes, ← List.append_assoc,
      Text.Utf8.decoded?_append hpart, ih h]
    rfl

/-- A loader that asks for all parts is given the whole text, or it stops at a part that is no
text. -/
theorem loadFrom_of_patient {l : Loader} (hpatient : ∀ parts, l.early? parts = none)
    (parts : List (List Char)) (pending bytes : List UInt8) :
    match decoded? (pending ++ bytes) with
    | none => ∃ e, l.loadFrom parts pending bytes = .error e
    | some cs => ∃ parts', parts'.flatten = parts.flatten ++ cs ∧
        l.loadFrom parts pending bytes = .ok (l.final parts') := by
  fun_induction loadFrom l parts pending bytes with
  | case1 parts pending bytes result hearly =>
    rw [hpatient] at hearly
    cases hearly
  | case2 parts pending hearly =>
    rw [List.append_nil]
    unfold decoded?
    cases decode pending with
    | error e => exact ⟨e, rfl⟩
    | ok cs => exact ⟨parts ++ [cs], by simp, rfl⟩
  | case3 parts pending bytes hearly hbytes size e hpart =>
    rw [← List.take_append_drop size bytes, ← List.append_assoc,
      Text.Utf8.decoded?_append_of_error hpart]
    exact ⟨e, rfl⟩
  | case4 parts pending bytes hearly hbytes size cs pending' hpart ih =>
    have hsplit : pending ++ bytes = pending ++ bytes.take size ++ bytes.drop size := by
      rw [List.append_assoc, List.take_append_drop]
    rw [hsplit, Text.Utf8.decoded?_append hpart]
    cases hrest : decoded? (pending' ++ bytes.drop size) with
    | none =>
      rw [hrest] at ih
      exact ih
    | some cs' =>
      rw [hrest] at ih
      obtain ⟨parts', hparts', hload⟩ := ih
      exact ⟨parts', by simpa using hparts', hload⟩

/-- A loader that finds a part that is no text has been given a file that is none. -/
theorem not_text_of_load {l : Loader} {bytes : List UInt8} {e : Text.Utf8.DecodeError}
    (h : l.load bytes = .error e) : ∃ e', decode bytes = .error e' := by
  have hnone := decoded?_of_loadFrom h
  unfold decoded? at hnone
  cases hdecode : decode ([] ++ bytes) with
  | error e' => exact ⟨e', hdecode⟩
  | ok cs =>
    rw [hdecode] at hnone
    cases hnone

/-- A loader that asks for all parts of a file that is no text finds one that is none. -/
theorem load_of_not_text {l : Loader} (hpatient : ∀ parts, l.early? parts = none)
    {bytes : List UInt8} {e : Text.Utf8.DecodeError} (h : decode bytes = .error e) :
    ∃ e', l.load bytes = .error e' := by
  have hload := loadFrom_of_patient hpatient [] [] bytes
  have hnone : decoded? ([] ++ bytes) = none := by
    rw [List.nil_append, decoded?, h]
    rfl
  rwa [hnone] at hload

end Loader

end CadenceEntry
