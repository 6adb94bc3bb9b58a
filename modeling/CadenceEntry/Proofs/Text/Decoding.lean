import CadenceEntry.Text.Utf8
import Mathlib.Tactic.Common

/-!
# Texts that are decoded part by part

Bytes are a text part by part exactly if they are one as a whole: what is left open at the end of a
part is read on with the next (`decoded?_append`), and a part that is read to a fault is no part of
a text (`decoded?_append_of_error`).
-/

set_option autoImplicit false

namespace CadenceEntry.Text.Utf8

/-- The characters of some bytes and the bytes of a character that is open at the end, without the
place of a fault. -/
def read? (o? : Option Open) (bytes : List UInt8) : Option (List Char × List UInt8) :=
  (decodeFrom 0 o? bytes).toOption

/-- The text that some bytes are, without the place of a fault. -/
def decoded? (bytes : List UInt8) : Option (List Char) := (decode bytes).toOption

/-- What is made of what is read does not matter to a fault. -/
theorem toOption_map {ε α β : Type} (f : α → β) (x : Except ε α) :
    (x.map f).toOption = x.toOption.map f := by
  cases x <;> rfl

/-- Where bytes stand shows in the place of a fault only. -/
theorem toOption_decodeFrom (position : Nat) (o? : Option Open) (bytes : List UInt8) :
    (decodeFrom position o? bytes).toOption = read? o? bytes := by
  suffices h : ∀ p q, (decodeFrom p o? bytes).toOption = (decodeFrom q o? bytes).toOption from
    h position 0
  induction bytes generalizing o? with
  | nil => exact fun _ _ => rfl
  | cons b bs ih =>
    intro p q
    unfold decodeFrom
    cases o? with
    | none =>
      dsimp only
      split
      · rw [toOption_map, toOption_map, ih]
      · cases opened? b with
        | none => rfl
        | some o => exact ih _ _ _
    | some o =>
      dsimp only
      split
      · split
        · rw [toOption_map, toOption_map, ih]
        · exact ih _ _ _
      · rfl

/-- No bytes are read as nothing. -/
theorem read?_nil (o? : Option Open) : read? o? [] = some ([], (o?.map Open.bytes).getD []) := rfl

/-- The first byte of a character is the character, or it opens one. -/
theorem read?_none_cons (b : UInt8) (bs : List UInt8) :
    read? none (b :: bs) =
      if b.toNat < 0x80 then (read? none bs).map fun r => (Char.ofNat b.toNat :: r.1, r.2)
      else (opened? b).bind fun o => read? (some o) bs := by
  rw [← toOption_decodeFrom 0, decodeFrom]
  split
  · rw [toOption_map, toOption_decodeFrom]
  · cases opened? b with
    | none => rfl
    | some o => exact toOption_decodeFrom _ _ _

/-- A further byte of a character completes it, or it leaves it open. -/
theorem read?_some_cons (o : Open) (b : UInt8) (bs : List UInt8) :
    read? (some o) (b :: bs) =
      if o.low ≤ b.toNat ∧ b.toNat ≤ o.high then
        let value := o.value * 64 + (b.toNat - 0x80)
        if o.missing = 1 then (read? none bs).map fun r => (Char.ofNat value :: r.1, r.2)
        else read? (some ⟨o.bytes ++ [b], value, o.missing - 1, 0x80, 0xbf⟩) bs
      else none := by
  rw [← toOption_decodeFrom 0, decodeFrom]
  dsimp only
  split
  · split
    · rw [toOption_map, toOption_decodeFrom]
    · exact toOption_decodeFrom _ _ _
  · rfl

/-- Reading the bytes of an open character leads to it. -/
def Open.Reached (o : Open) : Prop := ∀ more, read? none (o.bytes ++ more) = read? (some o) more

/-- The first byte of a character leads to what it opens. -/
theorem reached_of_opened? {b : UInt8} {o : Open} (hb : ¬ b.toNat < 0x80)
    (h : opened? b = some o) : o.Reached := by
  have hbytes : o.bytes = [b] := by
    unfold opened? at h
    dsimp only at h
    split_ifs at h <;> cases h <;> rfl
  intro more
  rw [hbytes, List.singleton_append, read?_none_cons, if_neg hb, h]
  rfl

/-- A further byte leads to the character that it leaves open. -/
theorem Open.Reached.next {o : Open} (ho : o.Reached) {b : UInt8}
    (hb : o.low ≤ b.toNat ∧ b.toNat ≤ o.high) (hmissing : o.missing ≠ 1) :
    Open.Reached ⟨o.bytes ++ [b], o.value * 64 + (b.toNat - 0x80), o.missing - 1, 0x80, 0xbf⟩ := by
  intro more
  rw [List.append_assoc, ho, List.singleton_append, read?_some_cons, if_pos hb]
  dsimp only
  rw [if_neg hmissing]

/-- Bytes are read on from what is left open by the bytes before them. -/
theorem read?_append {o? : Option Open} (ho : ∀ o ∈ o?, o.Reached) (bs more : List UInt8) :
    read? o? (bs ++ more) = (read? o? bs).bind fun r =>
      (read? none (r.2 ++ more)).map fun r' => (r.1 ++ r'.1, r'.2) := by
  have hcons : ∀ (c : Char) (x : Option (List Char × List UInt8)),
      ((x.bind fun r => (read? none (r.2 ++ more)).map fun r' => (r.1 ++ r'.1, r'.2)).map
          fun r => (c :: r.1, r.2)) =
        (x.map fun r => (c :: r.1, r.2)).bind fun r =>
          (read? none (r.2 ++ more)).map fun r' => (r.1 ++ r'.1, r'.2) := by
    intro c x
    cases x with
    | none => rfl
    | some r => simp [Function.comp_def]
  induction bs generalizing o? with
  | nil =>
    rw [List.nil_append, read?_nil]
    cases o? with
    | none => simp
    | some o => simp [ho o rfl more]
  | cons b bs ih =>
    rw [List.cons_append]
    cases o? with
    | none =>
      rw [read?_none_cons, read?_none_cons]
      split
      · rw [ih (by simp), hcons]
      · next hb =>
        cases hopened : opened? b with
        | none => rfl
        | some o =>
          refine ih fun o' ho' => ?_
          obtain rfl := Option.some.inj ho'
          exact reached_of_opened? hb hopened
    | some o =>
      rw [read?_some_cons, read?_some_cons]
      dsimp only
      split
      · next hb =>
        split
        · rw [ih (by simp), hcons]
        · next hmissing =>
          refine ih fun o' ho' => ?_
          obtain rfl := Option.some.inj ho'
          exact (ho o rfl).next hb hmissing
      · rfl

/-- Bytes are a text if no character is open at their end. -/
theorem decoded?_eq (bytes : List UInt8) :
    decoded? bytes = (read? none bytes).bind fun r => if r.2 = [] then some r.1 else none := by
  unfold decoded? decode read?
  cases decodeFrom 0 none bytes with
  | error e => rfl
  | ok r =>
    obtain ⟨cs, pending⟩ := r
    cases pending <;> rfl

/-- Bytes that are read to a fault are no beginning of a text. -/
theorem decoded?_append_of_read? {bs : List UInt8} (h : read? none bs = none)
    (more : List UInt8) : decoded? (bs ++ more) = none := by
  rw [decoded?_eq, read?_append (by simp), h]
  rfl

/-- What is read of a part is the beginning of a text, if what is left open and the bytes behind the
part are its rest. -/
theorem decoded?_append {bs pending : List UInt8} {cs : List Char}
    (h : decodePart bs = .ok (cs, pending)) (more : List UInt8) :
    decoded? (bs ++ more) = (decoded? (pending ++ more)).map (cs ++ ·) := by
  unfold decodePart at h
  split at h
  · next p hdecode =>
    -- half of a surrogate pair is no character, whatever comes
    have hfault : read? none bs = none := by
      rw [read?, hdecode]
      rfl
    split at h
    · next b hdrop =>
      split at h
      · next hb =>
        have hpending : pending = [0xed, b] := by
          cases hbefore : decodeFrom 0 none (bs.take p) with
          | error e =>
            rw [hbefore] at h
            cases h
          | ok r =>
            rw [hbefore] at h
            cases h
            rfl
        have hhalf : read? none [0xed, b] = none := by
          have hrange : ¬ b.toNat ≤ 0x9f := by
            have := UInt8.le_iff_toNat_le.1 hb.1
            change 0xa0 ≤ b.toNat at this
            omega
          rw [read?_none_cons, if_neg (by decide)]
          show read? (some ⟨[0xed], 0xd, 2, 0x80, 0x9f⟩) [b] = none
          rw [read?_some_cons, if_neg (by simp [hrange])]
        rw [hpending, decoded?_append_of_read? hfault, decoded?_append_of_read? hhalf]
        rfl
      · cases h
    · cases h
  · have hread : read? none bs = some (cs, pending) := by
      rw [read?, h]
      rfl
    rw [decoded?_eq, decoded?_eq, read?_append (by simp), hread, Option.bind_some]
    cases read? none (pending ++ more) with
    | none => rfl
    | some r =>
      simp only [Option.map_some, Option.bind_some]
      split <;> rfl

/-- Bytes of which a part is no text are none. -/
theorem decoded?_append_of_error {bs : List UInt8} {e : DecodeError}
    (h : decodePart bs = .error e) (more : List UInt8) : decoded? (bs ++ more) = none := by
  refine decoded?_append_of_read? ?_ more
  unfold read?
  cases hdecode : decodeFrom 0 none bs with
  | error e => rfl
  | ok r =>
    unfold decodePart at h
    rw [hdecode] at h
    cases h

end CadenceEntry.Text.Utf8
