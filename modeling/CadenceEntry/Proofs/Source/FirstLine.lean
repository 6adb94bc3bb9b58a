import CadenceEntry.Source.Input
import Mathlib.Tactic.SplitIfs

/-!
# Inputs without a line end

The bytes of a character of several bytes are no line ends, and neither is the character, so an
input without a line feed and without a carriage return is decoded to characters that are no line
ends either, in whatever chunks. So it holds no complete line: `Source.ofInput_of_noLineEnd`.
-/

set_option autoImplicit false

namespace CadenceEntry

namespace Text

/-- A byte that is neither a line feed nor a carriage return. -/
def IsWithinLine (b : UInt8) : Prop := b.toNat ≠ 10 ∧ b.toNat ≠ 13

/-- A character that is neither a line feed nor a carriage return. -/
def StaysInLine (c : Char) : Prop := c ≠ '\n' ∧ c ≠ '\r'

/-- A character whose code is no line end. -/
theorem staysInLine_ofNat {n : Nat} (h : n ≠ 10 ∧ n ≠ 13) : StaysInLine (Char.ofNat n) := by
  by_cases hvalid : n.isValidChar
  · have htoNat : (Char.ofNat n).toNat = n := by
      unfold Char.ofNat
      rw [dif_pos hvalid]
      rfl
    constructor
    · intro heq
      rw [heq] at htoNat
      exact h.1 htoNat.symm
    · intro heq
      rw [heq] at htoNat
      exact h.2 htoNat.symm
  · unfold Char.ofNat
    rw [dif_neg hvalid]
    constructor <;> decide

/-- What is no carriage return is kept. -/
theorem normalizeNewlines_cons {c : Char} (hc : c ≠ '\r') (cs : List Char) :
    normalizeNewlines (c :: cs) = c :: normalizeNewlines cs := by
  rw [normalizeNewlines]
  · intro ds heq
    exact absurd heq hc
  · exact hc

/-- Without line ends nothing becomes one. -/
theorem normalizeNewlines_of_staysInLine {cs : List Char} (h : ∀ c ∈ cs, StaysInLine c) :
    normalizeNewlines cs = cs := by
  induction cs with
  | nil => rfl
  | cons c cs ih =>
    rw [normalizeNewlines_cons (h c List.mem_cons_self).2,
      ih fun x hx => h x (List.mem_cons_of_mem _ hx)]

namespace Utf8

/-- What has been read of a character does not become a line end: its code point will be too big,
and the bytes so far are none. -/
structure Open.Big (o : Open) : Prop where
  value : 2 ≤ o.value ∨ 1 < o.missing ∧ 2 ≤ o.value * 64 + (o.low - 0x80)
  bytes : ∀ b ∈ o.bytes, IsWithinLine b

/-- A byte within a line opens a character that is no line end. -/
theorem big_of_opened? {b : UInt8} {o : Open} (h : opened? b = some o) (hb : IsWithinLine b) :
    o.Big := by
  have hbytes : ∀ x ∈ [b], IsWithinLine x := by
    intro x hx
    rw [List.mem_singleton.1 hx]
    exact hb
  unfold opened? at h
  dsimp only at h
  split_ifs at h
  all_goals
    obtain rfl := Option.some.inj h
    refine ⟨?_, hbytes⟩
    dsimp only
    omega

/-- Decoded characters and bytes that stay open without a line end. -/
def WithoutLineEnd (r : List Char × List UInt8) : Prop :=
  (∀ c ∈ r.1, StaysInLine c) ∧ ∀ b ∈ r.2, IsWithinLine b

/-- A character within a line in front of text without a line end. -/
theorem WithoutLineEnd.of_map_cons {x : Except DecodeError (List Char × List UInt8)} {c : Char}
    {r : List Char × List UInt8} (h : x.map (fun r => (c :: r.1, r.2)) = .ok r)
    (hc : StaysInLine c) (hx : ∀ r, x = .ok r → WithoutLineEnd r) : WithoutLineEnd r := by
  cases x with
  | error e => cases h
  | ok r' =>
    obtain rfl := Except.ok.inj h
    obtain ⟨hchars, hpending⟩ := hx r' rfl
    refine ⟨?_, hpending⟩
    intro c' hc'
    rcases List.mem_cons.1 hc' with rfl | hc'
    · exact hc
    · exact hchars c' hc'

/-- Bytes that are no line ends are decoded to characters that are none. -/
theorem withoutLineEnd_of_decodeFrom {bytes : List UInt8} {position : Nat} {o? : Option Open}
    {r : List Char × List UInt8} (h : decodeFrom position o? bytes = .ok r)
    (hbytes : ∀ b ∈ bytes, IsWithinLine b) (ho : ∀ o ∈ o?, o.Big) : WithoutLineEnd r := by
  fun_induction decodeFrom position o? bytes generalizing r
  case case1 o? =>
    obtain rfl := Except.ok.inj h
    refine ⟨nofun, ?_⟩
    cases o? with
    | none => exact nofun
    | some o => exact (ho o rfl).bytes
  case case2 b bs hb ih =>
    have hbs := fun x hx => hbytes x (List.mem_cons_of_mem b hx)
    have hc := hbytes b List.mem_cons_self
    exact .of_map_cons h (staysInLine_ofNat hc) fun r hr => ih hr hbs nofun
  case case3 b bs hb o hopened ih =>
    have hbs := fun x hx => hbytes x (List.mem_cons_of_mem b hx)
    apply ih h hbs
    intro o' ho'
    obtain rfl := Option.some.inj ho'
    exact big_of_opened? hopened (hbytes b List.mem_cons_self)
  case case5 b bs o hrange value hmissing ih =>
    have hbs := fun x hx => hbytes x (List.mem_cons_of_mem b hx)
    have hvalue := (ho o rfl).value
    refine .of_map_cons h (staysInLine_ofNat ?_) fun r hr => ih hr hbs nofun
    omega
  case case6 b bs o hrange value hmissing ih =>
    have hbs := fun x hx => hbytes x (List.mem_cons_of_mem b hx)
    have hvalue := (ho o rfl).value
    apply ih h hbs
    intro o' ho'
    obtain rfl := Option.some.inj ho'
    refine ⟨.inl (by dsimp only; omega), ?_⟩
    intro x hx
    rcases List.mem_append.1 hx with hx | hx
    · exact (ho o rfl).bytes x hx
    · rw [List.mem_singleton.1 hx]
      exact hbytes b List.mem_cons_self
  case case4 | case7 => cases h

/-- The same holds of a part of the bytes. -/
theorem withoutLineEnd_of_decodePart {bytes : List UInt8} {r : List Char × List UInt8}
    (h : decodePart bytes = .ok r) (hbytes : ∀ b ∈ bytes, IsWithinLine b) : WithoutLineEnd r := by
  unfold decodePart at h
  split at h
  · next position _ =>
    split at h
    · next a b hdrop =>
      split at h
      · cases hfront : decodeFrom 0 none (bytes.take position) with
        | error e =>
          rw [hfront] at h
          cases h
        | ok r' =>
          rw [hfront] at h
          obtain rfl := Except.ok.inj h
          have hchars := (withoutLineEnd_of_decodeFrom hfront
            (fun x hx => hbytes x (List.mem_of_mem_take hx)) nofun).1
          refine ⟨hchars, fun x hx => hbytes x ?_⟩
          apply List.mem_of_mem_drop (i := position)
          rw [hdrop]
          exact hx
      · cases h
    · cases h
  · exact withoutLineEnd_of_decodeFrom h hbytes nofun

end Utf8

end Text

namespace Source

open Text

/-- Bytes without a line end are decoded to characters without one, in whatever chunks. -/
theorem staysInLine_of_decodeLine {cs : List Char} {pending bytes : List UInt8} {cs' : List Char}
    (h : decodeLine cs pending bytes = .ok cs') (hcs : ∀ c ∈ cs, StaysInLine c)
    (hpending : ∀ b ∈ pending, IsWithinLine b) (hbytes : ∀ b ∈ bytes, IsWithinLine b) :
    ∀ c ∈ cs', StaysInLine c := by
  have hconcat : ∀ {cs new : List Char}, (∀ c ∈ cs, StaysInLine c) → (∀ c ∈ new, StaysInLine c) →
      ∀ c ∈ cs ++ new, StaysInLine c := by
    intro cs new hcs hnew c hc
    rcases List.mem_append.1 hc with hc | hc
    · exact hcs c hc
    · exact hnew c hc
  have hchunk : ∀ {pending bytes : List UInt8} {r : List Char × List UInt8},
      (∀ b ∈ pending, IsWithinLine b) → (∀ b ∈ bytes, IsWithinLine b) →
      Utf8.decodePart (pending ++ bytes.take chunkSize) = .ok r → Utf8.WithoutLineEnd r := by
    intro pending bytes r hpending hbytes hr
    apply Utf8.withoutLineEnd_of_decodePart hr
    intro b hb
    rcases List.mem_append.1 hb with hb | hb
    · exact hpending b hb
    · exact hbytes b (List.mem_of_mem_take hb)
  fun_induction decodeLine cs pending bytes
  case case1 cs pending =>
    cases hdecode : Utf8.decode pending with
    | error e =>
      rw [hdecode] at h
      cases h
    | ok new =>
      rw [hdecode] at h
      obtain rfl := Except.ok.inj h
      unfold Utf8.decode at hdecode
      split at hdecode
      · cases hdecode
      · next cs' hfrom =>
        obtain rfl := Except.ok.inj hdecode
        exact hconcat hcs (Utf8.withoutLineEnd_of_decodeFrom hfrom hpending nofun).1
      · cases hdecode
  case case2 => cases h
  case case3 cs pending bytes hne new pending' hpart hline =>
    obtain rfl := Except.ok.inj h
    exact hconcat hcs (hchunk hpending hbytes hpart).1
  case case4 cs pending bytes hne new pending' hpart hline ih =>
    obtain ⟨hnew, hpending'⟩ := hchunk hpending hbytes hpart
    exact ih h (hconcat hcs hnew) hpending' fun b hb => hbytes b (List.mem_of_mem_drop hb)

/-- An input without a line end gives no source text. -/
theorem ofInput_of_noLineEnd {bytes : List UInt8} (h : ∀ b ∈ bytes, IsWithinLine b) :
    ∃ e, ofInput (.ok bytes) = .error e := by
  unfold ofInput
  dsimp only
  cases hdecode : decodeLine [] [] bytes with
  | error e => exact ⟨_, rfl⟩
  | ok cs =>
    have hcs := staysInLine_of_decodeLine hdecode nofun nofun h
    have hline : (normalizeNewlines cs).contains '\n' = false := by
      rw [normalizeNewlines_of_staysInLine hcs]
      simpa using fun hc => (hcs '\n' hc).1 rfl
    refine ⟨.incompleteLine, ?_⟩
    dsimp only
    unfold firstLine
    rw [hline]
    rfl

end Source

end CadenceEntry
