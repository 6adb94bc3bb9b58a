import CadenceEntry.Text.Utf8
import Mathlib.Tactic.SplitIfs

/-!
# Encoded texts

The bytes that a text is encoded to are decoded to the text, and so are the bytes of its first
characters when more follow. A part of the bytes, wherever it is cut off, gives the first characters
and the bytes of a character that has begun: `Text.Utf8.exists_decodePart`.

What has been read of a character is an `Open`, and `Open.Completes` says which bytes make the
character complete. It is shown once for the first byte of each character, and then carried from
byte to byte.
-/

set_option autoImplicit false

namespace CadenceEntry.Text.Utf8

/-- The bytes of a text. -/
def encode (cs : List Char) : List UInt8 := cs.flatMap String.utf8EncodeChar

/-- No characters are no bytes. -/
@[simp] theorem encode_nil : encode [] = [] := rfl

/-- The bytes of a text begin with those of its first character. -/
@[simp] theorem encode_cons (c : Char) (cs : List Char) :
    encode (c :: cs) = String.utf8EncodeChar c ++ encode cs := rfl

/-- The bytes of a text are those of its parts. -/
theorem encode_append (cs ds : List Char) : encode (cs ++ ds) = encode cs ++ encode ds :=
  List.flatMap_append

/-- What the loop through an array of bytes has collected. -/
theorem toList_loop_eq (bs : ByteArray) (i : Nat) (r : List UInt8) :
    ByteArray.toList.loop bs i r = r.reverse ++ bs.data.toList.drop i := by
  fun_induction ByteArray.toList.loop bs i r with
  | case1 i r h ih =>
    have hi : i < bs.data.toList.length := by simpa using h
    rw [ih, List.drop_eq_getElem_cons hi]
    simp [ByteArray.get!, h]
  | case2 i r h =>
    have hi : bs.data.toList.length ≤ i := by simpa using h
    rw [List.drop_eq_nil_of_le hi, List.append_nil]

/-- The bytes of a string are those of its characters. -/
theorem toList_toUTF8 (s : String) : s.toUTF8.toList = encode s.toList := by
  have hbytes : s.toUTF8 = (encode s.toList).toByteArray := String.utf8Encode_toList.symm
  rw [hbytes, ByteArray.toList, toList_loop_eq]
  simp

/-! ## Characters -/

/-- What has been read of a character and the bytes `bs` are the character `c`. -/
def Open.Completes (o : Open) (c : Char) : List UInt8 → Prop
  | [] => False
  | b :: bs =>
    (o.low ≤ b.toNat ∧ b.toNat ≤ o.high) ∧
      let value := o.value * 64 + (b.toNat - 0x80)
      if o.missing = 1 then bs = [] ∧ Char.ofNat value = c
      else Completes ⟨o.bytes ++ [b], value, o.missing - 1, 0x80, 0xbf⟩ c bs

/-- The first byte of a character of two bytes. -/
theorem opened?_of_two {b : UInt8} {n : Nat} (hb : b.toNat = n / 64 + 0xc0) (hlow : 0x7f < n)
    (hhigh : n ≤ 0x7ff) : opened? b = some ⟨[b], n / 64, 1, 0x80, 0xbf⟩ := by
  have hvalue : b.toNat - 0xc0 = n / 64 := by omega
  unfold opened?
  dsimp only
  rw [if_neg (by omega), if_pos (by omega), hvalue]

/-- The first byte of a character of three bytes admits the second one: neither is the character
so small that two bytes would do, nor is it half of a surrogate pair. -/
theorem opened?_of_three {b : UInt8} {n : Nat} (hb : b.toNat = n / 4096 + 0xe0) (hlow : 0x7ff < n)
    (hhigh : n ≤ 0xffff) (hvalid : n < 0xd800 ∨ 0xdfff < n) :
    ∃ low high, opened? b = some ⟨[b], n / 4096, 2, low, high⟩ ∧
      low ≤ n / 64 % 64 + 0x80 ∧ n / 64 % 64 + 0x80 ≤ high := by
  have hvalue : b.toNat - 0xe0 = n / 4096 := by omega
  unfold opened?
  dsimp only
  rw [if_neg (by omega), if_neg (by omega)]
  by_cases hfirst : b.toNat = 0xe0
  · have hzero : n / 4096 = 0 := by omega
    rw [if_pos hfirst, hzero]
    exact ⟨_, _, rfl, by omega, by omega⟩
  by_cases hpair : b.toNat = 0xed
  · have hd : n / 4096 = 0xd := by omega
    rw [if_neg hfirst, if_pos hpair, hd]
    exact ⟨_, _, rfl, by omega, by omega⟩
  · rw [if_neg hfirst, if_neg hpair, if_pos (by omega), hvalue]
    exact ⟨_, _, rfl, by omega, by omega⟩

/-- The first byte of a character of four bytes admits the second one. -/
theorem opened?_of_four {b : UInt8} {n : Nat} (hb : b.toNat = n / 262144 + 0xf0)
    (hlow : 0xffff < n) (hhigh : n < 0x110000) :
    ∃ low high, opened? b = some ⟨[b], n / 262144, 3, low, high⟩ ∧
      low ≤ n / 4096 % 64 + 0x80 ∧ n / 4096 % 64 + 0x80 ≤ high := by
  have hvalue : b.toNat - 0xf0 = n / 262144 := by omega
  unfold opened?
  dsimp only
  rw [if_neg (by omega), if_neg (by omega), if_neg (by omega), if_neg (by omega),
    if_neg (by omega)]
  by_cases hfirst : b.toNat = 0xf0
  · have hzero : n / 262144 = 0 := by omega
    rw [if_pos hfirst, hzero]
    exact ⟨_, _, rfl, by omega, by omega⟩
  by_cases hlast : b.toNat < 0xf4
  · rw [if_neg hfirst, if_pos hlast, hvalue]
    exact ⟨_, _, rfl, by omega, by omega⟩
  · have hfour : n / 262144 = 4 := by omega
    rw [if_neg hfirst, if_neg hlast, if_pos (by omega), hfour]
    exact ⟨_, _, rfl, by omega, by omega⟩

/-- A character is one byte, or its first byte opens what the others complete. -/
theorem utf8EncodeChar_cases (c : Char) :
    (∃ b : UInt8, String.utf8EncodeChar c = [b] ∧ b.toNat < 0x80 ∧ Char.ofNat b.toNat = c) ∨
      ∃ (b : UInt8) (bs : List UInt8) (o : Open), String.utf8EncodeChar c = b :: bs ∧
        ¬ b.toNat < 0x80 ∧ opened? b = some o ∧ o.bytes = [b] ∧ o.Completes c bs := by
  have hchar : ∀ {n : Nat}, n = c.toNat → Char.ofNat n = c := by
    rintro n rfl
    exact Char.ofNat_toNat c
  have hvalid : c.toNat < 0xd800 ∨ 0xdfff < c.toNat ∧ c.toNat < 0x110000 := c.valid
  have hbyte : ∀ n < 256, (UInt8.ofNat n).toNat = n := fun n hn => UInt8.toNat_ofNat_of_lt' hn
  have hcode : c.val.toNat = c.toNat := rfl
  generalize c.toNat = n at hchar hvalid hcode
  fun_cases String.utf8EncodeChar with
  | case1 v hone =>
    have hb := hbyte v (by omega)
    exact .inl ⟨_, rfl, by omega, hchar (hb.trans hcode)⟩
  | case2 v hone htwo =>
    have hb := hbyte (v / 64 % 0x20 + 0xc0) (by omega)
    have hb₁ := hbyte (v % 0x40 + 0x80) (by omega)
    have hopened := opened?_of_two (n := n) (hb.trans (by omega)) (by omega) (by omega)
    refine .inr ⟨_, _, _, rfl, by omega, hopened, rfl, ?_⟩
    unfold Open.Completes
    exact ⟨by dsimp only; omega, rfl, hchar (by dsimp only; omega)⟩
  | case3 v hone htwo hthree =>
    have hb := hbyte (v / 4096 % 0x10 + 0xe0) (by omega)
    have hb₁ := hbyte (v / 64 % 0x40 + 0x80) (by omega)
    have hb₂ := hbyte (v % 0x40 + 0x80) (by omega)
    obtain ⟨low, high, hopened, hlow, hhigh⟩ :=
      opened?_of_three (n := n) (hb.trans (by omega)) (by omega) (by omega) (by omega)
    refine .inr ⟨_, _, _, rfl, by omega, hopened, rfl, ?_⟩
    unfold Open.Completes Open.Completes
    exact ⟨by dsimp only; omega, by dsimp only; omega, rfl, hchar (by dsimp only; omega)⟩
  | case4 v hone htwo hthree =>
    have hb := hbyte (v / 262144 % 0x08 + 0xf0) (by omega)
    have hb₁ := hbyte (v / 4096 % 0x40 + 0x80) (by omega)
    have hb₂ := hbyte (v / 64 % 0x40 + 0x80) (by omega)
    have hb₃ := hbyte (v % 0x40 + 0x80) (by omega)
    obtain ⟨low, high, hopened, hlow, hhigh⟩ :=
      opened?_of_four (n := n) (hb.trans (by omega)) (by omega) (by omega)
    refine .inr ⟨_, _, _, rfl, by omega, hopened, rfl, ?_⟩
    unfold Open.Completes Open.Completes Open.Completes
    exact ⟨by dsimp only; omega, by dsimp only; omega, by dsimp only; omega, rfl,
      hchar (by dsimp only; omega)⟩

/-- The rest of a character is read as the character, whatever follows. -/
theorem decodeFrom_of_completes {o : Open} {c : Char} {bs : List UInt8} (h : o.Completes c bs)
    (position : Nat) (more : List UInt8) :
    decodeFrom position (some o) (bs ++ more) =
      (decodeFrom (position + bs.length) none more).map fun r => (c :: r.1, r.2) := by
  induction bs generalizing o position with
  | nil => exact absurd h id
  | cons b bs ih =>
    obtain ⟨hrange, hrest⟩ := h
    rw [List.cons_append, decodeFrom, if_pos hrange]
    dsimp only at hrest ⊢
    split_ifs at hrest ⊢ with hmissing
    · obtain ⟨rfl, hc⟩ := hrest
      rw [hc]
      rfl
    · rw [ih hrest, List.length_cons, Nat.add_right_comm, Nat.add_assoc]

/-- A part of the rest of a character stays open. -/
theorem decodeFrom_of_completes_part {o : Open} {c : Char} {part bs : List UInt8}
    (h : o.Completes c (part ++ bs)) (hbs : bs ≠ []) (position : Nat) :
    decodeFrom position (some o) part = .ok ([], o.bytes ++ part) := by
  induction part generalizing o position with
  | nil =>
    rw [List.append_nil]
    rfl
  | cons b part ih =>
    obtain ⟨hrange, hrest⟩ := h
    rw [decodeFrom, if_pos hrange]
    dsimp only at hrest ⊢
    split_ifs at hrest ⊢ with hmissing
    · exact absurd (List.append_eq_nil_iff.1 hrest.1).2 hbs
    · rw [ih hrest, List.append_assoc]
      rfl

/-- The bytes of a character are read as the character, whatever follows. -/
theorem decodeFrom_utf8EncodeChar (c : Char) (position : Nat) (more : List UInt8) :
    ∃ position', decodeFrom position none (String.utf8EncodeChar c ++ more) =
      (decodeFrom position' none more).map fun r => (c :: r.1, r.2) := by
  rcases utf8EncodeChar_cases c with ⟨b, hbytes, hb, hc⟩ | ⟨b, bs, o, hbytes, hb, hopened, -, h⟩
  · refine ⟨position + 1, ?_⟩
    rw [hbytes, List.singleton_append, decodeFrom, if_pos hb, hc]
  · refine ⟨position + 1 + bs.length, ?_⟩
    rw [hbytes, List.cons_append, decodeFrom, if_neg hb, hopened]
    exact decodeFrom_of_completes h _ _

/-- A part of the bytes of a character stays open. -/
theorem decodeFrom_part {c : Char} {part bs : List UInt8}
    (h : String.utf8EncodeChar c = part ++ bs) (hbs : bs ≠ []) (position : Nat) :
    decodeFrom position none part = .ok ([], part) := by
  cases part with
  | nil => rfl
  | cons b part =>
    rcases utf8EncodeChar_cases c with
      ⟨b', hbytes, -, -⟩ | ⟨b', bs', o, hbytes, hb, hopened, ho, hc⟩
    · rw [hbytes] at h
      have hnil := (List.cons.inj h).2.symm
      exact absurd (List.append_eq_nil_iff.1 hnil).2 hbs
    · rw [hbytes] at h
      obtain ⟨rfl, rfl⟩ := List.cons.inj h
      rw [decodeFrom, if_neg hb, hopened]
      dsimp only
      rw [decodeFrom_of_completes_part hc hbs, ho]
      rfl

/-! ## Texts -/

/-- The bytes of a text are decoded to the text, whatever follows. -/
theorem decodeFrom_encode (cs : List Char) (position : Nat) (more : List UInt8) :
    ∃ position', decodeFrom position none (encode cs ++ more) =
      (decodeFrom position' none more).map fun r => (cs ++ r.1, r.2) := by
  induction cs generalizing position with
  | nil =>
    refine ⟨position, ?_⟩
    cases h : decodeFrom position none more <;> simp [h, Except.map]
  | cons c cs ih =>
    obtain ⟨position₁, hc⟩ := decodeFrom_utf8EncodeChar c position (encode cs ++ more)
    obtain ⟨position₂, hcs⟩ := ih position₁
    refine ⟨position₂, ?_⟩
    rw [encode_cons, List.append_assoc, hc, hcs]
    cases decodeFrom position₂ none more <;> rfl

/-- A text is decoded from its bytes. -/
theorem decode_encode (cs : List Char) : decode (encode cs) = .ok cs := by
  obtain ⟨position, h⟩ := decodeFrom_encode cs 0 []
  rw [List.append_nil] at h
  unfold decode
  rw [h]
  simp [decodeFrom, Except.map]

/-- A part of the bytes of a text is decoded to the first characters, and what is left of it stays
open. -/
theorem exists_decodePart {part bs : List UInt8} {cs : List Char} (h : part ++ bs = encode cs) :
    ∃ cs₁ cs₂ pending, cs = cs₁ ++ cs₂ ∧ part = encode cs₁ ++ pending ∧
      decodePart part = .ok (cs₁, pending) := by
  obtain ⟨cs₁, cs₂, pending, hcs, hpart, hpending⟩ : ∃ cs₁ cs₂ pending, cs = cs₁ ++ cs₂ ∧
      part = encode cs₁ ++ pending ∧ ∀ position, decodeFrom position none pending =
        .ok ([], pending) := by
    induction cs generalizing part with
    | nil =>
      obtain ⟨rfl, -⟩ := List.append_eq_nil_iff.1 h
      exact ⟨[], [], [], rfl, rfl, fun _ => rfl⟩
    | cons c cs ih =>
      rw [encode_cons] at h
      rcases List.append_eq_append_iff.1 h with ⟨more, hc, -⟩ | ⟨part', rfl, hrest⟩
      · -- the part ends within the first character, or with it
        by_cases hmore : more = []
        · rw [hmore, List.append_nil] at hc
          exact ⟨[c], cs, [], rfl, by simp [hc], fun _ => rfl⟩
        · exact ⟨[], c :: cs, part, rfl, rfl, decodeFrom_part hc hmore⟩
      · obtain ⟨cs₁, cs₂, pending, rfl, rfl, hpending⟩ := ih hrest.symm
        exact ⟨c :: cs₁, cs₂, pending, rfl, (List.append_assoc ..).symm, hpending⟩
  refine ⟨cs₁, cs₂, pending, hcs, hpart, ?_⟩
  obtain ⟨position, hdecode⟩ := decodeFrom_encode cs₁ 0 pending
  rw [hpending, ← hpart] at hdecode
  unfold decodePart
  rw [hdecode]
  simp [Except.map]

end CadenceEntry.Text.Utf8
