import CadenceEntry.Text.Quoted

/-!
# UTF-8

Bytes are decoded one after the other. A character of several bytes is open until its last byte has
been read; the first byte says how many there are, and in what range the second must be. Decoding
stops at a byte that cannot stand where it does. A text may also end inside of a character, because
more bytes are to come or because the text is cut short.
-/

set_option autoImplicit false

namespace CadenceEntry.Text.Utf8

/-- What is wrong with some bytes. -/
inductive Fault where
  | startByte
  | continuationByte
  | endOfData
  deriving DecidableEq, Repr

/-- The bytes that are no character, and where the first of them stands. -/
structure DecodeError where
  fault : Fault
  position : Nat
  bytes : List UInt8
  deriving DecidableEq, Repr

/-- What is said about a fault. -/
def Fault.message : Fault → String
  | startByte => "invalid start byte"
  | continuationByte => "invalid continuation byte"
  | endOfData => "unexpected end of data"

/-- The message of an error. -/
def DecodeError.message (e : DecodeError) : String :=
  "'utf-8' codec can't decode " ++
    (match e.bytes with
      | [b] =>
        "byte 0x" ++ String.ofList (hexDigits 2 b.toNat) ++ " in position " ++ toString e.position
      | bs =>
        "bytes in position " ++ toString e.position ++ "-" ++
          toString (e.position + bs.length - 1)) ++
    ": " ++ e.fault.message

/-- A character that has been read in part: its bytes so far, what they contribute to its code
point, how many bytes are missing, and the range of the next one. -/
structure Open where
  bytes : List UInt8
  value : Nat
  missing : Nat
  low : Nat
  high : Nat

/-- What the first byte of a character of several bytes opens. -/
def opened? (b : UInt8) : Option Open :=
  let n := b.toNat
  if n < 0xc2 then none
  else if n < 0xe0 then some ⟨[b], n - 0xc0, 1, 0x80, 0xbf⟩
  else if n = 0xe0 then some ⟨[b], 0, 2, 0xa0, 0xbf⟩
  else if n = 0xed then some ⟨[b], 0xd, 2, 0x80, 0x9f⟩
  else if n < 0xf0 then some ⟨[b], n - 0xe0, 2, 0x80, 0xbf⟩
  else if n = 0xf0 then some ⟨[b], 0, 3, 0x90, 0xbf⟩
  else if n < 0xf4 then some ⟨[b], n - 0xf0, 3, 0x80, 0xbf⟩
  else if n = 0xf4 then some ⟨[b], 4, 3, 0x80, 0x8f⟩
  else none

/-- The characters of some bytes, the first of which stands at `position`, and the bytes of a
character that is still open at the end. -/
def decodeFrom (position : Nat) (o? : Option Open) :
    List UInt8 → Except DecodeError (List Char × List UInt8)
  | [] => .ok ([], (o?.map Open.bytes).getD [])
  | b :: bs =>
    match o? with
    | none =>
      if b.toNat < 0x80 then
        (decodeFrom (position + 1) none bs).map fun r => (Char.ofNat b.toNat :: r.1, r.2)
      else
        match opened? b with
        | some o => decodeFrom (position + 1) (some o) bs
        | none => .error ⟨.startByte, position, [b]⟩
    | some o =>
      if o.low ≤ b.toNat ∧ b.toNat ≤ o.high then
        let value := o.value * 64 + (b.toNat - 0x80)
        if o.missing = 1 then
          (decodeFrom (position + 1) none bs).map fun r => (Char.ofNat value :: r.1, r.2)
        else
          decodeFrom (position + 1) (some ⟨o.bytes ++ [b], value, o.missing - 1, 0x80, 0xbf⟩) bs
      else .error ⟨.continuationByte, position - o.bytes.length, o.bytes⟩

/-- The text that some bytes are. -/
def decode (bytes : List UInt8) : Except DecodeError (List Char) :=
  match decodeFrom 0 none bytes with
  | .error e => .error e
  | .ok (cs, []) => .ok cs
  | .ok (_, pending) => .error ⟨.endOfData, bytes.length - pending.length, pending⟩

/-- The characters of some bytes that more may follow, and the bytes of a character that is open at
the end. The first two of the three bytes that half of a surrogate pair would have count as open. -/
def decodePart (bytes : List UInt8) : Except DecodeError (List Char × List UInt8) :=
  match decodeFrom 0 none bytes with
  | .error ⟨.continuationByte, p, [0xed]⟩ =>
    match bytes.drop p with
    | [0xed, b] =>
      if 0xa0 ≤ b ∧ b ≤ 0xbf then
        (decodeFrom 0 none (bytes.take p)).map fun r => (r.1, [0xed, b])
      else .error ⟨.continuationByte, p, [0xed]⟩
    | _ => .error ⟨.continuationByte, p, [0xed]⟩
  | r => r

end CadenceEntry.Text.Utf8
