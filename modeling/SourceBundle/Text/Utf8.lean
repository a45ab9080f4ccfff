/-
# Decoding UTF-8

Bytes are decoded from the left.  The first sequence that is no character ends the decoding with a
fault, which names the bytes of the longest part that could still have begun a character, and why
the next byte cannot continue it.
-/
import SourceBundle.Text.Quoted

namespace SourceBundle.Text.Utf8

/-- Why a sequence of bytes is no character. -/
inductive Reason
  /-- The first byte begins no sequence. -/
  | invalidStart
  /-- A further byte does not continue the sequence. -/
  | invalidContinuation
  /-- The bytes end within the sequence. -/
  | unexpectedEnd
deriving DecidableEq, Repr

/-- The reason in words. -/
def Reason.message : Reason → String
  | .invalidStart => "invalid start byte"
  | .invalidContinuation => "invalid continuation byte"
  | .unexpectedEnd => "unexpected end of data"

/-- A sequence that cannot be decoded. -/
structure Fault where
  /-- The position of its first byte. -/
  start : Nat
  /-- The number of bytes at fault. -/
  length : Nat
  /-- The first byte. -/
  byte : UInt8
  /-- Why it cannot be decoded. -/
  reason : Reason
deriving DecidableEq, Repr

/-- The fault in words: a single byte is shown, several are given by their positions. -/
def Fault.message (f : Fault) : String :=
  let place :=
    if f.length = 1 then
      "byte 0x" ++ String.ofList (hexDigits 2 f.byte.toNat) ++ s!" in position {f.start}"
    else s!"bytes in position {f.start}-{f.start + f.length - 1}"
  s!"'utf-8' codec can't decode {place}: {f.reason.message}"

/-- The form of a sequence, as its first byte gives it: the bits of the code point in that byte,
the number of further bytes, and the least and greatest value of the second byte. -/
structure Lead where
  /-- The bits of the code point that the first byte holds. -/
  bits : Nat
  /-- The number of bytes that follow. -/
  more : Nat
  /-- The least second byte. -/
  low : Nat
  /-- The greatest second byte. -/
  high : Nat

/-- The sequence that a first byte announces; the narrower bounds on some second bytes exclude
overlong forms, surrogates and values beyond the last code point. -/
def lead? (b : Nat) : Option Lead :=
  if b < 0x80 then some ⟨b, 0, 0, 0⟩
  else if b < 0xC2 then none
  else if b < 0xE0 then some ⟨b - 0xC0, 1, 0x80, 0xBF⟩
  else if b < 0xF0 then
    some ⟨b - 0xE0, 2, if b = 0xE0 then 0xA0 else 0x80, if b = 0xED then 0x9F else 0xBF⟩
  else if b < 0xF5 then
    some ⟨b - 0xF0, 3, if b = 0xF0 then 0x90 else 0x80, if b = 0xF4 then 0x8F else 0xBF⟩
  else none

/-- Read the further bytes of a sequence: the code point, or the number of bytes that are fine and
the reason why the next one is not.  Only the second byte has bounds of its own. -/
def tail (code more low high taken : Nat) (bs : List UInt8) : Except (Nat × Reason) Nat :=
  match more, bs with
  | 0, _ => .ok code
  | _ + 1, [] => .error (taken, .unexpectedEnd)
  | more + 1, b :: rest =>
    if low ≤ b.toNat ∧ b.toNat ≤ high then
      tail (code * 64 + (b.toNat - 0x80)) more 0x80 0xBF (taken + 1) rest
    else .error (taken, .invalidContinuation)

/-- Decode bytes from a position on; `skip` counts the bytes of the last character that are still
to be passed over. -/
def decodeFrom (pos : Nat) : Nat → List UInt8 → Except Fault (List Char)
  | _, [] => .ok []
  | skip + 1, _ :: rest => decodeFrom (pos + 1) skip rest
  | 0, b :: rest =>
    match lead? b.toNat with
    | none => .error ⟨pos, 1, b, .invalidStart⟩
    | some l =>
      match tail l.bits l.more l.low l.high 1 rest with
      | .error (n, reason) => .error ⟨pos, n, b, reason⟩
      | .ok code => do
        let cs ← decodeFrom (pos + 1) l.more rest
        pure (Char.ofNat code :: cs)

/-- The text that bytes encode. -/
def decode (bs : List UInt8) : Except Fault String := (decodeFrom 0 0 bs).map String.ofList

/-- Decode bytes with the replacement character in the place of every fault. -/
def decodeLossyFrom : Nat → List UInt8 → List Char
  | 0, _ => []
  | limit + 1, bs =>
    match decodeFrom 0 0 bs with
    | .ok cs => cs
    | .error f =>
      decodeLossyFrom limit (bs.take f.start) ++
        '\ufffd' :: decodeLossyFrom limit (bs.drop (f.start + f.length))

/-- The text that bytes encode, with the replacement character in the place of every fault. -/
def decodeLossy (bs : List UInt8) : String := String.ofList (decodeLossyFrom (bs.length + 1) bs)

/-- The bytes of a text. -/
def encode (s : String) : List UInt8 := s.toUTF8.toList

end SourceBundle.Text.Utf8
