/-
# Texts in wide units

Texts whose characters are written in units of two or four bytes, and how the width of the units
is told from the first bytes of a document that begins with ASCII characters or with a mark.

Halves of a pair are put together; a half that stands alone is written as the replacement
character, since no text holds one.
-/
import SourceBundle.Text.Utf8

namespace SourceBundle.Text

/-- How the characters of a document are written. -/
inductive Encoding
  /-- In a varying number of bytes. -/
  | utf8
  /-- In units of two bytes. -/
  | utf16 (bigEndian : Bool)
  /-- In units of four bytes. -/
  | utf32 (bigEndian : Bool)
deriving DecidableEq, Repr

namespace Encoding

/-- The encoding that a mark at the beginning of a document gives, and the length of the mark. -/
def marked? : List UInt8 → Option (Encoding × Nat)
  | 0 :: 0 :: 0xfe :: 0xff :: _ => some (.utf32 true, 4)
  | 0xff :: 0xfe :: 0 :: 0 :: _ => some (.utf32 false, 4)
  | 0xfe :: 0xff :: _ => some (.utf16 true, 2)
  | 0xff :: 0xfe :: _ => some (.utf16 false, 2)
  | 0xef :: 0xbb :: 0xbf :: _ => some (.utf8, 3)
  | _ => none

/-- The encoding that the zeros among the first bytes of a document give. -/
def ofZeros : List UInt8 → Encoding
  | a :: b :: c :: d :: _ =>
    if a = 0 then if b = 0 then .utf32 true else .utf16 true
    else if b = 0 then if c = 0 ∧ d = 0 then .utf32 false else .utf16 false
    else .utf8
  | [a, b] => if a = 0 then .utf16 true else if b = 0 then .utf16 false else .utf8
  | _ => .utf8

/-- The encoding of a document, and the length of the mark that it begins with. -/
def detect (bytes : List UInt8) : Encoding × Nat := (marked? bytes).getD (ofZeros bytes, 0)

/-- The name of an encoding. -/
def name : Encoding → String
  | utf8 => "utf-8"
  | utf16 true => "utf-16-be"
  | utf16 false => "utf-16-le"
  | utf32 true => "utf-32-be"
  | utf32 false => "utf-32-le"

end Encoding

namespace Wide

/-- The number that the bytes of a unit stand for. -/
def unit (bigEndian : Bool) (bytes : List UInt8) : Nat :=
  (if bigEndian then bytes else bytes.reverse).foldl (fun n b => 256 * n + b.toNat) 0

/-- The character with a number. -/
def charOf (n : Nat) : Char := if n < 0x110000 ∧ ¬ (0xD800 ≤ n ∧ n < 0xE000) then Char.ofNat n else '\ufffd'

/-- The characters of units of two bytes. -/
def pairUp : List Nat → List Char
  | high :: low :: rest =>
    if 0xD800 ≤ high ∧ high < 0xDC00 ∧ 0xDC00 ≤ low ∧ low < 0xE000 then
      charOf (0x10000 + (high - 0xD800) * 0x400 + (low - 0xDC00)) :: pairUp rest
    else charOf high :: pairUp (low :: rest)
  | [n] => [charOf n]
  | [] => []

/-- The units of some bytes from a position on, or the position of a unit that is cut off or, if
there is a limit, too large, with the number of its bytes. -/
def units (bigEndian : Bool) (width limit : Nat) : Nat → Nat → List UInt8 → Except (Nat × Nat) (List Nat)
  | _, _, [] => .ok []
  | 0, pos, bytes => .error (pos, bytes.length)
  | count + 1, pos, bytes =>
    let taken := bytes.take width
    if taken.length < width then .error (pos, taken.length)
    else if limit ≤ unit bigEndian taken then .error (pos, width)
    else do
      let more ← units bigEndian width limit count (pos + width) (bytes.drop width)
      pure (unit bigEndian taken :: more)

/-- What is said of bytes that cannot be decoded. -/
def message (e : Encoding) (width : Nat) (bytes : List UInt8) (pos length : Nat) : String :=
  let reason := if length < width then "truncated data" else "code point not in range(0x110000)"
  let place :=
    if length = 1 then
      "byte 0x" ++ String.ofList (hexDigits 2 ((bytes.drop pos).headD 0).toNat) ++ s!" in position {pos}"
    else s!"bytes in position {pos}-{pos + length - 1}"
  s!"'{e.name}' codec can't decode {place}: {reason}"

/-- Decode units of a width. -/
def decodeUnits (e : Encoding) (bigEndian : Bool) (width limit : Nat) (start : Nat)
    (bytes : List UInt8) : Except String (List Nat) :=
  match units bigEndian width limit bytes.length start (bytes.drop start) with
  | .ok us => .ok us
  | .error (pos, length) => .error (message e width bytes pos length)

end Wide

/-- Bytes in which every sequence for half of a pair is the one for the replacement character.  Both
have three bytes, and the first one never stands within another sequence. -/
def replaceHalves : List UInt8 → List UInt8
  | 0xed :: b :: c :: rest =>
    if 0xa0 ≤ b ∧ b ≤ 0xbf ∧ 0x80 ≤ c ∧ c ≤ 0xbf then 0xef :: 0xbf :: 0xbd :: replaceHalves rest
    else 0xed :: replaceHalves (b :: c :: rest)
  | b :: rest => b :: replaceHalves rest
  | [] => []

/-- Decode a document in whatever encoding it is; the reason why it cannot be decoded is in words. -/
def decodeDocument (bytes : List UInt8) : Except String String :=
  match Encoding.detect bytes with
  | (.utf8, mark) => (Utf8.decode (replaceHalves (bytes.drop mark))).mapError Utf8.Fault.message
  | (.utf16 big, mark) => do
    let us ← Wide.decodeUnits (.utf16 big) big 2 0x10000 mark bytes
    pure (String.ofList (Wide.pairUp us))
  | (.utf32 big, mark) => do
    let us ← Wide.decodeUnits (.utf32 big) big 4 0x110000 mark bytes
    pure (String.ofList (us.map Wide.charOf))

end SourceBundle.Text
