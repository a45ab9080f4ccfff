/-
# Gzip files

A gzip file is a sequence of members, each a head with optional fields, compressed data, and a
checksum with the length of the output, which are not looked at.
-/
import SourceBundle.Archive.Inflate

namespace SourceBundle.Archive.Gzip

/-- What follows a text that ends with a zero byte. -/
def skipText (bytes : List UInt8) : List UInt8 := (bytes.dropWhile (· != 0)).drop 1

/-- What follows a field that begins with its length in two bytes, the lower one first. -/
def skipField : List UInt8 → List UInt8
  | low :: high :: rest => rest.drop (low.toNat + 256 * high.toNat)
  | _ => []

/-- What follows the head of a member; nothing when there is no member. -/
def skipHead : List UInt8 → Option (List UInt8)
  | 0x1f :: 0x8b :: 8 :: flags :: rest =>
    let has (n : Nat) : Bool := flags.toNat.testBit n
    let rest := rest.drop 6
    let rest := if has 2 then skipField rest else rest
    let rest := if has 3 then skipText rest else rest
    let rest := if has 4 then skipText rest else rest
    some (if has 1 then rest.drop 2 else rest)
  | _ => none

/-- The number of bytes behind the data of a member. -/
def tailLength : Nat := 8

/-- The output of the members from here on. -/
def readMembers : Nat → List UInt8 → Option (List UInt8)
  | 0, _ => none
  | limit + 1, bytes => do
    let data ← skipHead bytes
    let (out, left) ← inflate data
    let rest := data.drop (data.length - left + tailLength)
    if (skipHead rest).isSome then
      let more ← readMembers limit rest
      pure (out ++ more)
    else pure out

/-- The content of a gzip file. -/
def read (bytes : List UInt8) : Option (List UInt8) := readMembers (bytes.length + 1) bytes

end SourceBundle.Archive.Gzip
