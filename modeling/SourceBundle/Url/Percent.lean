/-
# Percent signs

A name is written into an address with every byte that is no letter, digit or harmless mark as a
percent sign and two hexadecimal digits.
-/
import SourceBundle.Text.Utf8

namespace SourceBundle.Url

/-- Whether a byte stands for itself in an address. -/
def isPlain (b : UInt8) : Bool :=
  let c := Char.ofNat b.toNat
  b < 128 && (c.isAlphanum || c == '_' || c == '.' || c == '-' || c == '~' || c == '@')

/-- The written form of a byte. -/
def escapeByte (b : UInt8) : List Char :=
  if isPlain b then [Char.ofNat b.toNat]
  else '%' :: (Text.hexDigits 2 b.toNat).map Char.toUpper

/-- A name as it is written into an address. -/
def escape (name : String) : String := String.ofList ((Text.Utf8.encode name).flatMap escapeByte)

end SourceBundle.Url
