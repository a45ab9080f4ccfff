/-
# Writing JSON

The layout of the documents that this library writes: pure ASCII, one member per line, and two
spaces of indentation for every level.  An object without members is a pair of braces.
-/
import SourceBundle.Text.Quoted

namespace SourceBundle.Json

open SourceBundle.Text

/-- An escape by code point. -/
def writeUnit (n : Nat) : List Char := '\\' :: 'u' :: hexDigits 4 n

/-- The written form of one character of a string.  A character beyond the first plane is written
as a pair of halves. -/
def writeChar (c : Char) : List Char :=
  if c = '"' then ['\\', '"']
  else if c = '\\' then ['\\', '\\']
  else if c = '\n' then ['\\', 'n']
  else if c = '\r' then ['\\', 'r']
  else if c = '\t' then ['\\', 't']
  else if c = '\x08' then ['\\', 'b']
  else if c = '\x0c' then ['\\', 'f']
  else if 32 ≤ c.toNat ∧ c.toNat < 127 then [c]
  else if c.toNat < 0x10000 then writeUnit c.toNat
  else
    writeUnit (0xD800 + (c.toNat - 0x10000) / 0x400) ++
      writeUnit (0xDC00 + (c.toNat - 0x10000) % 0x400)

/-- The written form of a string. -/
def writeText (s : String) : List Char := '"' :: s.toList.flatMap writeChar ++ ['"']

/-- The line end in front of a line at a depth. -/
def writeBreak (depth : Nat) : List Char := '\n' :: List.replicate (2 * depth) ' '

/-- The written form of an object at a depth, from the names and written values of its members. -/
def writeObject (depth : Nat) : List (String × List Char) → List Char
  | [] => ['{', '}']
  | m :: ms =>
    let member (m : String × List Char) : List Char :=
      writeBreak (depth + 1) ++ writeText m.1 ++ [':', ' '] ++ m.2
    '{' :: member m ++ ms.flatMap (fun m => ',' :: member m) ++ writeBreak depth ++ ['}']

end SourceBundle.Json
