/-
# Redaction

Values that look like credentials are masked: what follows a sensitive word and an equals sign, up
to the next ampersand.  The case of the words does not matter.
-/
import SourceBundle.Text.Cut

namespace SourceBundle.Url

open SourceBundle.Text

/-- The words whose values are masked; no two begin with the same letter. -/
def sensitiveWords : List (List Char) :=
  ["token".toList, "key".toList, "secret".toList, "password".toList, "auth".toList]

/-- The small letter that a character is a form of: besides the capitals of ASCII, the sign for
kelvin is a k, and the long s is an s. -/
def foldLetter (c : Char) : Char :=
  if c.toNat = 0x212A then 'k' else if c.toNat = 0x17F then 's' else c.toLower

/-- The rest of a text that begins with a word in any case. -/
def dropWord? : List Char → List Char → Option (List Char)
  | [], cs => some cs
  | _ :: _, [] => none
  | w :: ws, c :: cs => if w = foldLetter c then dropWord? ws cs else none

/-- The length of a sensitive word, with the equals sign, that a text begins with. -/
def sensitiveAt? (cs : List Char) : Option Nat :=
  sensitiveWords.findSome? fun w => (dropWord? (w ++ ['=']) cs).map fun _ => w.length + 1

/-- What a masked value becomes. -/
def mark : List Char := "[REDACTED]".toList

/-- What redaction does with the next character. -/
inductive Phase
  /-- Look for a sensitive word. -/
  | search
  /-- Keep the characters of a sensitive word; so many are left. -/
  | keep (n : Nat)
  /-- Leave out the characters of a value. -/
  | omit
deriving DecidableEq, Repr

/-- Mask the values in the characters that follow. -/
def redactFrom : Phase → List Char → List Char
  | .keep 0, [] => mark
  | _, [] => []
  | .search, c :: cs =>
    match sensitiveAt? (c :: cs) with
    | some n => c :: redactFrom (.keep (n - 1)) cs
    | none => c :: redactFrom .search cs
  | .keep (n + 1), c :: cs => c :: redactFrom (.keep n) cs
  | .keep 0, c :: cs =>
    mark ++ if c = '&' then c :: redactFrom .search cs else redactFrom .omit cs
  | .omit, c :: cs => if c = '&' then c :: redactFrom .search cs else redactFrom .omit cs

/-- Mask the values that look like credentials. -/
def redact (text : String) : String := String.ofList (redactFrom .search text.toList)

end SourceBundle.Url
