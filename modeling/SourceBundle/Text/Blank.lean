/-
# Blanks and lines

Which characters count as blank, how a text is trimmed, and where its lines end.  Both sets are
wider than those of ASCII: the separators of Unicode count as blanks, and a line also ends at a
form feed, at the information separators and at the line and paragraph separators.
-/

namespace SourceBundle.Text

/-- Whether a character is blank: the ASCII controls that move the pen, the information
separators, the space and the other space separators of Unicode. -/
def isBlank (c : Char) : Bool :=
  let n := c.toNat
  (9 ≤ n && n ≤ 13) || (28 ≤ n && n ≤ 32) || n == 0x85 || n == 0xA0 || n == 0x1680 ||
    (0x2000 ≤ n && n ≤ 0x200A) || n == 0x2028 || n == 0x2029 || n == 0x202F || n == 0x205F ||
    n == 0x3000

/-- Drop the characters of a class from the right end. -/
def dropRight (p : Char → Bool) (cs : List Char) : List Char :=
  (cs.reverse.dropWhile p).reverse

/-- Drop the characters of a class from both ends. -/
def dropAround (p : Char → Bool) (cs : List Char) : List Char :=
  dropRight p (cs.dropWhile p)

/-- Drop the blanks at both ends. -/
def trimChars (cs : List Char) : List Char := dropAround isBlank cs

/-- A text without the blanks at its ends. -/
def trim (s : String) : String := String.ofList (trimChars s.toList)

/-- Whether a character ends a line. -/
def isLineEnd (c : Char) : Bool :=
  let n := c.toNat
  (10 ≤ n && n ≤ 13) || (28 ≤ n && n ≤ 30) || n == 0x85 || n == 0x2028 || n == 0x2029

/-- The lines of a text, without their ends.  A carriage return and the line feed after it end one
line, and a text that ends with a line end has no further empty line.  The accumulator holds the
line read so far, reversed; it is absent between two lines. -/
def linesOf : Option (List Char) → List Char → List (List Char)
  | none, [] => []
  | some acc, [] => [acc.reverse]
  | acc, '\r' :: '\n' :: rest => (acc.getD []).reverse :: linesOf none rest
  | acc, c :: rest =>
    if isLineEnd c then (acc.getD []).reverse :: linesOf none rest
    else linesOf (some (c :: acc.getD [])) rest

/-- The lines of a text. -/
def lines (s : String) : List String := (linesOf none s.toList).map String.ofList

end SourceBundle.Text
