/-
# Masking a source text

Before import statements are looked for, comments and the contents of string literals are blanked
out.  Masking keeps every offset: a masked character becomes a space, a line feed stays, and so do
the quotes around a literal.  The scanner is in one of four modes; a literal that is not closed
ends with its line.
-/

namespace SourceBundle.Import

/-- Where the scanner stands. -/
inductive Mode
  /-- In the code. -/
  | code
  /-- In a string literal with the given quote. -/
  | literal (quote : Char)
  /-- In a comment that ends with its line. -/
  | lineComment
  /-- In a comment that ends with a star and a slash. -/
  | blockComment
deriving DecidableEq, Repr

/-- What a masked character becomes. -/
def blank (c : Char) : Char := if c = '\n' then '\n' else ' '

/-- Mask the characters that follow in a mode. -/
def maskFrom : Mode → List Char → List Char
  | _, [] => []
  | .code, '/' :: '/' :: rest => ' ' :: ' ' :: maskFrom .lineComment rest
  | .code, '/' :: '*' :: rest => ' ' :: ' ' :: maskFrom .blockComment rest
  | .code, c :: rest =>
    if c = '\'' ∨ c = '"' then c :: maskFrom (.literal c) rest else c :: maskFrom .code rest
  | .lineComment, c :: rest =>
    if c = '\n' then c :: maskFrom .code rest else ' ' :: maskFrom .lineComment rest
  | .blockComment, '*' :: '/' :: rest => ' ' :: ' ' :: maskFrom .code rest
  | .blockComment, c :: rest => blank c :: maskFrom .blockComment rest
  | .literal q, '\\' :: c :: rest => ' ' :: blank c :: maskFrom (.literal q) rest
  | .literal q, c :: rest =>
    if c = q ∨ c = '\n' then c :: maskFrom .code rest else blank c :: maskFrom (.literal q) rest

/-- Blank out the comments and the contents of string literals. -/
def mask (content : String) : String := String.ofList (maskFrom .code content.toList)

end SourceBundle.Import
