/-
# Scalars of a configuration document

A scalar stands in single quotes, where a quote is written twice, in double quotes, where a
backslash escapes, or plain.  A plain one is a truth value, a number or nothing when it has the
form of one, and a text otherwise.
-/
import SourceBundle.Settings.Value
import SourceBundle.Text.Blank
import SourceBundle.Text.Cut

namespace SourceBundle.Settings

open SourceBundle.Text

/-- The words for truth values. -/
def truthWords : List (String × Bool) :=
  [("yes", true), ("Yes", true), ("YES", true), ("no", false), ("No", false), ("NO", false),
    ("true", true), ("True", true), ("TRUE", true), ("false", false), ("False", false),
    ("FALSE", false), ("on", true), ("On", true), ("ON", true), ("off", false), ("Off", false),
    ("OFF", false)]

/-- The words for no value. -/
def nullWords : List String := ["", "~", "null", "Null", "NULL"]

/-- Whether a character is a digit or the mark that may separate digits. -/
def isDigitOrMark (c : Char) : Bool := c.isDigit || c == '_'

/-- The value of a digit up to `f`. -/
def digitOf (c : Char) : Nat :=
  if c.isDigit then c.toNat - 48 else if 'a' ≤ c && c ≤ 'f' then c.toNat - 87 else c.toNat - 55

/-- The number with some digits in a base; marks between them do not count. -/
def inBase (base : Nat) (cs : List Char) : Nat :=
  (cs.filter (· != '_')).foldl (fun n c => base * n + digitOf c) 0

/-- Whether some characters are digits of a base, perhaps with marks between them, and there are
any. -/
def areDigits (isOne : Char → Bool) (cs : List Char) : Bool :=
  cs.any isOne && cs.all fun c => isOne c || c == '_'

/-- Whether a text is a number below sixty, as it stands behind a colon. -/
def isSixtieth (cs : List Char) : Bool :=
  !cs.isEmpty && cs.length ≤ 2 && cs.all Char.isDigit && numberOf cs < 60

/-- The number of an unsigned plain scalar: decimal, binary, octal or hexadecimal behind a zero, or
in sixtieths. -/
def plainNat? (body : List Char) : Option Nat :=
  match body with
  | ['0'] => some 0
  | '0' :: 'b' :: ds =>
    if areDigits (fun c => c == '0' || c == '1') ds then some (inBase 2 ds) else none
  | '0' :: 'x' :: ds =>
    if areDigits (fun c => c.isDigit || ('a' ≤ c && c ≤ 'f') || ('A' ≤ c && c ≤ 'F')) ds then
      some (inBase 16 ds)
    else none
  | '0' :: ds => if ds.all fun c => c == '_' || ('0' ≤ c && c ≤ '7') then some (inBase 8 ds) else none
  | cs =>
    match pieces ':' cs with
    | [] => none
    | first :: others =>
      if first.head?.any Char.isDigit && first.all isDigitOrMark && others.all isSixtieth then
        some (others.foldl (fun n ds => 60 * n + numberOf ds) (inBase 10 first))
      else none

/-- The integer of a plain scalar. -/
def plainInt? (cs : List Char) : Option Int :=
  let (negative, body) := Decimal.splitSign cs
  (plainNat? body).map fun n => if negative then -(n : Int) else n

/-- The floating-point number of a plain scalar.  It needs a point, and its exponent a sign. -/
def plainFloat? (cs : List Char) : Option Float :=
  let (negative, body) := Decimal.splitSign cs
  let signed (x : Float) : Float := if negative then -x else x
  let word := String.ofList body
  if word = ".inf" ∨ word = ".Inf" ∨ word = ".INF" then some (signed (1.0 / 0.0))
  else if cs = body ∧ (word = ".nan" ∨ word = ".NaN" ∨ word = ".NAN") then some (0.0 / 0.0)
  else
    let whole := body.takeWhile isDigitOrMark
    match body.dropWhile isDigitOrMark with
    | '.' :: rest =>
      let fraction := rest.takeWhile isDigitOrMark
      let power := rest.dropWhile isDigitOrMark
      let powered := match power with
        | [] => true
        | e :: s :: ds => (e == 'e' || e == 'E') && (s == '+' || s == '-') && !ds.isEmpty && ds.all Char.isDigit
        | _ => false
      let headed := match whole with
        | [] => cs == body && fraction.head?.any Char.isDigit
        | c :: _ => c.isDigit
      if powered && headed then
        (Decimal.readDecimal? (body.filter (· != '_'))).map signed
      else none
    | _ => none

/-- The value of a plain scalar. -/
def plain (cs : List Char) : Value :=
  let word := String.ofList cs
  if nullWords.contains word then .null
  else
    match truthWords.lookup word with
    | some b => .bool b
    | none =>
      match plainInt? cs with
      | some n => .int n
      | none => match plainFloat? cs with
        | some x => .float x
        | none => .text word

/-- Read a scalar from behind its single quote, and what follows it. -/
def readSingle : List Char → Option (List Char × List Char)
  | [] => none
  | '\'' :: '\'' :: rest => (readSingle rest).map fun (cs, r) => ('\'' :: cs, r)
  | '\'' :: rest => some ([], rest)
  | c :: rest => (readSingle rest).map fun (cs, r) => (c :: cs, r)

/-- The character that a letter stands for behind a backslash. -/
def escapeOf? : Char → Option Char
  | '0' => some '\x00'
  | 'a' => some '\x07'
  | 'b' => some '\x08'
  | 't' => some '\t'
  | 'n' => some '\n'
  | 'v' => some '\x0b'
  | 'f' => some '\x0c'
  | 'r' => some '\r'
  | 'e' => some '\x1b'
  | ' ' => some ' '
  | '"' => some '"'
  | '/' => some '/'
  | '\\' => some '\\'
  | 'N' => some '\u0085'
  | '_' => some '\u00a0'
  | 'L' => some '\u2028'
  | 'P' => some '\u2029'
  | _ => none

/-- Read a scalar from behind its double quote, and what follows it. -/
def readDouble : List Char → Option (List Char × List Char)
  | [] => none
  | '\\' :: c :: rest => do
    let e ← escapeOf? c
    let (cs, r) ← readDouble rest
    pure (e :: cs, r)
  | '"' :: rest => some ([], rest)
  | c :: rest => (readDouble rest).map fun (cs, r) => (c :: cs, r)

/-- The characters that cannot begin a plain scalar. -/
def indicators : List Char := ['&', '*', '!', '|', '>', '%', '@', '\x60', ']', '}', ',']

/-- Whether a character separates words within a line. -/
def isSpace (c : Char) : Bool := c == ' ' || c == '\t'

/-- Whether a colon separates a key from a value somewhere in a text. -/
def hasSeparator : List Char → Bool
  | [] => false
  | c :: rest => (c == ':' && rest.head?.all isSpace) || hasSeparator rest

/-- Drop the spaces at both ends. -/
def trimSpaces (cs : List Char) : List Char := dropAround isSpace cs

/-- The value of a scalar without spaces around it; the mark of an item or of a key is none. -/
def scalar? (cs : List Char) : Option Value :=
  match cs with
  | '\'' :: rest =>
    match readSingle rest with
    | some (t, []) => some (.text (String.ofList t))
    | _ => none
  | '"' :: rest =>
    match readDouble rest with
    | some (t, []) => some (.text (String.ofList t))
    | _ => none
  | c :: rest =>
    let marks := (c == '-' || c == '?') && rest.head?.all isSpace
    if indicators.contains c || marks || hasSeparator cs then none else some (plain cs)
  | [] => some .null

end SourceBundle.Settings
