/-
# Reading numbers

Numbers written by people: blanks around them are ignored, the digits may be of any script, and an
underscore may stand between two digits.  A decimal fraction may leave out the digits on one side
of its point, and the words for infinity and for no number are read in any case.
-/
import SourceBundle.Text.Blank
import SourceBundle.Text.Digit

namespace SourceBundle.Decimal

open SourceBundle.Text

/-- The value of an ASCII digit. -/
def asciiDigit? (c : Char) : Option Nat := if c.isDigit then some (c.toNat - 48) else none

/-- Whether a character may stand around a number: any blank but the information separators. -/
def isMargin (c : Char) : Bool := isBlank c && !(28 ≤ c.toNat && c.toNat ≤ 31)

/-- A text as its number is read: without the blanks around it, and with the digits of all scripts
as those of ASCII. -/
def plainForm (s : String) : List Char :=
  (dropAround isMargin s.toList).map fun c =>
    match digitValue? c with
    | some d => Char.ofNat (48 + d)
    | none => c

/-- Drop the underscores that stand between two digits; any other underscore makes the text
unreadable.  The flag tells whether the last character was a digit. -/
def dropUnderscores? : Bool → List Char → Option (List Char)
  | _, [] => some []
  | digitBefore, '_' :: rest =>
    match rest with
    | d :: _ => if digitBefore && d.isDigit then dropUnderscores? false rest else none
    | [] => none
  | _, c :: rest => (dropUnderscores? c.isDigit rest).map (c :: ·)

/-- The sign in front of a number: whether it is negative, and what follows. -/
def splitSign : List Char → Bool × List Char
  | '-' :: rest => (true, rest)
  | '+' :: rest => (false, rest)
  | cs => (false, cs)

/-- The integer that a text denotes. -/
def readInteger? (s : String) : Option Int := do
  let cs ← dropUnderscores? false (plainForm s)
  let (negative, ds) := splitSign cs
  if ds.isEmpty || !ds.all Char.isDigit || ds.length > longestNumeral then none
  else
    let n : Int := numberOf ds
    some (if negative then -n else n)

/-- The floating-point number nearest to `digits · 10 ^ exponent`, where `digits` has at most
`count` digits.  Exponents far outside the format are settled by their size alone. -/
def nearestFloat (digits count : Nat) (exponent : Int) : Float :=
  if digits = 0 then 0.0
  else if exponent + count > 400 ∧ exponent > 400 then 1.0 / 0.0
  else if exponent + count < -400 then 0.0
  else if 0 ≤ exponent then Float.ofScientific (digits * Nat.pow 10 exponent.toNat) false 0
  else Float.ofScientific digits true (-exponent).toNat

/-- An unsigned decimal with an optional fraction and exponent. -/
def readDecimal? (cs : List Char) : Option Float :=
  let whole := cs.takeWhile Char.isDigit
  let rest := cs.dropWhile Char.isDigit
  let (fraction, rest) :=
    match rest with
    | '.' :: r => (r.takeWhile Char.isDigit, r.dropWhile Char.isDigit)
    | _ => ([], rest)
  if whole.isEmpty && fraction.isEmpty then none
  else
    let digits := numberOf (whole ++ fraction)
    let count := whole.length + fraction.length
    match rest with
    | [] => some (nearestFloat digits count (-fraction.length))
    | c :: r =>
      if c = 'e' ∨ c = 'E' then
        let (negative, power) := splitSign r
        if power.isEmpty || !power.all Char.isDigit then none
        else
          let p : Int := numberOf power
          some (nearestFloat digits count ((if negative then -p else p) - fraction.length))
      else none

/-- The floating-point number that a text denotes. -/
def readFloat? (s : String) : Option Float := do
  let cs ← dropUnderscores? false (plainForm s)
  let (negative, body) := splitSign cs
  let word := String.ofList (body.map Char.toLower)
  let size ←
    if word = "inf" ∨ word = "infinity" then some (1.0 / 0.0)
    else if word = "nan" then some (0.0 / 0.0)
    else readDecimal? body
  pure (if negative then -size else size)

end SourceBundle.Decimal
