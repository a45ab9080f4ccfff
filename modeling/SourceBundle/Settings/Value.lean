/-
# Values of a configuration

The values that a configuration document can give to a setting, how they are shown in a message,
and how they are turned into the type that the setting has.
-/
import SourceBundle.Decimal.Numeral
import SourceBundle.Decimal.Shortest
import SourceBundle.Text.Quoted

namespace SourceBundle.Settings

open SourceBundle.Text

/-- A value of a configuration document. -/
inductive Value
  /-- No value. -/
  | null
  /-- A truth value. -/
  | bool (b : Bool)
  /-- An integer. -/
  | int (n : Int)
  /-- A floating-point number. -/
  | float (x : Float)
  /-- A text. -/
  | text (s : String)
  /-- A list. -/
  | list (items : List Value)
  /-- A mapping. -/
  | mapping (entries : List (String × Value))
deriving Inhabited

namespace Value

/-- The value as it is shown in a message. -/
def shown : Value → String
  | null => "None"
  | bool b => if b then "True" else "False"
  | int n => toString n
  | float x => Decimal.render x
  | text s => quoted s
  | list items => "[" ++ ", ".intercalate (shownAll items) ++ "]"
  | mapping entries => "\x7b" ++ ", ".intercalate (shownEntries entries) ++ "\x7d"
where
  /-- The values of a list as they are shown. -/
  shownAll : List Value → List String
    | [] => []
    | v :: vs => v.shown :: shownAll vs
  /-- The entries of a mapping as they are shown. -/
  shownEntries : List (String × Value) → List String
    | [] => []
    | (k, v) :: es => (quoted k ++ ": " ++ v.shown) :: shownEntries es

/-- Whether a value counts as true. -/
def isTruthy : Value → Bool
  | null => false
  | bool b => b
  | int n => n != 0
  | float x => x != 0.0
  | text s => !s.isEmpty
  | list items => !items.isEmpty
  | mapping entries => !entries.isEmpty

/-- Why a value cannot be turned into the type of a setting. -/
inductive Misfit
  /-- It is of another kind, or its text denotes no such value. -/
  | invalid
  /-- It is a number that the type cannot hold. -/
  | overflow
deriving DecidableEq, Repr

/-- The value as an integer; a fraction is cut off. -/
def toInt : Value → Except Misfit Int
  | bool b => .ok (if b then 1 else 0)
  | int n => .ok n
  | float x => if x.isNaN then .error .invalid else if x.isInf then .error .overflow else .ok (Decimal.truncate x)
  | text s => match Decimal.readInteger? s with
    | some n => .ok n
    | none => .error .invalid
  | _ => .error .invalid

/-- The value as a floating-point number. -/
def toFloat : Value → Except Misfit Float
  | bool b => .ok (if b then 1.0 else 0.0)
  | int n =>
    let digits := (Nat.toDigits 10 n.natAbs).length
    let size := Decimal.nearestFloat n.natAbs digits 0
    if digits > 400 || size.isInf then .error .overflow else .ok (if n < 0 then -size else size)
  | float x => .ok x
  | text s => match Decimal.readFloat? s with
    | some x => .ok x
    | none => .error .invalid
  | _ => .error .invalid

/-- Whether a value can be written: an integer of too many digits cannot, nor what holds one. -/
def isWritable : Value → Bool
  | int n => (Nat.toDigits 10 n.natAbs).length ≤ longestNumeral
  | list items => allWritable items
  | mapping entries => entriesWritable entries
  | _ => true
where
  /-- Whether the values of a list can be written. -/
  allWritable : List Value → Bool
    | [] => true
    | v :: vs => v.isWritable && allWritable vs
  /-- Whether the values of a mapping can be written. -/
  entriesWritable : List (String × Value) → Bool
    | [] => true
    | (_, v) :: es => v.isWritable && entriesWritable es

/-- The value as a text. -/
def toText : Value → Except Misfit String
  | text s => .ok s
  | v => if v.isWritable then .ok v.shown else .error .invalid

/-- The words that are read as true. -/
def affirmations : List String := ["1", "true", "yes", "on"]

/-- The value as a truth value; of a text only certain words are true. -/
def toBool : Value → Bool
  | text s => affirmations.contains (String.ofList ((trimChars s.toList).map Char.toLower))
  | v => v.isTruthy

end Value

end SourceBundle.Settings
