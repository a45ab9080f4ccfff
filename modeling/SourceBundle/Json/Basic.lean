/-
# JSON values

The values of a JSON document.  An object keeps its members in the order of their first mention,
each name once.  Numbers keep their written form: no decision of this library hangs on more than
whether a number is zero.
-/
import SourceBundle.Table
import SourceBundle.Decimal.Numeral

namespace SourceBundle

/-- A JSON value. -/
inductive Json
  /-- The null value. -/
  | null
  /-- A truth value. -/
  | bool (b : Bool)
  /-- A number in its written form. -/
  | number (text : String)
  /-- A string. -/
  | text (s : String)
  /-- An array. -/
  | array (items : List Json)
  /-- An object. -/
  | object (members : List (String × Json))
deriving Inhabited, Repr

namespace Json

/-- The members of an object. -/
def members? : Json → Option (List (String × Json))
  | object ms => some ms
  | _ => none

/-- The member of an object with a given name. -/
def member? (name : String) : Json → Option Json
  | object ms => Table.look name ms
  | _ => none

/-- The string that a value is. -/
def text? : Json → Option String
  | text s => some s
  | _ => none

/-- Whether a value is anything but null, false, zero and the empty containers. -/
def isTruthy : Json → Bool
  | null => false
  | bool b => b
  | number t =>
    match Decimal.readFloat? t with
    | some x => x != 0.0
    | none => true
  | text s => !s.isEmpty
  | array items => !items.isEmpty
  | object ms => !ms.isEmpty

end Json

end SourceBundle
