/-
# Logging

The level from which on records are written, given by its name, and the file that records are
written to.
-/

namespace SourceBundle.Logging

/-- Capital letters; besides those of ASCII, the dotless i is an I and the long s an S, and two
ligatures are S and T. -/
def capital (c : Char) : List Char :=
  if c.toNat = 0x131 then ['I']
  else if c.toNat = 0x17F then ['S']
  else if c.toNat = 0xFB05 ∨ c.toNat = 0xFB06 then ['S', 'T']
  else [c.toUpper]

/-- What a name stands for among the names of levels. -/
inductive Named
  /-- A level. -/
  | level (n : Int)
  /-- A text, which is no level. -/
  | text
  /-- Something that is neither a number nor a text. -/
  | other
deriving DecidableEq, Repr

/-- What the names stand for that have a meaning. -/
def names : List (String × Named) :=
  [("CRITICAL", .level 50), ("FATAL", .level 50), ("ERROR", .level 40), ("WARNING", .level 30),
    ("WARN", .level 30), ("INFO", .level 20), ("DEBUG", .level 10), ("NOTSET", .level 0),
    ("BASIC_FORMAT", .text), ("_STYLES", .other)]

/-- What a name stands for in any case; an unknown one is the level for information. -/
def named (name : String) : Named :=
  (names.lookup (String.ofList (name.toList.flatMap capital))).getD (.level 20)

/-- The name of a level. -/
def levelName (n : Int) : String :=
  if n = 10 then "DEBUG"
  else if n = 20 then "INFO"
  else if n = 30 then "WARNING"
  else if n = 40 then "ERROR"
  else if n = 50 then "CRITICAL"
  else if n = 0 then "NOTSET"
  else s!"Level {n}"

/-- Whether a record of a level is written when records from another level on are. -/
def isEnabled (root level : Int) : Bool := 0 < level && root ≤ level

/-- The line of a record. -/
def line (level : Int) (text : String) : String := s!"[{levelName level}] {text}\n"

/-- The content of the file after some records. -/
def fileOf (root : Int) (records : List (Int × String)) : String :=
  String.join ((records.filter fun r => isEnabled root r.1).map fun r => line r.1 r.2)

end SourceBundle.Logging
