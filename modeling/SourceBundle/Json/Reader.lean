/-
# Reading JSON

A document is read from the left, and the first thing that does not fit ends the reading with a
complaint and the position it is about.  Only the four blanks of the standard separate tokens.  A
name that an object mentions again keeps its place and takes the later value, the words for
infinity and for no number are numbers, and control characters inside a string are refused.
-/
import SourceBundle.Json.Basic
import SourceBundle.Text.Cut

namespace SourceBundle.Json

open SourceBundle.Text

/-- What does not fit at a position of a document. -/
inductive Complaint
  /-- A value should begin here. -/
  | noValue
  /-- The name of a member should begin here. -/
  | noName
  /-- A colon should stand here. -/
  | noColon
  /-- A comma should stand here. -/
  | noComma
  /-- The document should have ended before this. -/
  | extraData
  /-- The string that begins here does not end. -/
  | unterminated
  /-- A control character inside a string. -/
  | control
  /-- An unknown letter after a backslash. -/
  | badEscape
  /-- An escape without its four hexadecimal digits. -/
  | badCodePoint
  /-- A byte order mark in front of the document. -/
  | byteOrderMark
deriving DecidableEq, Repr

/-- The complaint in words. -/
def Complaint.message : Complaint → String
  | .noValue => "Expecting value"
  | .noName => "Expecting property name enclosed in double quotes"
  | .noColon => "Expecting ':' delimiter"
  | .noComma => "Expecting ',' delimiter"
  | .extraData => "Extra data"
  | .unterminated => "Unterminated string starting at"
  | .control => "Invalid control character at"
  | .badEscape => "Invalid \\escape"
  | .badCodePoint => "Invalid \\uXXXX escape"
  | .byteOrderMark => "Unexpected UTF-8 BOM (decode using utf-8-sig)"

/-- Why a document cannot be read. -/
inductive ReadFault
  /-- It breaks the grammar at a position. -/
  | misfit (complaint : Complaint) (position : Nat)
  /-- It holds an integer of more digits than are turned into a number. -/
  | numberTooLong
deriving DecidableEq, Repr

/-- The line and the column of a position, both counted from one. -/
def lineColumn (cs : List Char) (position : Nat) : Nat × Nat :=
  let before := cs.take position
  (before.count '\n' + 1, (before.reverse.takeWhile (· != '\n')).length + 1)

/-- A complaint in words, with its place in the document. -/
def Complaint.describe (c : Complaint) (document : String) (position : Nat) : String :=
  let (line, column) := lineColumn document.toList position
  s!"{c.message}: line {line} column {column} (char {position})"

/-- What is left to read, and its position. -/
structure Cursor where
  /-- The characters still to be read. -/
  rest : List Char
  /-- The number of characters read. -/
  pos : Nat
deriving DecidableEq, Repr

/-- Whether a character is one of the four blanks of the standard. -/
def isGap (c : Char) : Bool := c == ' ' || c == '\t' || c == '\n' || c == '\r'

/-- Pass over the blanks at a position. -/
def skipGaps (c : Cursor) : Cursor :=
  ⟨c.rest.dropWhile isGap, c.pos + (c.rest.takeWhile isGap).length⟩

/-- The character that a letter stands for after a backslash. -/
def escaped? : Char → Option Char
  | '"' => some '"'
  | '\\' => some '\\'
  | '/' => some '/'
  | 'b' => some '\x08'
  | 'f' => some '\x0c'
  | 'n' => some '\n'
  | 'r' => some '\r'
  | 't' => some '\t'
  | _ => none

/-- The value of a hexadecimal digit. -/
def hexValue? (c : Char) : Option Nat :=
  if c.isDigit then some (c.toNat - 48)
  else if 'a' ≤ c ∧ c ≤ 'f' then some (c.toNat - 87)
  else if 'A' ≤ c ∧ c ≤ 'F' then some (c.toNat - 55)
  else none

/-- The number that four hexadecimal digits denote. -/
def hexQuad? (a b c d : Char) : Option Nat := do
  let a ← hexValue? a
  let b ← hexValue? b
  let c ← hexValue? c
  let d ← hexValue? d
  pure (((a * 16 + b) * 16 + c) * 16 + d)

/-- Whether a number is the first half of a pair that denotes one code point. -/
def isHighHalf (n : Nat) : Bool := 0xD800 ≤ n && n < 0xDC00

/-- Whether a number is the second half of a pair that denotes one code point. -/
def isLowHalf (n : Nat) : Bool := 0xDC00 ≤ n && n < 0xE000

/-- The character with a code point; a half that stands alone is none and is replaced. -/
def charOf (n : Nat) : Char :=
  if 0xD800 ≤ n ∧ n < 0xE000 then Char.ofNat 0xFFFD else Char.ofNat n

/-- The character that a pair of halves denotes. -/
def joinHalves (high low : Nat) : Char :=
  Char.ofNat (0x10000 + (high - 0xD800) * 0x400 + (low - 0xDC00))

/-- Read a string from behind its opening quote, which stands at `start`.  An escape by code point
must be followed by a further character, since at least the closing quote is still to come. -/
def readText (start : Nat) : List Char → Nat → Except ReadFault (List Char × Cursor)
  | [], _ => .error (.misfit .unterminated start)
  | '"' :: rest, pos => .ok ([], ⟨rest, pos + 1⟩)
  | ['\\'], _ => .error (.misfit .unterminated start)
  | '\\' :: 'u' :: a :: b :: c :: d :: next :: rest, pos =>
    match hexQuad? a b c d with
    | none => .error (.misfit .badCodePoint (pos + 1))
    | some high =>
      if isHighHalf high then
        match next, rest with
        | '\\', 'u' :: e :: f :: g :: h :: last :: rest =>
          match hexQuad? e f g h with
          | none => .error (.misfit .badCodePoint (pos + 7))
          | some low =>
            if isLowHalf low then do
              let (cs, stop) ← readText start (last :: rest) (pos + 12)
              pure (joinHalves high low :: cs, stop)
            else do
              let (cs, stop) ← readText start ('\\' :: 'u' :: e :: f :: g :: h :: last :: rest) (pos + 6)
              pure (charOf high :: cs, stop)
        | next, rest => do
          let (cs, stop) ← readText start (next :: rest) (pos + 6)
          pure (charOf high :: cs, stop)
      else do
        let (cs, stop) ← readText start (next :: rest) (pos + 6)
        pure (charOf high :: cs, stop)
  | '\\' :: 'u' :: _, pos => .error (.misfit .badCodePoint (pos + 1))
  | '\\' :: c :: rest, pos =>
    match escaped? c with
    | none => .error (.misfit .badEscape pos)
    | some e => do
      let (cs, stop) ← readText start rest (pos + 2)
      pure (e :: cs, stop)
  | c :: rest, pos =>
    if c.toNat < 32 then .error (.misfit .control pos)
    else do
      let (cs, stop) ← readText start rest (pos + 1)
      pure (c :: cs, stop)
termination_by cs => cs.length

/-- The longest number that a text begins with, and whether it is an integer. -/
def numberPrefix? (cs : List Char) : Option (List Char × Bool) :=
  let (sign, body) := match cs with
    | '-' :: rest => (['-'], rest)
    | _ => ([], cs)
  let whole? := match body with
    | [] => none
    | '0' :: _ => some ['0']
    | c :: _ => if c.isDigit then some (body.takeWhile Char.isDigit) else none
  whole?.map fun whole =>
    let rest := body.drop whole.length
    let fraction := match rest with
      | '.' :: r => let ds := r.takeWhile Char.isDigit; if ds.isEmpty then [] else '.' :: ds
      | _ => []
    let rest := rest.drop fraction.length
    let power := match rest with
      | e :: r =>
        if e = 'e' ∨ e = 'E' then
          let (s, r) := match r with
            | '-' :: r => (['-'], r)
            | '+' :: r => (['+'], r)
            | r => ([], r)
          let ds := r.takeWhile Char.isDigit
          if ds.isEmpty then [] else e :: s ++ ds
        else []
      | [] => []
    (sign ++ whole ++ fraction ++ power, fraction.isEmpty && power.isEmpty)

/-- The words that are values, with what they denote. -/
def wordValues : List (List Char × Json) :=
  [("null".toList, null), ("true".toList, bool true), ("false".toList, bool false),
    ("NaN".toList, number "nan"), ("Infinity".toList, number "inf"),
    ("-Infinity".toList, number "-inf")]

/-- The value that is a word or a number at a position. -/
def readAtom (c : Cursor) : Except ReadFault (Json × Cursor) :=
  match wordValues.find? fun w => beginsWith w.1 c.rest with
  | some (word, value) => .ok (value, ⟨c.rest.drop word.length, c.pos + word.length⟩)
  | none =>
    match numberPrefix? c.rest with
    | none => .error (.misfit .noValue c.pos)
    | some (written, isInteger) =>
      if isInteger && (written.filter Char.isDigit).length > longestNumeral then
        .error .numberTooLong
      else
        .ok (number (String.ofList written), ⟨c.rest.drop written.length, c.pos + written.length⟩)

mutual

/-- Read the value at a position. -/
def readValue (fuel : Nat) (c : Cursor) : Except ReadFault (Json × Cursor) :=
  match fuel with
  | 0 => .error (.misfit .noValue c.pos)
  | fuel + 1 =>
    match c.rest with
    | '"' :: rest => do
      let (cs, stop) ← readText c.pos rest (c.pos + 1)
      pure (text (String.ofList cs), stop)
    | '{' :: rest =>
      let c := skipGaps ⟨rest, c.pos + 1⟩
      match c.rest with
      | '}' :: rest => .ok (object [], ⟨rest, c.pos + 1⟩)
      | _ => readMembers fuel [] c
    | '[' :: rest =>
      let c := skipGaps ⟨rest, c.pos + 1⟩
      match c.rest with
      | ']' :: rest => .ok (array [], ⟨rest, c.pos + 1⟩)
      | _ => readItems fuel [] c
    | _ => readAtom c

/-- Read the members of an object from the name of the next one on. -/
def readMembers (fuel : Nat) (members : List (String × Json)) (c : Cursor) :
    Except ReadFault (Json × Cursor) :=
  match fuel with
  | 0 => .error (.misfit .noName c.pos)
  | fuel + 1 =>
    match c.rest with
    | '"' :: rest => do
      let (name, c) ← readText c.pos rest (c.pos + 1)
      let c := skipGaps c
      match c.rest with
      | ':' :: rest =>
        let (value, c) ← readValue fuel (skipGaps ⟨rest, c.pos + 1⟩)
        let members := Table.put (String.ofList name) value members
        let c := skipGaps c
        match c.rest with
        | '}' :: rest => pure (object members, ⟨rest, c.pos + 1⟩)
        | ',' :: rest => readMembers fuel members (skipGaps ⟨rest, c.pos + 1⟩)
        | _ => throw (.misfit .noComma c.pos)
      | _ => throw (.misfit .noColon c.pos)
    | _ => .error (.misfit .noName c.pos)

/-- Read the items of an array from the next one on; those read so far come reversed. -/
def readItems (fuel : Nat) (items : List Json) (c : Cursor) : Except ReadFault (Json × Cursor) :=
  match fuel with
  | 0 => .error (.misfit .noValue c.pos)
  | fuel + 1 => do
    let (value, c) ← readValue fuel c
    let c := skipGaps c
    match c.rest with
    | ']' :: rest => pure (array (value :: items).reverse, ⟨rest, c.pos + 1⟩)
    | ',' :: rest => readItems fuel (value :: items) (skipGaps ⟨rest, c.pos + 1⟩)
    | _ => throw (.misfit .noComma c.pos)

end

/-- Read the characters of a document, of which a mark at the beginning has been taken off.  Every
second step of the reading passes a character. -/
def readUnmarked (cs : List Char) : Except ReadFault Json := do
  let (value, c) ← readValue (2 * cs.length + 2) (skipGaps ⟨cs, 0⟩)
  let c := skipGaps c
  match c.rest with
  | [] => pure value
  | _ => throw (.misfit .extraData c.pos)

/-- Read the characters of a document, which must not begin with a mark. -/
def readChars (cs : List Char) : Except ReadFault Json :=
  if cs.head? = some '\ufeff' then .error (.misfit .byteOrderMark 0) else readUnmarked cs

/-- Read a document. -/
def read (document : String) : Except ReadFault Json := readChars document.toList

end SourceBundle.Json
