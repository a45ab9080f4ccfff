/-
# Configuration documents

A document is a mapping of one key per line, a mapping or a list in brackets, a list of one item
per line, or a scalar.  Comments and blank lines do not count, nor does the mark in front of a
document.  The values of a mapping are scalars and flat lists and mappings in brackets.
-/
import SourceBundle.Settings.Apply
import SourceBundle.Settings.Scalar
import SourceBundle.Table

namespace SourceBundle.Settings

open SourceBundle.Text

/-- The places at which a character of a line can stand. -/
inductive Place
  /-- Where a scalar may begin. -/
  | fresh
  /-- In a plain scalar, or behind a scalar. -/
  | plain
  /-- In single quotes. -/
  | single
  /-- In double quotes. -/
  | double
deriving DecidableEq, Repr

/-- The place behind a character outside quotes, which the given text follows: a scalar may begin
behind a bracket, a comma, a separating colon and the dash of an item. -/
def Place.behind (p : Place) (c : Char) (rest : List Char) : Place :=
  if isSpace c then p
  else if c == '[' || c == '{' || c == ',' then .fresh
  else if (c == ':' || (c == '-' && p == .fresh)) && rest.head?.all isSpace then .fresh
  else .plain

/-- The characters of a line, each with whether it belongs to a quoted scalar. -/
def markQuoted : Place → List Char → List (Char × Bool)
  | _, [] => []
  | .single, '\'' :: '\'' :: rest => ('\'', true) :: ('\'', true) :: markQuoted .single rest
  | .single, c :: rest => (c, true) :: markQuoted (if c == '\'' then .plain else .single) rest
  | .double, '\\' :: c :: rest => ('\\', true) :: (c, true) :: markQuoted .double rest
  | .double, c :: rest => (c, true) :: markQuoted (if c == '"' then .plain else .double) rest
  | .fresh, '\'' :: rest => ('\'', true) :: markQuoted .single rest
  | .fresh, '"' :: rest => ('"', true) :: markQuoted .double rest
  | p, c :: rest => (c, false) :: markQuoted (p.behind c rest) rest

/-- The part of a line in front of its comment, which a hash outside quotes begins at the start of
the line or behind a space; the flag tells whether the line stands there. -/
def frontOf : Bool → List (Char × Bool) → List Char
  | _, [] => []
  | open_, (c, quoted) :: rest =>
    if open_ && c == '#' && !quoted then [] else c :: frontOf (isSpace c) rest

/-- A line without its comment. -/
def dropComment (line : List Char) : List Char := frontOf true (markQuoted .fresh line)

/-- Split a marked text at the commas outside quotes. -/
def splitMarked : List (Char × Bool) → List (List Char)
  | [] => [[]]
  | (c, quoted) :: rest =>
    if c == ',' && !quoted then [] :: splitMarked rest
    else
      match splitMarked rest with
      | [] => [[c]]
      | p :: ps => (c :: p) :: ps

/-- The items of a text, between its commas outside quotes. -/
def splitItems (cs : List Char) : List (List Char) := splitMarked (markQuoted .fresh cs)

/-- Split a marked text at the colon that separates a key from its value.  A space or the end
follows it; with `tight` it may also stand directly behind a quoted key. -/
def splitAtColon? (tight : Bool) : Bool → List (Char × Bool) → Option (List Char × List Char)
  | _, [] => none
  | behindQuote, (c, quoted) :: rest =>
    let separates := (rest.head?.all fun r => isSpace r.1) || (tight && behindQuote)
    if c == ':' && !quoted && separates then some ([], rest.map (·.1))
    else (splitAtColon? tight quoted rest).map fun (k, v) => (c :: k, v)

/-- The key and the value of an entry. -/
def splitKey? (tight : Bool) (cs : List Char) : Option (List Char × List Char) :=
  splitAtColon? tight false (markQuoted .fresh cs)

/-- The key that a scalar is used as. -/
def keyOf (v : Value) : String :=
  match v with
  | .text s => s
  | .null => "null"
  | .bool b => if b then "true" else "false"
  | v => v.shown

/-- The items between two brackets; nothing when the closing one is missing.  One comma may stand
behind the last item. -/
def inBrackets? (close : Char) (cs : List Char) : Option (List (List Char)) :=
  if cs.getLast? = some close then
    let items := (splitItems cs.dropLast).map trimSpaces
    some (if items.getLast? = some [] then items.dropLast else items)
  else none

/-- The key and the value of an item of a mapping in brackets. -/
def flowEntry? (cs : List Char) : Option (String × Value) :=
  match splitKey? true cs with
  | none => (scalar? cs).map fun k => (keyOf k, .null)
  | some (k, v) => do
    let k ← scalar? (trimSpaces k)
    let v ← scalar? (trimSpaces v)
    pure (keyOf k, v)

/-- The mapping with the given entries; of several with one key the last one counts. -/
def mappingOf (es : List (String × Value)) : Value :=
  .mapping (Table.ofList es).entries

/-- The value of a text without spaces around it: in brackets, or a scalar. -/
def flow? (cs : List Char) : Option Value :=
  match cs with
  | '[' :: rest => do
    let items ← inBrackets? ']' rest
    let vs ← items.mapM scalar?
    pure (.list vs)
  | '{' :: rest => do
    let items ← inBrackets? '}' rest
    let es ← items.mapM flowEntry?
    pure (mappingOf es)
  | cs => scalar? cs

/-- The key and the value of a line. -/
def lineEntry? (cs : List Char) : Option (String × Value) := do
  let (k, v) ← splitKey? false cs
  let k ← scalar? (trimSpaces k)
  let v ← flow? (trimSpaces v)
  pure (keyOf k, v)

/-- The item of a line of a list. -/
def lineItem? : List Char → Option Value
  | ['-'] => some .null
  | '-' :: ' ' :: rest => flow? (trimSpaces rest)
  | _ => none

/-- Whether a character may stand in a document. -/
def isAllowed (c : Char) : Bool :=
  let n := c.toNat
  n == 9 || n == 10 || n == 13 || (32 ≤ n && n ≤ 126) || n == 0x85 || (0xA0 ≤ n && n ≤ 0xFFFD) ||
    0x10000 ≤ n

/-- Read a document; nothing when it is malformed. -/
def readDocument? (content : String) : Option Value :=
  if !content.toList.all isAllowed then none
  else
    let cs := match content.toList with
      | c :: rest => if c = '\ufeff' then rest else c :: rest
      | [] => []
    let ls := ((linesOf none cs).map fun l => dropRight isSpace (dropComment l)).filter
      (!List.isEmpty ·)
    let ls := if ls.head? = some "---".toList then ls.drop 1 else ls
    match ls with
    | [] => some .null
    | first :: _ =>
      if (lineItem? first).isSome then (ls.mapM lineItem?).map .list
      else if first.head? = some '{' ∨ first.head? = some '[' then
        flow? (trimSpaces (List.intercalate [' '] ls))
      else if (splitKey? false first).isSome then (ls.mapM lineEntry?).map mappingOf
      else flow? (trimSpaces (List.intercalate [' '] (ls.map trimSpaces)))

/-! ## Loading a document -/

/-- The file that is looked for when none is named. -/
def defaultFile : String := "solbundle.yml"

/-- What has come of loading a configuration. -/
inductive Outcome
  /-- There is no such file; the flag tells whether it was asked for by its path. -/
  | missing (named : Bool) (file : String)
  /-- The file is malformed. -/
  | malformed (file : String)
  /-- The document is no mapping. -/
  | noMapping (file : String)
  /-- The document was applied. -/
  | applied (file : String) (c : Configuration) (a : Applied)

/-- Load and apply a configuration: the file with the given path, else the one that the
environment names, else the default one.  An empty path or name counts as none, and a document
without content as a mapping without entries. -/
def load (s : Settings) (contentOf : String → Option String) (path? env? : Option String) : Outcome :=
  let path? := path?.filter (!String.isEmpty ·)
  let env? := env?.filter (!String.isEmpty ·)
  let file := path?.getD (env?.getD defaultFile)
  match contentOf file with
  | none => .missing path?.isSome file
  | some content =>
    match readDocument? content with
    | none => .malformed file
    | some v =>
      if v.isTruthy then
        match v with
        | .mapping es =>
          let c := Table.ofList es
          .applied file c (s.apply c)
        | _ => .noMapping file
      else .applied file ∅ (s.apply ∅)

end SourceBundle.Settings
