/-
# The block format of lockfiles

The file is a sequence of blocks.  The first line of a block lists descriptors, each a package and
the range it was declared with, and the block's first line with a version pins them all.  Both
layouts of the format are read: bare descriptors with the range as declared, and quoted ones in
which the range names its protocol.
-/
import SourceBundle.Lock.Basic
import SourceBundle.Text.Blank
import SourceBundle.Text.Cut

namespace SourceBundle.Lock

open SourceBundle.Text

/-- Split at the first at sign behind the first character. -/
def splitAt? : List Char → Option (List Char × List Char)
  | [] => none
  | c :: cs =>
    match cutFirst '@' cs with
    | (_, none) => none
    | (head, some tail) => some (c :: head, tail)

/-- The range that a range with a protocol declares: behind the name of an aliased package. -/
def dropProtocol (range : List Char) : List Char :=
  match dropPrefix? "npm:".toList range with
  | none => range
  | some target =>
    match splitAt? target with
    | some (_, range) => range
    | none => target

/-- The package and the range of a descriptor; the quotes around it do not count. -/
def splitDescriptor? (descriptor : String) : Option (String × String) := do
  let cs := trimChars descriptor.toList
  let cs := dropAround (· == '\'') (dropAround (· == '"') cs)
  let (name, range) ← splitAt? cs
  pure (String.ofList name, String.ofList (dropProtocol range))

/-- The version on a line: blanks, the word, perhaps a colon, blanks, and the version, which may
stand in quotes. -/
def versionOf? (line : List Char) : Option String := do
  let behind (cls : Char → Bool) (cs : List Char) : Option (List Char) :=
    if (cs.takeWhile cls).isEmpty then none else some (cs.dropWhile cls)
  let cs ← behind isBlank line
  let cs ← dropPrefix? "version".toList cs
  let cs := (dropPrefix? [':'] cs).getD cs
  let cs ← behind isBlank cs
  let cs := (dropPrefix? ['"'] cs).getD cs
  let inside (c : Char) : Bool := c != '"' && !isBlank c
  let version := cs.takeWhile inside
  if version.isEmpty then none
  let cs := cs.dropWhile inside
  let cs := (dropPrefix? ['"'] cs).getD cs
  if cs.all isBlank then pure (String.ofList version) else none

/-- The name of the block that describes the file itself. -/
def metadataName : String := "__metadata"

/-- The descriptors of a line without blanks in front: none unless the line ends with a colon. -/
def descriptorsOf (line : List Char) : List (String × String) :=
  let header := dropRight isBlank line
  if header.getLast? = some ':' then
    (pieces ',' header.dropLast).filterMap fun d =>
      (splitDescriptor? (String.ofList d)).filter fun p => p.1 != metadataName
  else []

/-- What has been read of a file. -/
structure Reading where
  /-- The entries so far. -/
  entries : Lockfile
  /-- The descriptors of the block that still wait for their version. -/
  pending : List (String × String)

/-- Read on by a line.  Blank lines and comments do not count. -/
def Reading.line (r : Reading) (line : List Char) : Reading :=
  match line with
  | [] => r
  | c :: _ =>
    let body := line.dropWhile isBlank
    if body.isEmpty || body.head? = some '#' then r
    else if !isBlank c then { r with pending := descriptorsOf line }
    else if r.pending.isEmpty then r
    else
      match versionOf? line with
      | none => r
      | some version =>
        ⟨r.pending.foldl (fun lock d => lock.add d.1 ⟨some d.2, version⟩) r.entries, []⟩

/-- Read a lockfile of blocks. -/
def ofBlocks (content : String) : Lockfile :=
  ((linesOf none content.toList).foldl Reading.line ⟨∅, []⟩).entries

end SourceBundle.Lock
