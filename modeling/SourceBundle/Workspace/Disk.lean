/-
# A workspace on disk

A tree of files and directories of which one directory is the workspace.  A path is taken relative
to it, its dots are resolved by their text, and one that then leads out of the directory is
refused.  There are no links.

A file is written under a temporary name beside it and then takes its place in one step.  What the
operating system refuses is reported with its number, its reason and the place.
-/
import SourceBundle.Fault.Basic
import SourceBundle.Text.Utf8

namespace SourceBundle.Workspace

open SourceBundle.Text

/-- A place in the tree: the names on the way to it. -/
abbrev Place := List String

/-- What stands at a place. -/
inductive Entry
  /-- A file with its bytes. -/
  | file (bytes : List UInt8)
  /-- A directory. -/
  | dir
deriving DecidableEq, Repr

/-- Why the operating system refuses. -/
inductive Refusal
  /-- There is nothing. -/
  | notFound
  /-- There is something already. -/
  | present
  /-- Something that is no directory stands on the way. -/
  | notDirectory
  /-- It is a directory. -/
  | isDirectory
  /-- A name or the whole path is too long. -/
  | tooLong
deriving DecidableEq, Repr

namespace Refusal

/-- The number of a refusal. -/
def number : Refusal → Nat
  | notFound => 2
  | present => 17
  | notDirectory => 20
  | isDirectory => 21
  | tooLong => 36

/-- The reason in words. -/
def reason : Refusal → String
  | notFound => "No such file or directory"
  | present => "File exists"
  | notDirectory => "Not a directory"
  | isDirectory => "Is a directory"
  | tooLong => "File name too long"

/-- The refusal in words, with the places that it concerns. -/
def message (r : Refusal) (shown : String) : String := s!"[Errno {r.number}] {r.reason}: {shown}"

end Refusal

/-- A tree of files and directories, and the directory that is the workspace. -/
structure Disk where
  /-- The directory that is the workspace. -/
  root : Place
  /-- What stands at the places of the tree, the outermost directory apart. -/
  entries : Table Place Entry

namespace Disk

/-- The most bytes that a name can have. -/
def nameLimit : Nat := 255

/-- The most bytes that a path can have. -/
def pathLimit : Nat := 4095

/-- The path of a place. -/
def pathOf (p : Place) : String := "/".intercalate p

/-! ## Looking at places -/

/-- Go on from a place where something stands. -/
def lookFrom (d : Disk) (here : Place) : Entry → List String → Except Refusal Entry
  | e, [] => .ok e
  | .file _, _ :: _ => .error .notDirectory
  | .dir, name :: names =>
    if nameLimit < name.utf8ByteSize then .error .tooLong
    else
      match d.entries.get? (here ++ [name]) with
      | none => .error .notFound
      | some e => lookFrom d (here ++ [name]) e names

/-- What stands at a place. -/
def look (d : Disk) (p : Place) : Except Refusal Entry :=
  if pathLimit < (pathOf p).utf8ByteSize then .error .tooLong else d.lookFrom [] .dir p

/-- Whether a directory stands at a place. -/
def isDirectory (d : Disk) (p : Place) : Bool :=
  match d.look p with
  | .ok .dir => true
  | _ => false

/-! ## Changing places -/

/-- Create a directory whose parent is there. -/
def make (d : Disk) (p : Place) : Except Refusal Disk :=
  match d.look p with
  | .ok _ => .error .present
  | .error .notFound =>
    if d.isDirectory p.dropLast then .ok { d with entries := d.entries.insert p .dir }
    else .error .notFound
  | .error r => .error r

/-- Create a directory whose parent is there, unless it is a directory already. -/
def makeNew (d : Disk) (p : Place) : Except Refusal Disk :=
  match d.make p with
  | .ok d => .ok d
  | .error r => if d.isDirectory p then .ok d else .error r

/-- A refusal, and the place that it concerns. -/
abbrev RefusalAt := Refusal × Place

/-- Create a directory and those above it, unless they are directories already.  The place is given
with its last name first.  What could be created stays when the rest is refused. -/
def makeAllRev (d : Disk) : List String → Except RefusalAt Unit × Disk
  | [] => (.ok (), d)
  | name :: above =>
    let p := (name :: above).reverse
    match d.make p with
    | .ok d => (.ok (), d)
    | .error .notFound =>
      match makeAllRev d above with
      | (.error r, d) => (.error r, d)
      | (.ok (), d) =>
        match d.makeNew p with
        | .ok d => (.ok (), d)
        | .error r => (.error (r, p), d)
    | .error r => if d.isDirectory p then (.ok (), d) else (.error (r, p), d)

/-- Create a directory and those above it, unless they are directories already. -/
def makeAll (d : Disk) (p : Place) : Except RefusalAt Unit × Disk := d.makeAllRev p.reverse

/-- Put a file at a place. -/
def putFile (d : Disk) (p : Place) (bytes : List UInt8) : Except Refusal Disk :=
  match d.look p with
  | .ok .dir => .error .isDirectory
  | .ok (.file _) => .ok { d with entries := d.entries.insert p (.file bytes) }
  | .error .notFound =>
    if d.isDirectory p.dropLast then .ok { d with entries := d.entries.insert p (.file bytes) }
    else .error .notFound
  | .error r => .error r

/-- Let the file at a place take another place. -/
def moveFile (d : Disk) (source target : Place) (bytes : List UInt8) : Except Refusal Disk :=
  match d.putFile target bytes with
  | .ok d => .ok { d with entries := d.entries.erase source }
  | .error r => .error r

/-- The temporary name beside a place. -/
def temporary (p : Place) : Place := p.dropLast ++ [p.getLastD "" ++ ".tmp"]

/-! ## Paths of the workspace -/

/-- The outermost directory; the paths of the places below it begin with a slash. -/
def outermost : Place := [""]

/-- Walk a name of a path on from a place.  Two dots leave a directory, but not the outermost one. -/
def walk (p : Place) (name : String) : Place :=
  if name = "" ∨ name = "." then p
  else if name = ".." then if p = outermost then p else p.dropLast
  else p ++ [name]

/-- The place of a path. -/
def placeOf (d : Disk) (path : String) : Place :=
  let names := (pieces '/' path.toList).map String.ofList
  names.foldl walk (if path.toList.head? = some '/' then outermost else d.root)

/-- The place of a path inside the workspace. -/
def resolve (d : Disk) (path : String) : Except Fault Place :=
  if '\x00' ∈ path.toList then .error .impossiblePath
  else
    let p := d.placeOf path
    if d.root.isPrefixOf p then .ok p
    else .error (.workspace ⟨s!"Path escapes workspace: {path}", path⟩)

/-- A place as it is shown. -/
def shown (p : Place) : String := quoted (pathOf p)

/-- All line ends as line feeds. -/
def unifyLines : List Char → List Char
  | [] => []
  | '\r' :: '\n' :: cs => '\n' :: unifyLines cs
  | '\r' :: cs => '\n' :: unifyLines cs
  | c :: cs => c :: unifyLines cs

/-- Whether there is a file or directory. -/
def probe (d : Disk) (path : String) : Except Fault Bool := do
  let p ← d.resolve path
  match d.look p with
  | .ok _ => pure true
  | .error .tooLong => throw .system
  | .error _ => pure false

/-- The fault of a refused reading. -/
def unreadable (path reason : String) : Fault := .workspace ⟨s!"Cannot read {path}: {reason}", path⟩

/-- The content of a file. -/
def read (d : Disk) (path : String) : Except Fault String := do
  let p ← d.resolve path
  match d.look p with
  | .ok (.file bytes) =>
    match Utf8.decode bytes with
    | .ok content => pure (String.ofList (unifyLines content.toList))
    | .error f => throw (unreadable path f.message)
  | .ok .dir => throw (unreadable path (Refusal.isDirectory.message (shown p)))
  | .error r => throw (unreadable path (r.message (shown p)))

/-- Create a directory, and those above it. -/
def mkdir (d : Disk) (path : String) : Except Fault Unit × Disk :=
  match d.resolve path with
  | .error f => (.error f, d)
  | .ok p =>
    match d.makeAll p with
    | (.ok (), d) => (.ok (), d)
    | (.error (r, at_), d) =>
      (.error (.workspace ⟨s!"Cannot create directory {path}: {r.message (shown at_)}", path⟩), d)

/-- Write bytes to a place: create the directories above it, write a temporary file, and let it
take the place.  The temporary file stays when it cannot take the place. -/
def replaceFile (d : Disk) (p : Place) (bytes : List UInt8) : Except String Unit × Disk :=
  match d.makeAll p.dropLast with
  | (.error (r, at_), d) => (.error (r.message (shown at_)), d)
  | (.ok (), d) =>
    let temp := temporary p
    match d.putFile temp bytes with
    | .error r => (.error (r.message (shown temp)), d)
    | .ok d =>
      match d.moveFile temp p bytes with
      | .ok d => (.ok (), d)
      | .error r => (.error (r.message (shown temp ++ " -> " ++ shown p)), d)

/-- Write a file.  The outermost directory has no name from which to make a temporary one. -/
def write (d : Disk) (path content : String) : Except Fault Unit × Disk :=
  match d.resolve path with
  | .error f => (.error f, d)
  | .ok p =>
    if p = outermost then (.error .impossiblePath, d)
    else
      match d.replaceFile p (Utf8.encode content) with
      | (.ok (), d) => (.ok (), d)
      | (.error reason, d) => (.error (.workspace ⟨s!"Cannot write {path}: {reason}", path⟩), d)

/-- An empty workspace. -/
def empty (root : Place) : Disk := ⟨root, Table.empty.insert root .dir⟩

/-- The workspace with a file put there, below directories that arise with it. -/
def place (d : Disk) (path : String) (bytes : List UInt8) : Disk :=
  match d.resolve path with
  | .error _ => d
  | .ok p =>
    match (d.makeAll p.dropLast).2.putFile p bytes with
    | .ok d => d
    | .error _ => d

/-- The entries below the workspace's directory, with their paths relative to it. -/
def contents (d : Disk) : List (String × Entry) :=
  d.entries.entries.filterMap fun (p, e) =>
    if d.root.isPrefixOf p && p != d.root then some (pathOf (p.drop d.root.length), e) else none

end Disk

end SourceBundle.Workspace
