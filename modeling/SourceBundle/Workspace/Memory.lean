/-
# A workspace in memory

Files and directories under normalised relative paths.  Whatever is stored brings the directories
above it into being; reading goes by files alone, and a path exists if it is a file or a directory.
-/
import SourceBundle.Fault.Basic
import SourceBundle.Text.Path

namespace SourceBundle.Workspace

open SourceBundle.Text

/-- A workspace in memory. -/
structure Memory where
  /-- The files, by their normalised paths. -/
  files : Table String String := ∅
  /-- The directories, by their normalised paths, in the order in which they arose. -/
  dirs : List String := []
deriving DecidableEq

namespace Memory

/-- The normal form of a path inside the workspace; a slash in front says nothing. -/
def normal (path : String) : String :=
  if path.isEmpty then "" else String.ofList ((Path.normal path).toList.dropWhile (· == '/'))

/-- The paths of the directories above a normalised path, nearest last. -/
def above (path : String) : List String :=
  let ps := pieces '/' path.toList
  (List.range (ps.length - 1)).map fun n =>
    String.ofList (List.intercalate ['/'] (ps.take (n + 1)))

/-- A list with some elements added unless they are there. -/
def addNew (paths dirs : List String) : List String :=
  paths.foldl (fun ds p => if ds.contains p then ds else ds ++ [p]) dirs

/-- Whether there is a file or directory. -/
def probe (m : Memory) (path : String) : Bool :=
  m.files.contains (normal path) || m.dirs.contains (normal path)

/-- The content of a file. -/
def read (m : Memory) (path : String) : Except WorkspaceFault String :=
  match m.files.get? (normal path) with
  | some content => .ok content
  | none => .error ⟨s!"No such file: {normal path}", normal path⟩

/-- Write a file. -/
def write (m : Memory) (path content : String) : Memory where
  files := m.files.insert (normal path) content
  dirs := addNew (above (normal path)) m.dirs

/-- Create a directory, and those above it. -/
def mkdir (m : Memory) (path : String) : Memory :=
  if (normal path).isEmpty then m
  else { m with dirs := addNew (above (normal path) ++ [normal path]) m.dirs }

/-- The workspace that arises by writing some files. -/
def ofFiles (files : List (String × String)) : Memory :=
  files.foldl (fun m f => m.write f.1 f.2) {}

end Memory

end SourceBundle.Workspace
