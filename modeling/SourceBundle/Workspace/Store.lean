/-
# Workspaces

A workspace in memory or on disk, and what it answers.
-/
import SourceBundle.Sort
import SourceBundle.Workspace.Disk
import SourceBundle.Workspace.Memory

namespace SourceBundle.Workspace

open SourceBundle.Text

/-- A workspace. -/
inductive Store
  /-- In memory. -/
  | memory (m : Memory)
  /-- On disk. -/
  | disk (d : Disk)

/-- The content of a file: a text, or bytes that encode none. -/
inductive Content
  /-- A text. -/
  | text (s : String)
  /-- Bytes. -/
  | bytes (bs : List UInt8)
deriving DecidableEq, Repr

namespace Store

/-- Whether there is a file or directory. -/
def probe (path : String) : Store → Except Fault Bool
  | .memory m => .ok (m.probe path)
  | .disk d => d.probe path

/-- The content of a file. -/
def read (path : String) : Store → Except Fault String
  | .memory m => (m.read path).mapError .workspace
  | .disk d => d.read path

/-- Write a file. -/
def write (path content : String) : Store → Except Fault Unit × Store
  | .memory m => (.ok (), .memory (m.write path content))
  | .disk d => let (r, d) := d.write path content; (r, .disk d)

/-- Create a directory, and those above it. -/
def mkdir (path : String) : Store → Except Fault Unit × Store
  | .memory m => (.ok (), .memory (m.mkdir path))
  | .disk d => let (r, d) := d.mkdir path; (r, .disk d)

/-- The content that bytes are. -/
def contentOf (bs : List UInt8) : Content :=
  match Utf8.decode bs with
  | .ok s => .text s
  | .error _ => .bytes bs

/-- The files with their contents. -/
def files : Store → List (String × Content)
  | .memory m => m.files.entries.map fun (p, c) => (p, .text c)
  | .disk d => d.contents.filterMap fun (p, e) =>
    match e with
    | .file bs => some (p, contentOf bs)
    | .dir => none

/-- The directories, in the order of their paths. -/
def dirs (s : Store) : List String :=
  let ds := match s with
    | .memory m => m.dirs
    | .disk d => d.contents.filterMap fun (p, e) =>
      match e with
      | Entry.dir => some p
      | Entry.file _ => none
  sortBy (fun a b => decide (a ≤ b)) ds

end Store

end SourceBundle.Workspace
