/-
# The resolution index

The records that a workspace keeps of how its imports were resolved, together with the state of
their loading and saving.  Records are changed by whole files; the index remembers whether it has
changed since it was last saved.

Loads and saves are numbered.  The results of finished loads are kept so that all who wait for one
load learn the same, and those who want to save stand in a queue whose first one saves.
-/
import SourceBundle.Fault.Basic
import SourceBundle.Index.Data

namespace SourceBundle

/-- The resolution index. -/
structure Index where
  /-- The file that it is kept in. -/
  path : String
  /-- The records. -/
  data : IndexData := ∅
  /-- Whether the file has been loaded. -/
  loaded : Bool := false
  /-- Whether there are changes that have not been saved. -/
  dirty : Bool := false
  /-- The load that new callers join. -/
  loading? : Option Nat := none
  /-- How the finished loads ended; loads are numbered from zero. -/
  loads : List (Nat × Except Fault Unit) := []
  /-- The number of loads begun. -/
  loadsBegun : Nat := 0
  /-- Those who save or want to save, the one who saves first. -/
  savers : List Nat := []
  /-- The number of saves asked for. -/
  savesBegun : Nat := 0

namespace Index

/-- The records of a file. -/
def recordsOf (i : Index) (file : String) : Table String String := (i.data.get? file).getD ∅

/-- What an import of a file resolved to. -/
def lookup (i : Index) (file literal : String) : Option String :=
  (i.data.get? file).bind (·.get? literal)

/-- What an import resolved to in the first file that has it. -/
def lookupAny (i : Index) (literal : String) : Option String :=
  i.data.entries.findSome? fun e => e.2.get? literal

/-- Record what an import resolved to.  An import that resolved to itself is not recorded. -/
def record (i : Index) (file literal path : String) : Index :=
  if literal = path then i
  else
    let records := i.recordsOf file
    if records.get? literal = some path then i
    else { i with data := i.data.insert file (records.insert literal path), dirty := true }

/-- Drop the records of a file. -/
def clear (i : Index) (file : String) : Index :=
  if i.data.contains file then { i with data := i.data.erase file, dirty := true } else i

/-- Whether two tables hold the same entries, in whatever order. -/
def sameRecords (s t : Table String String) : Bool :=
  s.size == t.size && s.entries.all fun e => t.get? e.1 == some e.2

/-- Replace the records of a file, unless they are the given ones already. -/
def replace (i : Index) (file : String) (records : Table String String) : Index :=
  if sameRecords (i.recordsOf file) records then i
  else records.entries.foldl (fun i e => i.record file e.1 e.2) (i.clear file)

/-- The records of a file's document, with the given ones entered over them. -/
def overlay (persisted current : IndexData) : IndexData :=
  current.entries.foldl (fun d e => d.update e.1 ∅ fun t => t.merge e.2) persisted

/-- The index after a load that obtained some records: those that were made meanwhile win. -/
def finishLoad (i : Index) (persisted : IndexData) : Index :=
  { i with data := overlay persisted i.data, loaded := true }

/-- The index without its records, as before any load. -/
def forget (i : Index) : Index :=
  { i with data := ∅, loaded := false, dirty := false, loading? := none }

end Index

end SourceBundle
