/-
# The state of a run

What one resolution keeps for itself: its warnings, the versions it chose, the imports it followed,
and the records that it will commit to the index if it is still current at the end.
-/
import SourceBundle.Cache.Basic
import SourceBundle.Index.Basic
import SourceBundle.Warning

namespace SourceBundle

/-- A bundle: the content of every file by its path. -/
abbrev Bundle := Table String String

/-- On what it hangs whether a run is current. -/
inductive Standing
  /-- On nothing: it always is. -/
  | always
  /-- On a permit that can be revoked. -/
  | permitted
  /-- On the generation of its target and the epoch of the workspace that it began in. -/
  | generation (number : Nat) (epoch : Nat)
deriving DecidableEq, Repr

/-- The state of one resolution run. -/
structure Context where
  /-- The file that is compiled. -/
  target : String
  /-- The number of the run among those of its target. -/
  generation : Int := 0
  /-- On what it hangs whether the run is current. -/
  standing : Standing := .always
  /-- The warnings given so far. -/
  warnings : WarningLog := {}
  /-- The versions chosen for packages that are not pinned. -/
  session : Table String String := ∅
  /-- The files that each scanned file imports. -/
  graph : Table String (List String) := ∅
  /-- The records for the index. -/
  records : Table String (Table String String) := ∅
  /-- The files that have been scanned. -/
  scanned : List String := []
  /-- The version from which each file of a package was first bundled. -/
  bundled : Table (String × String) String := ∅
  /-- The ranges that the fetched packages declare. -/
  parents : Table PackageKey (Table String String) := ∅
  /-- The packages of the bundled package files. -/
  filePackages : Table String PackageKey := ∅
  /-- The bundle, once it is complete. -/
  bundle? : Option Bundle := none

namespace Context

/-- Note that a file is scanned. -/
def markScanned (c : Context) (file : String) : Context :=
  { c with
    scanned := if c.scanned.contains file then c.scanned else c.scanned ++ [file]
    graph := c.graph.insertNew file [] }

/-- Note that a file imports another one. -/
def addEdge (c : Context) (file path : String) : Context :=
  { c with graph := c.graph.update file [] fun es => if es.contains path then es else es ++ [path] }

/-- Note what an import resolved to, for the index.  An import that resolved to itself is not
noted. -/
def record (c : Context) (file literal path : String) : Context :=
  if literal = path then c
  else { c with records := c.records.update file ∅ fun t => t.insert literal path }

/-- The files whose records a commit replaces. -/
def committedFiles (c : Context) : List String :=
  c.scanned ++ c.records.keys.filter fun f => !c.scanned.contains f

/-- The index with the records of every scanned file replaced by those of the run. -/
def commit (c : Context) (i : Index) : Index :=
  c.committedFiles.foldl (fun i f => i.replace f ((c.records.get? f).getD ∅)) i

end Context

end SourceBundle
