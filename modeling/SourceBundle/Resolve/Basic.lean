/-
# Chosen versions

Where the version of a package comes from, and what a run remembers while it chooses versions.
-/
import SourceBundle.Manifest
import SourceBundle.PackageKey
import SourceBundle.Warning

namespace SourceBundle

/-- The steps by which a version is chosen. -/
inductive VersionSource
  /-- The import names it. -/
  | explicit
  /-- The run has chosen it before. -/
  | session
  /-- The lockfile pins it. -/
  | lockfile
  /-- The manifest of the workspace declares it. -/
  | manifest
  /-- The importing package declares it. -/
  | parent
  /-- It is the highest release. -/
  | registry
deriving DecidableEq, Repr

/-- The name of a step. -/
def VersionSource.word : VersionSource → String
  | explicit => "explicit"
  | session => "session"
  | lockfile => "lockfile"
  | manifest => "manifest"
  | parent => "parent"
  | registry => "registry"

/-- A chosen version. -/
structure ResolvedVersion where
  /-- The version. -/
  version : String
  /-- The step that chose it. -/
  source : VersionSource
  /-- The range, the field or the package that the step went by. -/
  detail? : Option String
deriving DecidableEq, Repr

/-- What is remembered while versions are chosen. -/
structure Resolver where
  /-- The manifest of the workspace. -/
  manifest? : Option Manifest
  /-- The lockfile of the workspace; empty when there is none. -/
  lockfile : Lockfile
  /-- The warnings given so far. -/
  warnings : WarningLog
  /-- The versions chosen so far for packages that are not pinned. -/
  session : Table String String
  /-- The ranges that the fetched packages declare. -/
  parents : Table PackageKey (Table String String)
  /-- The published versions of the packages asked for so far. -/
  published : Table String (List String)
  /-- The versions chosen so far for ranges that imports ask for. -/
  pins : Table (String × String) String

end SourceBundle
