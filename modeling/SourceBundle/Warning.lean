/-
# Warnings

What a resolution tells the user without failing.  Every warning has a key, and of several
warnings with the same key only the first one is given.
-/
import SourceBundle.Sort

namespace SourceBundle

/-- A range that a fetched package declares for another one. -/
structure Requirement where
  /-- The package that declares the range. -/
  parent : String
  /-- The range. -/
  range : String
deriving DecidableEq, Repr

/-- A warning. -/
inductive Warning
  /-- A file was unreadable and is skipped. -/
  | parseFailure (source reason : String)
  /-- A pinned version lies outside the range it was locked for. -/
  | invalidLockEntry (package declared pinned : String)
  /-- One file of a package is bundled from two versions of it. -/
  | duplicateFile (package path previous requested : String)
  /-- No version lies in the range that the workspace declares. -/
  | unresolvedManifestRange (package range : String) (reason : String)
  /-- No version lies in the range that the importing package declares. -/
  | unresolvedParentRange (parent package range : String) (reason : String)
  /-- Several fetched packages declare different ranges. -/
  | parentConflict (package : String) (requirements : List Requirement)
deriving DecidableEq, Repr

namespace Warning

/-- The order of requirements: by parent, then by range. -/
def leRequirement (a b : Requirement) : Bool :=
  decide (a.parent < b.parent) || (a.parent == b.parent && decide (a.range ≤ b.range))

/-- The distinct ranges of some requirements, in order. -/
def ranges (rs : List Requirement) : List String :=
  sortBy (fun a b => decide (a ≤ b)) (rs.map (·.range)).eraseDups

/-- The key of a warning. -/
def key : Warning → String
  | parseFailure source _ => s!"parse:{source}"
  | invalidLockEntry package declared pinned => s!"lock:{package}:{declared}:{pinned}"
  | duplicateFile package path previous requested =>
    if previous ≤ requested then s!"dup:{package}:{path}:{previous}:{requested}"
    else s!"dup:{package}:{path}:{requested}:{previous}"
  | unresolvedManifestRange package range _ => s!"range:{package}:{range}"
  | unresolvedParentRange parent package range _ => s!"parent-range:{parent}:{package}:{range}"
  | parentConflict package rs =>
    let joined := "|".intercalate (ranges rs)
    s!"multi-parent:{package}:{joined}"

/-- A warning in words. -/
def message : Warning → String
  | parseFailure source reason => s!"Skipping {source}: {reason}"
  | invalidLockEntry package declared pinned =>
    s!"Ignoring lockfile entry {package}@{declared}: pinned {pinned} does not satisfy the range"
  | duplicateFile package path previous requested =>
    s!"Duplicate file {package}/{path} bundled from versions {previous} and {requested}; " ++
      s!"pin one version explicitly (import \"{package}@{previous}/{path}\";) to avoid " ++
      "duplicate declaration errors"
  | unresolvedManifestRange package range reason =>
    s!"Declared range {package}@{range} could not be satisfied: {reason}"
  | unresolvedParentRange parent package range reason =>
    s!"{parent} declares {package}@{range}, which could not be satisfied: {reason}"
  | parentConflict package rs =>
    let lines := (sortBy leRequirement rs).map fun r => s!"  {r.parent} requires {package}@{r.range}"
    "\n".intercalate (s!"Multiple parent packages require different versions of {package}:" :: lines)

end Warning

/-- The warnings given so far, oldest first. -/
structure WarningLog where
  /-- The warnings. -/
  given : List Warning := []
deriving DecidableEq, Repr

namespace WarningLog

/-- Whether a warning with the same key has been given. -/
def knows (l : WarningLog) (w : Warning) : Bool := l.given.any fun g => g.key == w.key

/-- The log after a warning, which is new unless its key is known. -/
def add (l : WarningLog) (w : Warning) : WarningLog :=
  if l.knows w then l else ⟨l.given ++ [w]⟩

/-- The texts of the warnings. -/
def messages (l : WarningLog) : List String := l.given.map Warning.message

end WarningLog

end SourceBundle
