/-
# Locked versions

A lockfile pins the versions of packages.  A package may be pinned several times, for different
declared ranges; one of the two formats does not record the ranges at all.
-/
import SourceBundle.Table

namespace SourceBundle

/-- A pinned version. -/
structure LockEntry where
  /-- The declared range that was locked, if it is recorded. -/
  range? : Option String
  /-- The version. -/
  version : String
deriving DecidableEq, Repr

/-- The pinned versions of every package. -/
abbrev Lockfile := Table String (List LockEntry)

/-- Add an entry behind those that a package has. -/
def Lockfile.add (lock : Lockfile) (name : String) (e : LockEntry) : Lockfile :=
  Table.update lock name [] (· ++ [e])

end SourceBundle
