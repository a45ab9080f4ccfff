/-
# The cache of packages

Fetched packages are kept under their keys.  A package that is being fetched is marked, so that
further requests wait for the fetch that is under way.  Fetches are numbered, and how each of them
ended is kept for those who wait for it.
-/
import SourceBundle.Fault.Basic

namespace SourceBundle

/-- A fetched package. -/
structure Node where
  /-- Its key. -/
  key : PackageKey
  /-- Its files, by their paths inside the package. -/
  files : Table String String
deriving DecidableEq

/-- The place of a file of a package. -/
def Node.pathFor (n : Node) (s : Settings) (path : String) : String := n.key.pathFor s path

/-- The cache of packages. -/
structure Cache where
  /-- The fetched packages. -/
  entries : Table PackageKey Node := ∅
  /-- The packages that are being fetched, with the numbers of the fetches. -/
  inflight : Table PackageKey Nat := ∅
  /-- How often the cache has been cleared. -/
  epoch : Nat := 0
  /-- The number of requests that found their package. -/
  hits : Nat := 0
  /-- The number of fetches begun. -/
  fetches : Nat := 0
  /-- The number of requests that joined a fetch. -/
  shared : Nat := 0
  /-- How the finished fetches ended. -/
  settled : List (Nat × Except Fault Node) := []

namespace Cache

/-- What a request for a package has to do. -/
inductive Admission
  /-- Nothing: the package is there. -/
  | hit (n : Node)
  /-- Wait for a fetch that is under way. -/
  | join (ticket : Nat)
  /-- Fetch the package; the cache has been cleared so often before. -/
  | fetch (ticket epoch : Nat)

/-- Admit a request for a package. -/
def request (c : Cache) (key : PackageKey) : Admission × Cache :=
  match c.entries.get? key with
  | some n => (.hit n, { c with hits := c.hits + 1 })
  | none =>
    match c.inflight.get? key with
    | some t => (.join t, { c with shared := c.shared + 1 })
    | none =>
      (.fetch c.fetches c.epoch,
        { c with inflight := c.inflight.insert key c.fetches, fetches := c.fetches + 1 })

/-- How a fetch ended, if it has ended. -/
def outcome? (c : Cache) (ticket : Nat) : Option (Except Fault Node) := c.settled.lookup ticket

/-- The cache after a fetch has ended.  A package is kept only if the cache has not been cleared
since the fetch began. -/
def settle (c : Cache) (key : PackageKey) (ticket epoch : Nat) (outcome : Except Fault Node) :
    Cache :=
  { c with
    inflight := if c.inflight.get? key = some ticket then c.inflight.erase key else c.inflight
    entries := match outcome with
      | .ok n => if epoch = c.epoch then c.entries.insert key n else c.entries
      | .error _ => c.entries
    settled := (ticket, outcome) :: c.settled }

/-- Drop a package. -/
def invalidate (c : Cache) (key : PackageKey) : Cache := { c with entries := c.entries.erase key }

/-- Drop all packages; those that are being fetched will not be kept. -/
def clear (c : Cache) : Cache := { c with entries := ∅, epoch := c.epoch + 1 }

end Cache

end SourceBundle
