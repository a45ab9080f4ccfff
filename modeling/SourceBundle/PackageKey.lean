/-
# Package keys

A fetched package is identified by its name and its version.  Its files stand in the workspace
under a directory of that name.
-/
import SourceBundle.Settings.Basic
import SourceBundle.Sort
import SourceBundle.Text.Cut
import SourceBundle.Text.Quoted

namespace SourceBundle

open SourceBundle.Text

/-- The identity of a fetched package. -/
structure PackageKey where
  /-- The name in the registry, with the scope. -/
  name : String
  /-- The version. -/
  version : String
deriving DecidableEq, Repr, Inhabited

namespace PackageKey

/-- The written form of a key. -/
def render (k : PackageKey) : String := s!"{k.name}@{k.version}"

/-- Read a key; the version follows the last at sign, and the name is more than an at sign. -/
def parse? (text : String) : Option PackageKey :=
  match cutLast? '@' text.toList with
  | none => none
  | some (name, version) =>
    if name.isEmpty || name == ['@'] || version.isEmpty then none
    else some ⟨String.ofList name, String.ofList version⟩

/-- What is said of a text that is no key. -/
def notAKeyMessage (text : String) : String := "Not a package key: " ++ quoted text

/-- The directory of the package's files. -/
def root (k : PackageKey) (s : Settings) : String := s.packageDir ++ k.render

/-- The place of one of the package's files. -/
def pathFor (k : PackageKey) (s : Settings) (subpath : String) : String :=
  if subpath.isEmpty then k.root s else k.root s ++ "/" ++ subpath

/-- The order of keys: by name, then by version. -/
def le (a b : PackageKey) : Bool := decide (a.name < b.name) || (a.name == b.name && decide (a.version ≤ b.version))

/-- Some keys in their order. -/
def sort (keys : List PackageKey) : List PackageKey := sortBy le keys

end PackageKey

end SourceBundle
