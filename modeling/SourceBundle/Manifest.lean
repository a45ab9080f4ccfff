/-
# Manifests

The file in which a package, or the workspace itself, declares the ranges of the packages it uses.
Several fields declare ranges; for the workspace the overriding fields come first, and a fetched
package binds its own imports through two of the fields only.
-/
import SourceBundle.Lock.Tree
import SourceBundle.Lock.Yarn

namespace SourceBundle

open SourceBundle.Text

/-- The fields of a manifest that declare ranges. -/
inductive DeclarationField
  /-- Versions chosen over those of the dependencies. -/
  | resolutions
  /-- Versions chosen over those of the dependencies. -/
  | overrides
  /-- The packages that are needed. -/
  | dependencies
  /-- The packages that are needed for development. -/
  | devDependencies
  /-- The packages that the user has to provide. -/
  | peerDependencies
deriving DecidableEq, Repr

namespace DeclarationField

/-- The name of a field in the file. -/
def word : DeclarationField → String
  | resolutions => "resolutions"
  | overrides => "overrides"
  | dependencies => "dependencies"
  | devDependencies => "devDependencies"
  | peerDependencies => "peerDependencies"

/-- All fields, in the order in which they are consulted. -/
def all : List DeclarationField :=
  [resolutions, overrides, dependencies, devDependencies, peerDependencies]

/-- The fields that bind the imports of a fetched package. -/
def binding : List DeclarationField := [dependencies, peerDependencies]

end DeclarationField

/-- What a package declares. -/
structure Manifest where
  /-- The name of the package. -/
  name? : Option String
  /-- The declared ranges by field, for the fields that are present. -/
  declarations : Table DeclarationField (Table String String)

namespace Manifest

/-- The range that a declaration denotes; an alias without a range admits every version. -/
def unalias (range : String) : String :=
  match dropPrefix? "npm:".toList range.toList with
  | none => range
  | some target =>
    match Lock.splitAt? target with
    | some (_, range) => String.ofList range
    | none => "*"

/-- What a field declares for a package. -/
def declaredIn? (m : Manifest) (package : String) (f : DeclarationField) : Option String :=
  (m.declarations.get? f).bind (·.get? package)

/-- The range declared for a package, and the field that declares it. -/
def declaredRange? (m : Manifest) (package : String) : Option (String × DeclarationField) :=
  DeclarationField.all.findSome? fun f =>
    (m.declaredIn? package f).map fun range => (unalias range, f)

/-- The ranges that bind the imports of the package's own files. -/
def runtimeDependencies (m : Manifest) : Table String String :=
  DeclarationField.binding.foldl (fun deps f =>
    ((m.declarations.get? f).getD ∅).entries.foldl
      (fun deps (package, range) => deps.insertNew package (unalias range)) deps) ∅

/-- The declarations of a field's value; only texts that are not blank count. -/
def declarationsOf (ms : List (String × Json)) : Table String String :=
  Table.ofList <| ms.filterMap fun (package, v) =>
    match v.text? with
    | none => none
    | some t => let range := trim t; if range.isEmpty then none else some (package, range)

/-- The manifest of a document with the given members. -/
def ofMembers (ms : List (String × Json)) : Manifest where
  name? := (Table.look "name" ms).bind Json.text?
  declarations := Table.ofList <| DeclarationField.all.filterMap fun f =>
    ((Table.look f.word ms).bind Json.members?).map fun section_ => (f, declarationsOf section_)

/-- Read a manifest. -/
def parse (content : String) : Except Lock.DocumentFault Manifest :=
  (Lock.readObject .manifest "package.json" content).map ofMembers

end Manifest

end SourceBundle
