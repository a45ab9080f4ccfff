/-
# The document format of lockfiles

A JSON document that describes the installed tree.  Its newer layouts list the places of all
packages, of which those directly below the root count; the oldest one nests every package inside
the one that needs it, and there the outermost level counts.
-/
import SourceBundle.Fault.Parse
import SourceBundle.Json.Reader
import SourceBundle.Lock.Basic

namespace SourceBundle.Lock

open SourceBundle.Text

/-- Why a document is not read. -/
inductive DocumentFault
  /-- It is rejected, for a stated reason. -/
  | parse (f : ParseFault)
  /-- It holds a number of more digits than are read. -/
  | numberTooLong
deriving DecidableEq, Repr

/-- Read a document that must be an object, and give its members. -/
def readObject (kind : DocumentKind) (source content : String) :
    Except DocumentFault (List (String × Json)) :=
  match Json.read content with
  | .error .numberTooLong => .error .numberTooLong
  | .error (.misfit c pos) => .error (.parse (.json (c.describe content pos) source))
  | .ok (.object ms) => .ok ms
  | .ok _ => .error (.parse (.noObject kind))

/-- The directory of the installed packages. -/
def installDir : List Char := "node_modules/".toList

/-- The name of the package at a place, if the place is directly below the root. -/
def nameAt? (place : String) : Option String := do
  let rest ← dropPrefix? installDir place.toList
  if rest.isEmpty || (splitFirst? ('/' :: installDir) rest).isSome then none
  pure (String.ofList rest)

/-- The version that the description of a package gives. -/
def versionIn? (description : Json) : Option String := (description.member? "version").bind Json.text?

/-- Collect the versions of descriptions whose labels name packages. -/
def collect (name? : String → Option String) (ms : List (String × Json)) : Lockfile :=
  ms.foldl (fun lock (label, description) =>
    match name? label, versionIn? description with
    | some name, some version => lock.add name ⟨none, version⟩
    | _, _ => lock) ∅

/-- The lockfile of a document with the given members.  The nested layout counts only when the
list of places yields nothing. -/
def ofMembers (ms : List (String × Json)) : Lockfile :=
  let placed := collect nameAt? (((Table.look "packages" ms).bind Json.members?).getD [])
  if placed.isEmpty then
    collect some (((Table.look "dependencies" ms).bind Json.members?).getD [])
  else placed

/-- Read a lockfile that is a document. -/
def ofDocument (content : String) : Except DocumentFault Lockfile :=
  (readObject .lockfile "package-lock.json" content).map ofMembers

end SourceBundle.Lock
