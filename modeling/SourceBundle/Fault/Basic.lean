/-
# Faults

Everything that can go wrong in a resolution, by its cause.  The collaborators state their own
reasons; the reasons of the resolution itself are worded here.
-/
import SourceBundle.Fault.Parse
import SourceBundle.Import.Package
import SourceBundle.Lock.Tree
import SourceBundle.PackageKey
import SourceBundle.Version.Select

namespace SourceBundle

open SourceBundle.Import

/-- A failure of the workspace. -/
structure WorkspaceFault where
  /-- What happened. -/
  message : String
  /-- The path that was asked for. -/
  path : String
deriving DecidableEq, Repr

/-- A failure of the registry. -/
structure RegistryFault where
  /-- What happened. -/
  message : String
  /-- The package that was asked for, where it is known. -/
  package? : Option String := none
  /-- The status that the registry answered with, where it is known. -/
  status? : Option Int := none
deriving DecidableEq, Repr

/-- What a failed resolution refers to. -/
inductive Referent
  /-- An import as it is written. -/
  | literal (text : String)
  /-- A package. -/
  | package (r : PackageReference)
deriving DecidableEq, Repr

/-- Why an import cannot be resolved. -/
inductive ResolutionFault
  /-- A file with rules or declarations is there but cannot be read. -/
  | unreadableSource (path : String) (cause : WorkspaceFault)
  /-- The registry did not give the versions of a package. -/
  | lookup (r : PackageReference) (cause : RegistryFault)
  /-- No version is in the range that an import asks for. -/
  | pin (r : PackageReference) (range : String) (reason : Version.NoChoice)
  /-- No version of a package can be chosen. -/
  | noVersion (r : PackageReference) (reason : Version.NoChoice)
  /-- An import names a package but none of its files. -/
  | noFile (literal file : String) (r : PackageReference)
  /-- It cannot be told whether a file is there. -/
  | unknownPresence (path literal : String) (cause : WorkspaceFault)
  /-- A file is not there. -/
  | missing (path file literal : String)
  /-- A file is there but cannot be read. -/
  | unreadable (path literal : String) (cause : WorkspaceFault)
  /-- A package has no such file. -/
  | notInPackage (subpath : String) (key : PackageKey) (file literal : String)
deriving DecidableEq, Repr

namespace ResolutionFault

/-- The fault in words. -/
def message : ResolutionFault → String
  | unreadableSource path cause => s!"Failed to read {path}: {cause.message}"
  | lookup r cause => s!"Registry lookup failed for {r.fullName}: {cause.message}"
  | pin r range reason =>
    s!"Cannot resolve pinned version {r.fullName}@{range}: {reason.message}"
  | noVersion r reason => s!"Cannot resolve a version for {r.fullName}: {reason.message}"
  | noFile literal file _ =>
    "Import " ++ Text.quoted literal ++ s!" in {file} does not name a file"
  | unknownPresence path _ cause => s!"Cannot check {path} in the workspace: {cause.message}"
  | missing path file _ => s!"File {path} imported by {file} not found"
  | unreadable path _ cause => s!"Cannot read {path}: {cause.message}"
  | notInPackage subpath key file _ =>
    s!"File {subpath} not found in package {key.render} (imported by {file})"

/-- What the fault refers to. -/
def referent? : ResolutionFault → Option Referent
  | unreadableSource _ _ => none
  | lookup r _ | pin r _ _ | noVersion r _ | noFile _ _ r => some (.package r)
  | unknownPresence _ literal _ | missing _ _ literal | unreadable _ literal _
  | notInPackage _ _ _ literal => some (.literal literal)

end ResolutionFault

/-- A failure of any part. -/
inductive Fault
  /-- An import cannot be resolved. -/
  | resolution (f : ResolutionFault)
  /-- The registry failed. -/
  | registry (f : RegistryFault)
  /-- The workspace failed. -/
  | workspace (f : WorkspaceFault)
  /-- A text is no package key. -/
  | noKey (text : String)
  /-- An end of a hyphen range cannot be taken apart. -/
  | unreadableRange
  /-- A document holds a number of more digits than are read. -/
  | numberTooLong
  /-- A number is too large for its type. -/
  | overflow
  /-- A path that no file can have. -/
  | impossiblePath
  /-- The operating system refused to look at a path. -/
  | system
  /-- An address has a malformed port. -/
  | badPort
  /-- A published version is described by something that cannot be looked into. -/
  | badDescription
  /-- The routine was cancelled. -/
  | cancelled
  /-- The resolution has used up the steps that it was given. -/
  | exhausted
deriving DecidableEq, Repr

/-- The fault in words, where it has words of its own. -/
def Fault.message : Fault → String
  | .resolution f => f.message
  | .registry f => f.message
  | .workspace f => f.message
  | .noKey text => PackageKey.notAKeyMessage text
  | _ => ""

/-- Whether a fault is a failed resolution or a failure of a collaborator, which a compile request
reports instead of passing it on. -/
def Fault.isReported : Fault → Bool
  | .resolution _ | .registry _ | .workspace _ => true
  | _ => false

/-- The fault of a document that cannot be read, unless it is a rejection with a reason. -/
def Lock.DocumentFault.parse? : Lock.DocumentFault → Option ParseFault
  | .parse f => some f
  | .numberTooLong => none

end SourceBundle
