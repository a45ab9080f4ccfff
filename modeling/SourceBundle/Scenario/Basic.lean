/-
# Scenarios

A scenario lets a service work with collaborators whose behaviour is laid down beforehand: a
workspace, a registry with published packages, and a compiler with a fixed verdict.  Calls to them
can be made to fail, and steps can be inserted at the moment of a call.

This module holds the steps of a scenario, what they report, and the world in which they take
place.
-/
import SourceBundle.Compile.Request
import SourceBundle.Routine.Schedule
import SourceBundle.Workspace.Store

namespace SourceBundle.Scenario

/-- The kinds of call to a collaborator. -/
inductive CallKind
  /-- Look whether a path exists. -/
  | probe
  /-- Read a file. -/
  | read
  /-- Write a file. -/
  | write
  /-- Create a directory. -/
  | mkdir
  /-- Ask for the versions of a package. -/
  | versions
  /-- Ask for the files of a package. -/
  | files
  /-- Compile a target. -/
  | compile
deriving DecidableEq, Repr

/-- The name of a kind of call. -/
def CallKind.word : CallKind → String
  | .probe => "exists"
  | .read => "read"
  | .write => "write"
  | .mkdir => "mkdir"
  | .versions => "versions"
  | .files => "files"
  | .compile => "compile"

/-- A call to a collaborator, with the path, the package or the target that it is about. -/
structure Call where
  /-- The kind of call. -/
  kind : CallKind
  /-- What it is about. -/
  name : String
deriving DecidableEq, Repr

/-- The call that a question is. -/
def Call.ofQuestion : Question → Call
  | .probe path => ⟨.probe, path⟩
  | .read path => ⟨.read, path⟩
  | .write path _ => ⟨.write, path⟩
  | .mkdir path => ⟨.mkdir, path⟩
  | .versions name => ⟨.versions, name⟩
  | .files name version => ⟨.files, (PackageKey.mk name version).render⟩
  | .compile _ target _ => ⟨.compile, target⟩

/-- A failure that is laid down for a call. -/
structure Failure where
  /-- The call. -/
  call : Call
  /-- How often it still happens; less than zero for always. -/
  times : Int

/-! ## Steps -/

/-- A request to compile. -/
structure Job where
  /-- The target. -/
  target : String
  /-- The sources that are given. -/
  sources : Bundle

/-- A step of a scenario.  Packages are given by the texts of their keys. -/
inductive Step
  /-- Ask the workspace whether a path exists. -/
  | probe (path : String)
  /-- Read a file. -/
  | read (path : String)
  /-- Read a file, twice if need be. -/
  | readTwice (path : String)
  /-- Read a file that may be missing. -/
  | readOptional (path : String)
  /-- Write a file. -/
  | write (path content : String)
  /-- Create a directory. -/
  | mkdir (path : String)
  /-- Create the directory of a file. -/
  | ensureDirectory (path : String)
  /-- List the workspace. -/
  | dump
  /-- Lay down a failure. -/
  | lay (f : Failure)
  /-- Take back all failures. -/
  | clearFailures
  /-- Publish a package. -/
  | publish (name version : String) (files : Table String String)
  /-- List the calls since the last such step. -/
  | calls (sorted : Bool)
  /-- Apply a configuration. -/
  | configure (c : Settings.Configuration)
  /-- Load the remappings. -/
  | loadRemappings (use? : Option Bool) (collect : Bool)
  /-- Request a package. -/
  | fetch (key : String)
  /-- Request several packages at once. -/
  | gather (keys : List String)
  /-- Request a package twice at once, and cancel one of the requests. -/
  | fetchTwice (key : String) (cancelled : Nat)
  /-- Look a package up in the cache. -/
  | cached (key : String)
  /-- Drop a package from the cache. -/
  | invalidate (key : String)
  /-- Drop all packages from the cache. -/
  | clearCache
  /-- Count what the cache has done. -/
  | cacheStats
  /-- Load the index, several times at once. -/
  | loadIndex (times : Nat)
  /-- Save the index, several times at once. -/
  | saveIndex (times : Nat)
  /-- Reload the index. -/
  | reloadIndex
  /-- Show the index. -/
  | indexState
  /-- Record what an import resolved to. -/
  | record (file literal path : String)
  /-- Drop the records of a file. -/
  | clearRecords (file : String)
  /-- Look an import of a file up. -/
  | lookup (file literal : String)
  /-- Look an import up in all files. -/
  | lookupAny (literal : String)
  /-- The records of a file. -/
  | recordsOf (file : String)
  /-- Begin to choose versions anew. -/
  | beginResolver (session : Table String String) (parents : List (String × Table String String))
  /-- Choose the version of an imported package. -/
  | resolve (literal : String) (parent? : Option String)
  /-- Show what has been chosen. -/
  | resolverState
  /-- Load the manifest. -/
  | loadManifest (collect : Bool)
  /-- Load the lockfile. -/
  | loadLockfile (collect : Bool)
  /-- Build a bundle with a permit. -/
  | build (entry content : String) (generation : Int) (permit : Permit)
  /-- Tell how imports are located. -/
  | classify (literals : List String)
  /-- Revoke the permit of the build under way. -/
  | revoke
  /-- Lay down the verdict of the compiler. -/
  | layVerdict (v : Compile.Verdict)
  /-- Compile a target. -/
  | compile (job : Job)
  /-- Compile several targets at once. -/
  | compileAll (jobs : List Job)
  /-- Begin a run of a target. -/
  | beginRun (target : String)
  /-- Switch the workspace. -/
  | switchWorkspace
  /-- Find the file of an import. -/
  | navigate (file? : Option String) (literal : String)

/-! ## Reports -/

/-- Why a step has no report. -/
inductive Trouble
  /-- Something failed. -/
  | fault (f : Fault)
  /-- The step gives an import that is no package reference. -/
  | malformed (f : ParseFault)
  /-- No versions are being chosen. -/
  | noResolver

/-- What an observer sees of a run. -/
structure Sight where
  /-- The state of the run. -/
  context : Context
  /-- Whether it is no longer current. -/
  superseded : Bool

/-- What a compile step reports. -/
structure Compiled where
  /-- The outcome of the request. -/
  outcome : Compile.Outcome
  /-- What is seen of its run. -/
  sight : Sight

/-- What a step reports. -/
inductive Report
  /-- Nothing. -/
  | nothing
  /-- A truth value. -/
  | flag (b : Bool)
  /-- A number. -/
  | number (n : Nat)
  /-- A text, which may be missing. -/
  | text (s? : Option String)
  /-- A mapping of texts. -/
  | mapping (t : Table String String)
  /-- The files and directories of the workspace. -/
  | listing (files : List (String × Workspace.Content)) (dirs : List String)
  /-- The calls to the registry, and to the compiler with the paths of the sources. -/
  | calls (registry : List Call) (compiler : List (String × List String))
  /-- Remappings, and the warnings if they are collected. -/
  | remappings (rs : List Import.Remapping) (warnings? : Option (List String))
  /-- A package with the places of its files. -/
  | package (n : Node) (places : List String)
  /-- What the cache has of a package. -/
  | cached (n? : Option (Node × List String))
  /-- How requests for packages ended. -/
  | fetched (outcomes : List (Except Fault PackageKey))
  /-- What the cache has done. -/
  | stats (c : Cache)
  /-- The index, and what the saves of it said. -/
  | index (i : Index) (saved? : Option (List Bool))
  /-- What versions are chosen by. -/
  | declarations (r : Resolver)
  /-- A chosen version. -/
  | version (v : ResolvedVersion)
  /-- The versions chosen and the warnings given. -/
  | choices (r : Resolver)
  /-- The manifest, and the warnings if they are collected. -/
  | manifest (m? : Option Manifest) (warnings? : Option (List String))
  /-- The lockfile, and the warnings if they are collected. -/
  | lockfile (l? : Option Lockfile) (warnings? : Option (List String))
  /-- A bundle or why there is none. -/
  | bundle (result : Except Fault Bundle) (sight : Sight)
  /-- How imports are located. -/
  | kinds (ks : List Bundle.ImportKind)
  /-- How compile requests ended. -/
  | compiled (results : List (Except Fault Compiled))

/-- What a step answers. -/
abbrev Answer := Except Trouble Report

/-! ## The world -/

/-- Steps that are inserted at the moment of a call. -/
structure Cue where
  /-- The call. -/
  call : Call
  /-- The steps. -/
  steps : List Step

/-- What a scenario begins with. -/
structure Setting where
  /-- The workspace. -/
  store : Workspace.Store
  /-- The published packages: for every name and version, the files. -/
  catalog : Table String (Table String (Table String String)) := ∅
  /-- The failures that are laid down. -/
  failures : List Failure := []
  /-- The inserted steps. -/
  cues : List Cue := []
  /-- The file of the index, if it is not the one of the settings. -/
  indexPath? : Option String := none
  /-- Whether builds use the index. -/
  usesIndex : Bool := true
  /-- The remappings of builds, if they are not loaded from the workspace. -/
  remappings? : Option (List Import.Remapping) := none

/-- The world in which steps take place. -/
structure World where
  /-- The service. -/
  service : Service
  /-- The workspace. -/
  store : Workspace.Store
  /-- The published packages. -/
  catalog : Table String (Table String (Table String String))
  /-- The failures that are laid down. -/
  failures : List Failure
  /-- The inserted steps whose calls have not come yet. -/
  cues : List Cue
  /-- The verdict of the compiler. -/
  verdict : Compile.Verdict := .result ⟨true, [], []⟩
  /-- The builder of the bundles that are built outside compile requests. -/
  builder : Bundle.Builder
  /-- The most levels that a traversal can have. -/
  budget : Nat
  /-- The versions that are being chosen. -/
  resolver? : Option Resolver := none
  /-- The calls to the registry, newest first. -/
  registryCalls : List Call := []
  /-- The calls to the compiler with the paths of the sources, newest first. -/
  compilerCalls : List (String × List String) := []
  /-- What processes that were started together have answered. -/
  delivered : List (Nat × Answer) := []
  /-- The number of such processes. -/
  deliveries : Nat := 0
  /-- The answers of the inserted steps since the last step of the scenario, newest first. -/
  cued : List Answer := []
  /-- The answers of the steps, each with those of the inserted steps, newest first. -/
  answers : List (Answer × List Answer) := []

/-- A part of a scenario. -/
abbrev Act := Process World

end SourceBundle.Scenario
