/-
# Rules and declarations of the workspace

Loading the remappings, the manifest and the lockfile of the workspace.  A file that is missing
has nothing to say; one that cannot be understood is skipped with a warning, if warnings are
collected at all.
-/
import SourceBundle.Service.Basic
import SourceBundle.Text.Blank
import SourceBundle.Workspace.Access

namespace SourceBundle.Resolve

open SourceBundle.Import SourceBundle.Text

/-- Work that collects warnings. -/
abbrev Warned := Stateful WarningLog

/-- Give a warning, unless one with its key has been given. -/
def warn (w : Warning) : Warned Unit := do
  let log ← getThe WarningLog
  if !log.knows w then
    set (log.add w)
    Stateful.work (Work.log (.warned w))

/-- Read the rules of some lines, and report the lines that are none. -/
def readRules (origin : String) (ls : List String) : Work (List Remapping) := do
  Work.logAll ((Remapping.malformedLines origin ls).map .malformedRemapping)
  pure (Remapping.ofLines origin ls)

/-- The lines of rules in the text of a project configuration. -/
def configLines (path content : String) : Except Fault (Except ParseFault (List String)) :=
  match Json.read content with
  | .error .numberTooLong => .error .numberTooLong
  | .error (.misfit c pos) => .ok (.error (.json (c.describe content pos) path))
  | .ok config => .ok (Remapping.linesOfConfig config)

/-- Load the remappings: those of their own file, and those of the project configuration if it is
used.  Without `collect` a skipped configuration is only reported in the journal. -/
def loadRemappings (use? : Option Bool) (collect : Bool) : Warned (List Remapping) := do
  let use := use?.getD (← Stateful.work Work.settings).useFileConfiguration
  let textPath := (← Stateful.work Work.settings).remappingsFile
  let rules ← match ← Stateful.task (Workspace.readOptional textPath) with
    | none => pure []
    | some content => Stateful.work (readRules textPath (lines content))
  let configPath := (← Stateful.work Work.settings).projectConfigFile
  let content? ← if use then Stateful.task (Workspace.readOptional configPath) else pure none
  let more ← match content? with
    | none => pure []
    | some content =>
      match ← Stateful.outcome (configLines configPath content) with
      | .ok ls => Stateful.work (readRules configPath ls)
      | .error f =>
        if collect then warn (.parseFailure configPath f.message)
        else Stateful.work (Work.log (.skippedRemappings configPath f.message))
        pure []
  let all := rules ++ more
  Stateful.work (Work.log (.remappingsLoaded all.length))
  pure all

/-- Read a manifest, and report that it was read. -/
def readManifest (content : String) : Task (Except ParseFault Manifest) :=
  match Manifest.parse content with
  | .ok m => do
    Task.work (Work.log (.manifestRead m.name? m.declarations.size))
    pure (.ok m)
  | .error .numberTooLong => throw .numberTooLong
  | .error (.parse f) => pure (.error f)

/-- Load the manifest of the workspace. -/
def loadManifest (collect : Bool) : Warned (Option Manifest) := do
  match ← Stateful.task (Workspace.readOptional manifestFile) with
  | none => pure none
  | some content =>
    match ← Stateful.task (readManifest content) with
    | .ok m => pure (some m)
    | .error f =>
      if collect then warn (.parseFailure manifestFile f.message)
      pure none

/-- Load the lockfile of blocks; one without entries counts as missing. -/
def loadBlocks (collect : Bool) : Warned (Option Lockfile) := do
  match ← Stateful.task (Workspace.readOptional yarnLockFile) with
  | none => pure none
  | some content =>
    let lock := Lock.ofBlocks content
    Stateful.work (Work.log (.lockfileRead lock.size yarnLockFile))
    if !lock.isEmpty then pure (some lock)
    else
      if collect && !(trim content).isEmpty then
        warn (.parseFailure yarnLockFile "no lock entries found")
      pure none

/-- Load the lockfile that is a document. -/
def loadDocument (collect : Bool) : Warned (Option Lockfile) := do
  match ← Stateful.task (Workspace.readOptional packageLockFile) with
  | none => pure none
  | some content =>
    match Lock.ofDocument content with
    | .ok lock =>
      Stateful.work (Work.log (.lockfileRead lock.size packageLockFile))
      pure (some lock)
    | .error .numberTooLong => throw .numberTooLong
    | .error (.parse f) =>
      if collect then warn (.parseFailure packageLockFile f.message)
      pure none

/-- Load the lockfile of the workspace: that of blocks, or else the document. -/
def loadLockfile (collect : Bool) : Warned (Option Lockfile) := do
  match ← loadBlocks collect with
  | some lock => pure (some lock)
  | none => loadDocument collect

/-- The resolver of a workspace, which goes on with given warnings, choices and declarations. -/
def ofWorkspace (session : Table String String) (parents : Table PackageKey (Table String String)) :
    Warned Resolver := do
  let manifest? ← loadManifest true
  let lockfile? ← loadLockfile true
  pure ⟨manifest?, lockfile?.getD ∅, ← getThe WarningLog, session, parents, ∅, ∅⟩

end SourceBundle.Resolve
