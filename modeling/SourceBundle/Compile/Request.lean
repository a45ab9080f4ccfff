/-
# Compile requests

A compile request resolves the imports of its target and hands the bundle to the compiler.  The
requests for a target are numbered, and only the newest one counts: an older one neither reaches
the compiler nor reports a result.  A switch of the workspace ends all requests that are under way.
A failed resolution is reported as a diagnostic of the target.
-/
import SourceBundle.Bundle.Build
import SourceBundle.Json.Writer

namespace SourceBundle.Compile

open SourceBundle.Text

/-- What a compile request reports back. -/
structure Outcome where
  /-- The file that was compiled. -/
  target : String
  /-- Whether the compilation succeeded. -/
  success : Bool
  /-- The number of the request. -/
  generation : Int
  /-- Whether the request is no longer the newest. -/
  superseded : Bool := false
  /-- The result of the compiler. -/
  result? : Option Result := none
  /-- The diagnostics. -/
  diagnostics : List Diagnostic := []
  /-- The bundle that was compiled. -/
  bundle? : Option Bundle := none
  /-- The warnings of the resolution. -/
  warnings : WarningLog := {}
  /-- The state of the run. -/
  context : Context

/-- Begin a new run for a target, which supersedes those under way. -/
def beginRun (target : String) (s : Service) : Context × Service :=
  let generation := (s.generations.get? target).getD 0 + 1
  ({ target := target, generation := generation, standing := .generation generation s.epoch },
    { s with generations := s.generations.insert target generation })

/-- The outcome of a request that is no longer the newest. -/
def dropped (c : Context) : Work Outcome := do
  Work.log (.compileDropped c.target c.generation)
  pure { target := c.target, success := false, generation := c.generation, superseded := true, context := c }

/-- The outcome of a failed resolution. -/
def failed (c : Context) (f : Fault) : Work Outcome := do
  if ← Work.contextIsCurrent c then
    let ofWorkspace := match f with
      | .workspace _ => true
      | _ => false
    Work.log (.resolutionFailed c.target f.message)
    pure
      { target := c.target, success := false, generation := c.generation, context := c
        diagnostics := [.ofFailure c.target ofWorkspace f.message], warnings := c.warnings }
  else dropped c

/-- The outcome of a compiled bundle. -/
def reported (sources : Bundle) (c : Context) (v : Verdict) : Outcome :=
  let (result?, diagnostics, success) := match v with
    | .diagnostic d => (none, [d], !d.isError)
    | .result r => (some r, r.diagnostics, r.success)
  { target := c.target, success := success, generation := c.generation, result? := result?
    diagnostics := diagnostics, bundle? := some sources, warnings := c.warnings, context := c }

/-- The outcome of a request after the verdict of the compiler. -/
def concluded (sources : Bundle) (c : Context) (v : Verdict) : Work Outcome := do
  if ← Work.contextIsCurrent c then pure (reported sources c v) else dropped c

/-- Hand sources to the compiler. -/
def forward (sources : Bundle) (c : Context) : Task Outcome := do
  let v ← Work.compile sources c.target c
  Task.work (concluded sources c v)

/-- Whether a character stays in the name of a snapshot. -/
def isSnapshotChar (c : Char) : Bool := c.isAlphanum || c == '.' || c == '_' || c == '-'

/-- A name with every run of other characters replaced by one underscore; the flag tells whether
the last character was replaced. -/
def replaceRuns : Bool → List Char → List Char
  | _, [] => []
  | replaced, c :: cs =>
    if isSnapshotChar c then c :: replaceRuns false cs
    else if replaced then replaceRuns true cs
    else '_' :: replaceRuns true cs

/-- The name of the snapshot of a target's bundle. -/
def snapshotName (target : String) : String :=
  let cs := dropAround (· == '_') (replaceRuns false target.toList)
  if cs.isEmpty then "bundle" else String.ofList cs

/-- The document of a snapshot. -/
def snapshot (target : String) (bundle : Bundle) : String :=
  String.ofList <| Json.writeObject 0
    [("target", Json.writeText target),
      ("sources", Json.writeObject 1 (bundle.entries.map fun e => (e.1, Json.writeText e.2)))]

/-- Write the snapshot of a bundle; a failure of the workspace is only reported. -/
def writeSnapshot (target : String) (bundle : Bundle) : Task Unit := do
  let s ← Task.work Work.settings
  let path := s.snapshotDir ++ snapshotName target ++ ".json"
  Task.handle
    (do
      Workspace.ensureDirectory path
      Work.write path (snapshot target bundle))
    fun
    | .workspace f => some (Task.work (Work.log (.snapshotFailed path f.message)))
    | _ => none

/-- The builder of new compile requests. -/
def currentBuilder (s : Service) : Bundle.Builder := ⟨s.builder, none, true⟩

/-- The content of a target: the given one, or that which the workspace has for it. -/
def entryContent (given? : Option String) (target : String) : Task String :=
  match given? with
  | some content => pure content
  | none => Workspace.readTwice target

/-- Resolve the imports of a target, with the content that it is given or that the workspace has
for it; the state of the run comes with the result. -/
def resolve (budget : Nat) (given? : Option String) (c : Context) :
    Work (Except Fault Bundle × Context) := do
  match ← (entryContent given? c.target).run with
  | .error f => pure (.error f, c)
  | .ok content => do
    let b ← Routine.gets currentBuilder
    Bundle.build b budget c.target content c

/-- Hand a complete bundle to the compiler, after its snapshot if snapshots are written. -/
def compileBundle (bundle : Bundle) (c : Context) : Task Outcome := do
  Task.work (Work.log (.bundleReady c.target bundle.size))
  let s ← Task.work Work.settings
  if s.writeSnapshot then writeSnapshot c.target bundle
  forward bundle c

/-- Conclude a request whose imports have been resolved, or could not be. -/
def afterResolution (result : Except Fault Bundle) (c : Context) : Task Outcome :=
  match result with
  | .error f => if f.isReported then Task.work (failed c f) else throw f
  | .ok bundle => do
    if ← Task.work (Work.contextIsCurrent c) then compileBundle bundle c
    else Task.work (dropped c)

/-- Compile a target with the given sources in a run that has begun. -/
def compileRun (budget : Nat) (sources : Bundle) (target : String) (c : Context) : Task Outcome := do
  if Import.hasGrammar target then
    let (result, c) ← Task.work (resolve budget (sources.get? target) c)
    afterResolution result c
  else
    Task.work (Work.log (.resolutionSkipped target))
    forward sources c

/-- Compile a target with the given sources. -/
def compile (budget : Nat) (sources : Bundle) (target : String) : Task Outcome := do
  let c ← Task.work (Routine.modifyGet (beginRun target))
  compileRun budget sources target c

/-- The file that an import resolved to: in the importing file if it is given, and else in any. -/
def navigate (file? : Option String) (literal : String) : Task (Option String) := do
  Index.load
  let i ← Task.work (Routine.gets (·.index))
  match file?.bind fun f => if f.isEmpty then none else i.lookup f literal with
  | some path => pure (some path)
  | none => pure (i.lookupAny literal)

/-- The service after a switch of the workspace: requests under way are no longer current, the
cache is empty, and new requests have a new builder. -/
def switchWorkspace (s : Service) : Service :=
  { s with
    epoch := s.epoch + 1
    cache := s.cache.clear
    shelves := s.shelves ++ [[]]
    builder := s.shelves.length }

/-- Drop everything that was derived from the workspace, and reload the index. -/
def workspaceChanged : Task Unit := do
  Task.work (Routine.modify switchWorkspace)
  Index.reload
  Task.work (Work.log .workspaceChanged)

end SourceBundle.Compile
