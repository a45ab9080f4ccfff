/-
# The journal

Records of what a resolution did.  A record has a level, the part that wrote it, a text, and fields
by which it can be found.  How long something took is not known to a record: its text has an N in
that place.
-/
import SourceBundle.Import.Statement
import SourceBundle.PackageKey
import SourceBundle.Settings.Apply
import SourceBundle.Warning

namespace SourceBundle

/-- How grave a record is. -/
inductive LogLevel
  /-- For those who look for an error. -/
  | debug
  /-- The normal course. -/
  | info
  /-- Something was skipped or not done. -/
  | warning
  /-- A request failed. -/
  | error
deriving DecidableEq, Repr

/-- The number of a level. -/
def LogLevel.rank : LogLevel → Nat
  | .debug => 10
  | .info => 20
  | .warning => 30
  | .error => 40

/-- The name of a level. -/
def LogLevel.word : LogLevel → String
  | .debug => "DEBUG"
  | .info => "INFO"
  | .warning => "WARNING"
  | .error => "ERROR"

/-- The parts that write records. -/
inductive LogSource
  /-- The settings. -/
  | settings
  /-- The remappings. -/
  | remapping
  /-- The lockfiles. -/
  | lockfile
  /-- The manifests. -/
  | manifest
  /-- The choice of versions. -/
  | versions
  /-- The workspace. -/
  | workspace
  /-- The warnings. -/
  | warnings
  /-- The cache of packages. -/
  | cache
  /-- The state of a run. -/
  | context
  /-- The traversal of imports. -/
  | builder
  /-- The resolution index. -/
  | index
  /-- The compile requests. -/
  | compiler
  /-- The client of the registry. -/
  | registry
deriving DecidableEq, Repr

/-- The value of a field. -/
inductive LogValue
  /-- A text. -/
  | text (s : String)
  /-- A number. -/
  | number (n : Int)
deriving DecidableEq, Repr

/-- A record of the journal. -/
structure LogRecord where
  /-- How grave it is. -/
  level : LogLevel
  /-- Which part wrote it. -/
  source : LogSource
  /-- What it says. -/
  text : String
  /-- The fields by which it can be found. -/
  fields : List (String × LogValue) := []
deriving DecidableEq, Repr

namespace LogRecord

/-- The fields that have a value, in their order. -/
def given {α : Type} (fields : Table String (Option α)) : List (String × α) :=
  fields.entries.filterMap fun (k, v?) => v?.map fun v => (k, v)

/-- The fields that name an event and the component that it happened in. -/
def event (name component : String) (more : List (String × String)) :
    List (String × LogValue) :=
  (("event", name) :: ("component", component) :: more).map fun (k, v) => (k, .text v)

/-! ## Settings, rules and declarations -/

/-- An entry of a configuration was not applied. -/
def notice (n : Settings.Notice) : LogRecord := ⟨.warning, .settings, n.message, []⟩

/-- A line of remappings is no rule. -/
def malformedRemapping (line : String) : LogRecord :=
  ⟨.debug, .remapping, "Skipping malformed remapping line: " ++ Text.quoted line, []⟩

/-- A file of remappings is skipped, and nobody collects warnings. -/
def skippedRemappings (path reason : String) : LogRecord :=
  ⟨.warning, .remapping, s!"Skipping {path}: {reason}", []⟩

/-- The remappings were loaded. -/
def remappingsLoaded (count : Nat) : LogRecord :=
  ⟨.debug, .remapping, s!"Loaded {count} remapping rules", []⟩

/-- A lockfile was read. -/
def lockfileRead (count : Nat) (file : String) : LogRecord :=
  ⟨.debug, .lockfile, s!"Parsed {count} packages from {file}", []⟩

/-- A manifest was read; one without a name, or with an empty one, is called unnamed. -/
def manifestRead (name? : Option String) (fields : Nat) : LogRecord :=
  let name := (name?.filter (!String.isEmpty ·)).getD "<unnamed>"
  ⟨.debug, .manifest, s!"Parsed manifest {name} with {fields} declaration fields", []⟩

/-- A version was chosen. -/
def versionResolved (name version source : String) : LogRecord :=
  ⟨.debug, .versions, s!"Resolved {name} to {version} via {source}",
    event "version_resolved" "version_resolver" [("package", name), ("source", source)]⟩

/-- A read failed and is repeated. -/
def readRetried (path reason : String) : LogRecord :=
  ⟨.debug, .workspace, s!"Workspace read failed, retrying once: {reason}",
    event "io_retry" "workspace" [("target", path)]⟩

/-- The name of the event that a warning is. -/
def warningEvent : Warning → String
  | .parseFailure _ _ => "parse_error"
  | .invalidLockEntry _ _ _ => "lockfile_mismatch"
  | .duplicateFile _ _ _ _ => "duplicate_file"
  | .unresolvedManifestRange _ _ _ => "manifest_range_unsatisfied"
  | .unresolvedParentRange _ _ _ _ => "parent_range_unsatisfied"
  | .parentConflict _ _ => "multi_parent_conflict"

/-- A warning was given. -/
def warned (w : Warning) : LogRecord :=
  ⟨.warning, .warnings, w.message, event (warningEvent w) "warning_system" []⟩

/-! ## The cache -/

/-- A package could not be fetched. -/
def fetchFailed (key : PackageKey) (reason : String) : LogRecord :=
  ⟨.warning, .cache, s!"Fetch failed for {key.render}: {reason}",
    event "package_fetch" "resolution_cache" [("outcome", "error"), ("key", key.render)]⟩

/-- A package was fetched. -/
def fetched (key : PackageKey) (files : Nat) : LogRecord :=
  ⟨.info, .cache, s!"Fetched {key.render} ({files} files) in N ms",
    event "package_fetch" "resolution_cache" [("outcome", "success"), ("key", key.render)]⟩

/-! ## The traversal -/

/-- The records of a run are not committed. -/
def commitDiscarded (target : String) (generation : Int) : LogRecord :=
  ⟨.info, .context, s!"Discarding superseded resolution of {target} (generation {generation})",
    event "index_commit" "resolution_context" [("outcome", "superseded")]⟩

/-- A run stops because it is no longer current. -/
def buildStopped (entry : String) : LogRecord :=
  ⟨.info, .builder, s!"Resolution of {entry} superseded, stopping", []⟩

/-- A level of files was traversed. -/
def levelDone (depth files packages : Nat) : LogRecord :=
  ⟨.debug, .builder, s!"Level {depth}: {files} files scanned, {packages} packages fetched",
    event "graph_level" "graph_builder" [] ++ [("depth", .number depth)]⟩

/-- A bundle is complete. -/
def buildDone (entry : String) (files packages : Nat) : LogRecord :=
  ⟨.info, .builder, s!"Resolved {entry}: {files} files from {packages} packages in N ms",
    event "graph_build" "graph_builder" [("outcome", "success"), ("target", entry)]⟩

/-- A package could not be written to the workspace. -/
def materializeFailed (key : PackageKey) (reason : String) : LogRecord :=
  ⟨.warning, .builder, s!"Failed to write {key.render} to the workspace: {reason}",
    event "materialize" "graph_builder" [("outcome", "error")]⟩

/-! ## The index -/

/-- The document of the index is no index. -/
def indexCorrupt (path reason : String) : LogRecord :=
  ⟨.warning, .index, s!"Resolution index {path} is corrupt, starting empty: {reason}",
    event "index_load" "resolution_index" [("outcome", "corrupt")]⟩

/-- The document of the index cannot be read. -/
def indexUnreadable (path reason : String) : LogRecord :=
  ⟨.warning, .index, s!"Resolution index {path} could not be read, starting empty: {reason}",
    event "index_load" "resolution_index" [("outcome", "io_error")]⟩

/-- The index was loaded. -/
def indexLoaded (files : Nat) : LogRecord :=
  ⟨.debug, .index, s!"Loaded resolution index with {files} source files", []⟩

/-- The index could not be saved. -/
def indexNotSaved (path reason : String) : LogRecord :=
  ⟨.warning, .index, s!"Failed to save resolution index {path}: {reason}",
    event "index_save" "resolution_index" [("outcome", "error")]⟩

/-- The index was saved. -/
def indexSaved (files : Nat) : LogRecord :=
  ⟨.debug, .index, s!"Saved resolution index ({files} source files)",
    event "index_save" "resolution_index" [("outcome", "success")]⟩

/-! ## Compile requests -/

/-- A target is compiled without resolution. -/
def resolutionSkipped (target : String) : LogRecord :=
  ⟨.debug, .compiler, s!"Skipping resolution for {target}", []⟩

/-- The imports of a target could not be resolved. -/
def resolutionFailed (target reason : String) : LogRecord :=
  ⟨.error, .compiler, s!"Import resolution failed for {target}: {reason}",
    event "resolve" "compiler_adapter" [("outcome", "error"), ("target", target)]⟩

/-- The bundle of a target is ready. -/
def bundleReady (target : String) (files : Nat) : LogRecord :=
  ⟨.debug, .compiler, s!"Bundle for {target} ready ({files} files, N ms)",
    event "resolve" "compiler_adapter" [("outcome", "success"), ("target", target)]⟩

/-- The outcome of a request is dropped. -/
def compileDropped (target : String) (generation : Int) : LogRecord :=
  ⟨.info, .compiler, s!"Dropping superseded compile of {target} (generation {generation})",
    event "compile" "compiler_adapter" [("outcome", "superseded")]⟩

/-- The snapshot of a bundle could not be written. -/
def snapshotFailed (path reason : String) : LogRecord :=
  ⟨.warning, .compiler, s!"Failed to write bundle snapshot {path}: {reason}", []⟩

/-- The workspace was switched. -/
def workspaceChanged : LogRecord :=
  ⟨.info, .compiler, "Workspace changed: cache cleared and resolution index reloaded", []⟩

/-! ## The client of the registry -/

/-- The registry answered. -/
def responded (address : String) (status : Int) (attempt : Nat) : LogRecord :=
  ⟨.debug, .registry, "HTTP response",
    event "http_response" "npm_registry" [("action", "GET"), ("target", address)] ++
      [("status_code", .number status), ("attempt", .number attempt)]⟩

/-- An attempt failed. -/
def attemptFailed (address reason : String) (attempt : Nat) : LogRecord :=
  ⟨.debug, .registry, s!"HTTP attempt failed: {reason}",
    event "http_exception" "npm_registry" [("target", address)] ++ [("attempt", .number attempt)]⟩

/-- A package was downloaded. -/
def downloaded (name version : String) (files : Nat) : LogRecord :=
  ⟨.info, .registry, s!"Fetched {name}@{version} ({files} files)", []⟩

/-- A file of a package is no text. -/
def notText (path : String) : LogRecord :=
  ⟨.debug, .registry, s!"Skipping non-UTF-8 package file: {path}", []⟩

end LogRecord

end SourceBundle
