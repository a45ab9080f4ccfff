/-
# Building a bundle

Starting from an entry file, imports are followed level by level until no new file turns up.  A
relative import names a file beside the importing one, an import that names a workspace file that
file, and any other import a file of a package, whose version is chosen and whose files all join
the bundle.  The packages that a level needs are fetched together.

The result is a bundle in which every import of every file has been resolved, or the first fault.
A run that is no longer current stops at the next level.
-/
import SourceBundle.Cache.Fetch
import SourceBundle.Index.Persist
import SourceBundle.Resolve.Chain
import SourceBundle.Text.Path

namespace SourceBundle.Bundle

open SourceBundle.Import SourceBundle.Text

/-- The ways in which an imported file is located. -/
inductive ImportKind
  /-- Beside the importing file. -/
  | relative
  /-- In the workspace, below the directory of fetched things. -/
  | local_
  /-- In the workspace if it is there, and else in a package. -/
  | package
deriving DecidableEq, Repr

/-- The name of a way to locate files. -/
def ImportKind.word : ImportKind → String
  | .relative => "relative"
  | .local_ => "local"
  | .package => "package"

/-- How the file of a remapped import is located. -/
def classify (s : Settings) (literal : String) : ImportKind :=
  if isRelative literal then .relative
  else if beginsWith s.depsDir.toList literal.toList && !beginsWith s.packageDir.toList literal.toList
  then .local_
  else .package

/-- The ending of the files that join a bundle. -/
def sourceEnding : List Char := ".sol".toList

/-- An import whose package is still to be fetched. -/
structure Waiting where
  /-- The importing file. -/
  file : String
  /-- The import as written. -/
  literal : String
  /-- The package. -/
  key : PackageKey
  /-- The file inside the package. -/
  subpath : String
deriving DecidableEq, Repr

/-- The place of the file that an import waits for. -/
def Waiting.path (w : Waiting) (s : Settings) : String := w.key.pathFor s w.subpath

/-- A builder: what it goes by, and the number of the shelf on which it notes the packages that it
has written to the workspace. -/
structure Builder where
  /-- The number of its shelf. -/
  shelf : Nat
  /-- Its remappings, if they are given and not loaded from the workspace. -/
  remappings? : Option (List Remapping)
  /-- Whether it loads the index and commits to it. -/
  usesIndex : Bool

/-- The state of a traversal. -/
structure Traversal where
  /-- The state of the run. -/
  context : Context
  /-- The manifest of the workspace. -/
  manifest? : Option Manifest := none
  /-- The lockfile of the workspace. -/
  lockfile : Lockfile := ∅
  /-- The published versions of the packages asked for so far. -/
  published : Table String (List String) := ∅
  /-- The versions chosen so far for ranges that imports ask for. -/
  pins : Table (String × String) String := ∅
  /-- The files found so far. -/
  bundle : Bundle := ∅
  /-- The packages fetched so far. -/
  fetched : List PackageKey := []
  /-- The files of the next level. -/
  next : List String := []
  /-- The imports of this level whose packages are still to be fetched. -/
  waiting : List Waiting := []

/-- Work on a traversal. -/
abbrev Traversing := Stateful Traversal

namespace Traversal

/-- The part of a traversal that chooses versions. -/
def resolver (t : Traversal) : Resolver where
  manifest? := t.manifest?
  lockfile := t.lockfile
  warnings := t.context.warnings
  session := t.context.session
  parents := t.context.parents
  published := t.published
  pins := t.pins

/-- The traversal after versions have been chosen. -/
def withResolver (t : Traversal) (r : Resolver) : Traversal :=
  { t with
    context := { t.context with warnings := r.warnings, session := r.session, parents := r.parents }
    manifest? := r.manifest?
    lockfile := r.lockfile
    published := r.published
    pins := r.pins }

/-- Add a file to the bundle and to the next level. -/
def addFile (t : Traversal) (path content : String) : Traversal :=
  { t with bundle := t.bundle.insert path content, next := t.next ++ [path] }

/-- The packages that are waited for and have not been fetched, in their order. -/
def newKeys (t : Traversal) : List PackageKey :=
  PackageKey.sort ((t.waiting.map (·.key)).filter fun k => !t.fetched.contains k).eraseDups

end Traversal

/-- Change the state of the run. -/
def changeContext (f : Context → Context) : Traversing Unit :=
  modifyThe Traversal fun t => { t with context := f t.context }

/-- Work that collects warnings, as part of a traversal. -/
def collecting {α : Type} (x : Resolve.Warned α) : Traversing α :=
  Run.zoom (fun (t : Traversal) => t.context.warnings)
    (fun l t => { t with context := { t.context with warnings := l } }) x

/-- Work that chooses versions, as part of a traversal. -/
def choosing {α : Type} (x : Resolve.Choosing α) : Traversing α :=
  Run.zoom Traversal.resolver (fun r t => t.withResolver r) x

/-! ## Locating the file of an import -/

/-- Add a workspace file to the bundle, unless it is there. -/
def addLocal (path : String) (ref : Reference) : Traversing Unit := do
  let t ← getThe Traversal
  if t.bundle.contains path then pure ()
  else
    let content ← Stateful.task <| Task.handle
      (do
        if ← Work.probe path then Workspace.readTwice path
        else throw (.resolution (.missing path ref.file ref.path)))
      fun
      | .workspace f => some (throw (.resolution (.unreadable path ref.path f)))
      | _ => none
    modifyThe Traversal fun t => t.addFile path content

/-- Whether an import names a file of the bundle or of the workspace. -/
def isFile (literal : String) (ref : Reference) : Traversing Bool := do
  let t ← getThe Traversal
  if t.bundle.contains literal then pure true
  else
    (Stateful.task (Work.probe literal)).handle fun
      | .workspace f => some (throw (.resolution (.unknownPresence literal ref.path f)))
      | _ => none

/-- Choose the package of an import and let the import wait for it. -/
def awaitPackage (ref : Reference) (package : PackageReference) : Traversing String := do
  if package.subpath.isEmpty then throw (.resolution (.noFile ref.path ref.file package))
  else
    let t ← getThe Traversal
    let resolved ← choosing (Resolve.resolve package (t.context.filePackages.get? ref.file))
    let item : Waiting := ⟨ref.file, ref.path, ⟨package.fullName, resolved.version⟩, package.subpath⟩
    modifyThe Traversal fun t => { t with waiting := t.waiting ++ [item] }
    pure (item.path (← Stateful.work Work.settings))

/-- The path that a relative import of a file names. -/
def relativePath (file literal : String) : String := Path.normal (Path.join (Path.parent file) literal)

/-- The text of a package import without the directory of the fetched packages in front. -/
def packageLiteral (s : Settings) (literal : String) : String :=
  match dropPrefix? s.packageDir.toList literal.toList with
  | some rest => String.ofList rest
  | none => literal

/-- The path of the file of an import; nothing for an import that is skipped with a warning. -/
def locate (ref : Reference) (literal : String) : Traversing (Option String) := do
  let s ← Stateful.work Work.settings
  let kind := classify s literal
  if kind = .relative then
    let path := relativePath ref.file literal
    addLocal path ref
    pure (some path)
  else if ← (if kind = .package then isFile literal ref else pure true) then
    addLocal literal ref
    pure (some literal)
  else
    let s ← Stateful.work Work.settings
    match PackageReference.parse (packageLiteral s literal) with
    | .error f =>
      collecting (Resolve.warn
        (.parseFailure ("import " ++ quoted ref.path ++ " in " ++ ref.file) f.message))
      pure none
    | .ok package =>
      let path ← awaitPackage ref package
      pure (some path)

/-- Note what an import resolved to: in the graph, and for the index under the import as it is
written and, if a rule applies to it, as it is remapped. -/
def noteImport (rules : List Remapping) (ref : Reference) (path : String) (c : Context) : Context :=
  let (literal, rule?) := remap rules ref.path
  let c := (c.addEdge ref.file path).record ref.file ref.path path
  if rule?.isSome then c.record ref.file literal path else c

/-- Follow an import, and note what it resolved to. -/
def followImport (rules : List Remapping) (ref : Reference) : Traversing Unit := do
  match ← locate ref (remap rules ref.path).1 with
  | none => pure ()
  | some path => changeContext (noteImport rules ref path)

/-- Follow the imports of a file of the bundle. -/
def scan (rules : List Remapping) (file : String) : Traversing Unit := do
  changeContext (·.markScanned file)
  let t ← getThe Traversal
  (extract ((t.bundle.get? file).getD "") file).forM (followImport rules)

/-! ## Adding packages -/

/-- Remember the ranges that a fetched package declares for its own imports. -/
def recordParent (node : Node) : Traversing Unit := do
  match node.files.get? manifestFile with
  | none => pure ()
  | some content =>
    match ← Stateful.task (Resolve.readManifest content) with
    | .error f =>
      let s ← Stateful.work Work.settings
      collecting (Resolve.warn (.parseFailure (node.pathFor s manifestFile) f.message))
    | .ok m =>
      let deps := m.runtimeDependencies
      if deps.isEmpty then pure ()
      else changeContext fun c => { c with parents := c.parents.insert node.key deps }

/-- Note the version of a package from which one of its files is bundled, and warn if it was
bundled from another version before. -/
def notePackageFile (key : PackageKey) (path : String) : Traversing Unit := do
  let t ← getThe Traversal
  let previous := (t.context.bundled.get? (key.name, path)).getD key.version
  changeContext fun c => { c with bundled := c.bundled.insertNew (key.name, path) key.version }
  if previous != key.version then
    collecting (Resolve.warn (.duplicateFile key.name path previous key.version))

/-- Add a file of a package to the bundle, unless it is there or is no source file. -/
def addPackageFile (node : Node) (path content : String) : Traversing Unit := do
  if endsWith sourceEnding path.toList then
    let s ← Stateful.work Work.settings
    let place := node.pathFor s path
    let t ← getThe Traversal
    if t.bundle.contains place then pure ()
    else
      notePackageFile node.key path
      changeContext fun c => { c with filePackages := c.filePackages.insert place node.key }
      modifyThe Traversal fun t => t.addFile place content

/-- Add the source files of a package to the bundle, in the order of their paths. -/
def addPackage (node : Node) : Traversing Unit :=
  node.files.sorted.forM fun (path, content) => addPackageFile node path content

/-- Write the files of a package to the workspace. -/
def writePackage (node : Node) : Task Unit :=
  node.files.entries.forM fun (path, content) => do
    let s ← Task.work Work.settings
    let place := node.pathFor s path
    Workspace.ensureDirectory place
    Work.write place content

/-- Write a package to the workspace once, if packages are written at all.  A failure of the
workspace is only reported. -/
def materialize (shelf : Nat) (node : Node) : Task Unit := do
  let s ← Task.work Routine.get
  if !s.settings.materialize || (s.shelves.getD shelf []).contains node.key then pure ()
  else
    Task.handle
      (do
        writePackage node
        Task.work (Routine.modify fun s =>
          { s with shelves := s.shelves.modify shelf fun keys => keys ++ [node.key] }))
      fun
      | .workspace f => some (Task.work (Work.log (.materializeFailed node.key f.message)))
      | _ => none

/-- Add a fetched package to the traversal. -/
def joinPackage (shelf : Nat) (node : Node) : Traversing Unit := do
  modifyThe Traversal fun t => { t with fetched := t.fetched ++ [node.key] }
  recordParent node
  addPackage node
  Stateful.task (materialize shelf node)

/-- Check that the imports of the level have found their files in the fetched packages. -/
def checkWaiting : List Waiting → Traversing Unit
  | [] => pure ()
  | w :: ws => do
    let s ← Stateful.work Work.settings
    let t ← getThe Traversal
    if t.bundle.contains (w.path s) then checkWaiting ws
    else throw (.resolution (.notInPackage w.subpath w.key w.file w.literal))

/-! ## The levels -/

/-- Complete a level whose files have been scanned: fetch the packages that its imports wait for,
add them, and check that the imports have found their files.  The answer is the next level. -/
def completeLevel (shelf depth scanned : Nat) : Traversing (List String) := do
  let t ← getThe Traversal
  let nodes ← Stateful.task (Cache.fetchAll t.newKeys)
  nodes.forM (joinPackage shelf)
  checkWaiting t.waiting
  Stateful.work (Work.log (.levelDone depth scanned nodes.length))
  let t ← getThe Traversal
  pure t.next

/-- Traverse a level of files; the answer is the next level. -/
def traverseLevel (shelf : Nat) (rules : List Remapping) (depth : Nat) (level : List String) :
    Traversing (List String) := do
  modifyThe Traversal fun t => { t with next := [], waiting := [] }
  level.forM (scan rules)
  completeLevel shelf depth level.length

/-- Traverse level after level while there are files and the run is current; the answer tells
whether the traversal is complete.  The budget limits the number of levels. -/
def traverse (shelf : Nat) (rules : List Remapping) (entry : String) :
    Nat → Nat → List String → Traversing Bool
  | _, _, [] => pure true
  | 0, _, _ :: _ => throw .exhausted
  | budget + 1, depth, file :: files => do
    let t ← getThe Traversal
    if ← Stateful.work (Work.contextIsCurrent t.context) then
      let next ← traverseLevel shelf rules depth (file :: files)
      traverse shelf rules entry budget (depth + 1) next
    else
      Stateful.work (Work.log (.buildStopped entry))
      pure false

/-- Commit the records of a run to the index, if the run is current. -/
def commit (c : Context) : Work Bool := do
  if ← Work.contextIsCurrent c then
    Index.change c.commit
    pure true
  else
    Work.log (.commitDiscarded c.target c.generation)
    pure false

/-- Finish a complete traversal: note the bundle, commit the records, and save the index. -/
def finish (b : Builder) (entry : String) : Traversing Unit := do
  let t ← getThe Traversal
  changeContext fun c => { c with bundle? := some t.bundle }
  Stateful.work (Work.log (.buildDone entry t.bundle.size t.fetched.length))
  let t ← getThe Traversal
  if b.usesIndex then
    if ← Stateful.work (commit t.context) then
      let _ ← Stateful.task Index.save
      pure ()

/-- The remappings that a builder goes by. -/
def rulesOf (b : Builder) : Traversing (List Remapping) :=
  match b.remappings? with
  | some rules => pure rules
  | none => collecting (Resolve.loadRemappings none true)

/-- Prepare a traversal: load what the builder goes by, and begin with the entry as the only file.
The answer is the remappings. -/
def prepare (b : Builder) (entry content : String) : Traversing (List Remapping) := do
  if b.usesIndex then Stateful.task Index.load
  let rules ← rulesOf b
  let c := (← getThe Traversal).context
  let r ← collecting (Resolve.ofWorkspace c.session c.parents)
  modifyThe Traversal fun t => { t with
    manifest? := r.manifest?, lockfile := r.lockfile, bundle := Table.empty.insert entry content }
  pure rules

/-- Build the bundle of an entry file within a traversal. -/
def run (b : Builder) (budget : Nat) (entry content : String) : Traversing Bundle := do
  let rules ← prepare b entry content
  if ← traverse b.shelf rules entry budget 0 [entry] then finish b entry
  pure (← getThe Traversal).bundle

/-- Build the bundle of an entry file; the state of the run comes with the result, also when the
run fails. -/
def build (b : Builder) (budget : Nat) (entry content : String) (context : Context) :
    Work (Except Fault Bundle × Context) := do
  let (result, t) ← (run b budget entry content).begin { context := context }
  pure (result, t.context)

end SourceBundle.Bundle
