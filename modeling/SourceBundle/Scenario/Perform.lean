/-
# Performing steps

What each step of a scenario does.  The routines of the service are run in the world of the
scenario, with its collaborators answering their questions; steps that are inserted at a call are
performed within that call.
-/
import SourceBundle.Scenario.Collaborators

namespace SourceBundle.Scenario

/-- How the questions of the service are answered. -/
abbrev Responder := (q : Question) → Act q.Answer

/-- A part of a scenario that may have no report. -/
abbrev Trial := ExceptT Trouble Act

/-- Change the service. -/
def World.changeService (f : Service → Service) (w : World) : World :=
  { w with service := f w.service }

/-- Run a routine of the service in the world. -/
def host {α : Type} (respond : Responder) (x : Work α) : Act α :=
  x.embed (·.service) World.changeService respond

namespace Trial

/-- Look at the world. -/
def gets {α : Type} (f : World → α) : Trial α := ExceptT.lift (Routine.gets f)

/-- Change the world. -/
def modify (f : World → World) : Trial Unit := ExceptT.lift (Routine.modify f)

/-- Run a routine of the service that does not fail. -/
def work {α : Type} (respond : Responder) (x : Work α) : Trial α := ExceptT.lift (host respond x)

/-- Give an outcome. -/
def outcome {α : Type} (e : Except Fault α) : Trial α := ExceptT.mk (pure (e.mapError .fault))

/-- Run a task of the service. -/
def task {α : Type} (respond : Responder) (x : Task α) : Trial α := do
  outcome (← work respond x.run)

/-- Run work that collects warnings, and give the warnings with the result. -/
def warned {α : Type} (respond : Responder) (x : Resolve.Warned α) : Trial (α × WarningLog) := do
  let (result, log) ← work respond (x.begin {})
  let a ← outcome result
  pure (a, log)

end Trial

/-! ## Doing several things at once -/

/-- Perform something, and deliver what it answers. -/
def deliver (x : Act Answer) (delivery : Nat) : Act Unit := do
  let a ← x
  Routine.modify fun w => { w with delivered := (delivery, a) :: w.delivered }

/-- Start some processes, with the numbers of their deliveries and their own. -/
def startAll : List (Act Answer) → Act (List (Nat × Nat))
  | [] => pure []
  | x :: xs => do
    let delivery ← Routine.modifyGet fun w => (w.deliveries, { w with deliveries := w.deliveries + 1 })
    let id ← Routine.start (deliver x delivery)
    let rest ← startAll xs
    pure ((delivery, id) :: rest)

/-- Wait for some deliveries.  A process that was cancelled before it began delivers nothing. -/
def collect (deliveries : List Nat) : Act (List Answer) := do
  let _ ← Routine.await 1 fun w => deliveries.all fun d => (w.delivered.lookup d).isSome
  Routine.gets fun w =>
    deliveries.map fun d => (w.delivered.lookup d).getD (.error (.fault .cancelled))

/-- Perform some things at once; the answers come when all are done. -/
def together (xs : List (Act Answer)) : Act (List Answer) := do
  let started ← startAll xs
  collect (started.map (·.1))

/-! ## Parts of reports -/

/-- The key that a text is. -/
def keyOf (text : String) : Trial PackageKey :=
  match PackageKey.parse? text with
  | some key => pure key
  | none => throw (.fault (.noKey text))

/-- The keys that some texts are. -/
def keysOf : List String → Trial (List PackageKey)
  | [] => pure []
  | t :: ts => do
    let k ← keyOf t
    let ks ← keysOf ts
    pure (k :: ks)

/-- The places of the files of a package, in order. -/
def placesOf (s : Settings) (n : Node) : List String :=
  sortBy (fun a b => decide (a ≤ b)) (n.files.keys.map (n.pathFor s))

/-- What is seen of a run. -/
def sightOf (c : Context) : Work Sight := do
  let current ← Work.contextIsCurrent c
  pure ⟨c, !current⟩

/-- The index. -/
def indexReport (saved? : Option (List Bool)) : Trial Report :=
  Trial.gets fun w => .index w.service.index saved?

/-- The counts of the cache. -/
def statsReport : Trial Report := Trial.gets fun w => .stats w.service.cache

/-- The warnings of a report, if they are collected. -/
def shownWarnings (collected : Bool) (log : WarningLog) : Option (List String) :=
  if collected then some log.messages else none

/-- The order of calls: by the kind, then by the name. -/
def Call.le (a b : Call) : Bool :=
  decide (a.kind.word < b.kind.word) || (a.kind == b.kind && decide (a.name ≤ b.name))

/-- The reports of some answers, or the first trouble. -/
def reports (answers : List Answer) : Trial (List Report) := ExceptT.mk (pure (answers.mapM id))

/-- Report how a request to compile ended. -/
def compiled (e : Except Fault Compile.Outcome) : Work (Except Fault Compiled) :=
  match e with
  | .error f => pure (.error f)
  | .ok o => do
    let sight ← sightOf o.context
    pure (.ok ⟨o, sight⟩)

/-- Report how some requests to compile ended. -/
def allCompiled : List (Except Fault Compile.Outcome) → Work (List (Except Fault Compiled))
  | [] => pure []
  | e :: es => do
    let c ← compiled e
    let cs ← allCompiled es
    pure (c :: cs)

/-! ## Steps about the workspace and the collaborators -/

/-- Apply a configuration to the settings of the service. -/
def configure (c : Settings.Configuration) : Trial Report := do
  let applied ← Trial.gets fun w => w.service.settings.apply c
  Trial.modify fun w => w.changeService fun s =>
    { s with
      settings := applied.settings
      journal := (applied.notices.map LogRecord.notice).reverse ++ s.journal }
  if applied.overflowed then throw (.fault .overflow) else pure .nothing

/-- List the calls, and begin a new list. -/
def takeCalls (sorted : Bool) : Trial Report :=
  ExceptT.lift <| Routine.modifyGet fun w =>
    let registry := w.registryCalls.reverse
    (.calls (if sorted then sortBy Call.le registry else registry) w.compilerCalls.reverse,
      { w with registryCalls := [], compilerCalls := [] })

/-- Publish a version of a package. -/
def World.publish (w : World) (name version : String) (files : Table String String) : World :=
  { w with catalog := w.catalog.update name ∅ fun versions => versions.insert version files }

/-! ## Steps about the choice of versions -/

/-- The table of declarations of some packages. -/
def parentsOf : List (String × Table String String) →
    Trial (Table PackageKey (Table String String))
  | [] => pure ∅
  | parents => do
    let keys ← keysOf (parents.map (·.1))
    pure (Table.ofList (keys.zip (parents.map (·.2))))

/-- Begin to choose versions. -/
def beginResolver (respond : Responder) (session : Table String String)
    (parents : List (String × Table String String)) : Trial Report := do
  let parents ← parentsOf parents
  let (r, log) ← Trial.warned respond (Resolve.ofWorkspace session parents)
  let r := { r with warnings := log }
  Trial.modify fun w => { w with resolver? := some r }
  pure (.declarations r)

/-- The versions that are being chosen. -/
def currentResolver : Trial Resolver := do
  match ← Trial.gets (·.resolver?) with
  | some r => pure r
  | none => throw .noResolver

/-- Choose the version of an imported package. -/
def chooseVersion (respond : Responder) (literal : String) (parent? : Option String) :
    Trial Report := do
  let ref ← match Import.PackageReference.parse literal with
    | .ok ref => pure ref
    | .error f => throw (.malformed f)
  let parent? ← match parent? with
    | none => pure none
    | some text => do
      let key ← keyOf text
      pure (some key)
  let r ← currentResolver
  let (result, r) ← Trial.work respond ((Resolve.resolve ref parent?).begin r)
  Trial.modify fun w => { w with resolver? := some r }
  let v ← Trial.outcome result
  pure (.version v)

/-! ## Steps about packages -/

/-- Request a package. -/
def fetchPackage (respond : Responder) (text : String) : Trial Report := do
  let key ← keyOf text
  let n ← Trial.task respond (Cache.getOrFetch key)
  Trial.gets fun w => .package n (placesOf w.service.settings n)

/-- Request several packages at once. -/
def fetchPackages (respond : Responder) (texts : List String) : Trial Report := do
  let keys ← keysOf texts
  let outcomes ← if keys.isEmpty then pure [] else Trial.task respond (Cache.gather keys)
  pure (.fetched (outcomes.map fun o => o.map (·.key)))

/-- The key that a request for a package ended with. -/
def requestedKey (respond : Responder) (key : PackageKey) : Act Answer := ExceptT.run do
  let n ← Trial.task respond (Cache.getOrFetch key)
  pure (.fetched [.ok n.key])

/-- How a request ended, as it was delivered. -/
def deliveredKey : Answer → Except Fault PackageKey
  | .ok (.fetched [o]) => o
  | .ok _ => .error .cancelled
  | .error (.fault f) => .error f
  | .error _ => .error .cancelled

/-- Request a package twice at once, and cancel one of the requests after both have begun. -/
def fetchTwice (respond : Responder) (text : String) (cancelled : Nat) : Trial Report := do
  let key ← keyOf text
  let started ← ExceptT.lift (startAll [requestedKey respond key, requestedKey respond key])
  let _ ← ExceptT.lift (Routine.put (Q := Signal) .yield)
  match started[cancelled]? with
  | some (_, id) => ExceptT.lift (Routine.put (Q := Signal) (.cancel id))
  | none => pure ()
  let answers ← ExceptT.lift (collect (started.map (·.1)))
  pure (.fetched (answers.map deliveredKey))

/-- Look a package up in the cache. -/
def lookAtCache (text : String) : Trial Report := do
  let key ← keyOf text
  Trial.gets fun w =>
    .cached ((w.service.cache.entries.get? key).map fun n => (n, placesOf w.service.settings n))

/-! ## Steps about the index -/

/-- Load the index several times at once. -/
def loadIndex (respond : Responder) (times : Nat) : Trial Report := do
  let load : Act Answer := ExceptT.run do
    Trial.task respond Index.load
    pure .nothing
  let _ ← reports (← ExceptT.lift (together (List.replicate times load)))
  indexReport none

/-- Save the index several times at once. -/
def saveIndex (respond : Responder) (times : Nat) : Trial Report := do
  let save : Act Answer := ExceptT.run do
    let written ← Trial.task respond Index.save
    pure (.flag written)
  let rs ← reports (← ExceptT.lift (together (List.replicate times save)))
  indexReport (some (rs.map fun
    | .flag b => b
    | _ => false))

/-- Change the index, and show it. -/
def changeIndex (respond : Responder) (f : Index → Index) : Trial Report := do
  Trial.work respond (Index.change f)
  indexReport none

/-! ## Steps about bundles -/

/-- Build a bundle with a permit. -/
def buildBundle (respond : Responder) (entry content : String) (generation : Int) (permit : Permit) :
    Trial Report := do
  Trial.modify fun w => w.changeService fun s => { s with permit := permit }
  let (b, budget) ← Trial.gets fun w => (w.builder, w.budget)
  let c : Context := { target := entry, generation := generation, standing := .permitted }
  let (result, c) ← Trial.work respond (Bundle.build b budget entry content c)
  let sight ← Trial.work respond (sightOf c)
  pure (.bundle result sight)

/-- Compile a target. -/
def compileJob (respond : Responder) (job : Job) : Trial Compile.Outcome := do
  let budget ← Trial.gets (·.budget)
  Trial.task respond (Compile.compile budget job.sources job.target)

/-- The outcome of a request as it is delivered, before it is known what becomes of the others. -/
def deliveredOutcome : Answer → Except Fault Compile.Outcome
  | .ok (.compiled [.ok c]) => .ok c.outcome
  | .error (.fault f) => .error f
  | _ => .error .cancelled

/-- Compile several targets at once. -/
def compileJobs (respond : Responder) (jobs : List Job) : Trial Report := do
  let run (job : Job) : Act Answer := ExceptT.run do
    let o ← compileJob respond job
    pure (.compiled [.ok ⟨o, ⟨o.context, o.superseded⟩⟩])
  let answers ← ExceptT.lift (together (jobs.map run))
  let results ← Trial.work respond (allCompiled (answers.map deliveredOutcome))
  pure (.compiled results)

/-! ## All steps -/

/-- Perform a step. -/
def perform (respond : Responder) : Step → Trial Report
  | .probe path => do return .flag (← Trial.task respond (Work.probe path))
  | .read path => do return .text (some (← Trial.task respond (Work.read path)))
  | .readTwice path => do return .text (some (← Trial.task respond (Workspace.readTwice path)))
  | .readOptional path => do return .text (← Trial.task respond (Workspace.readOptional path))
  | .write path content => do
    Trial.task respond (Work.write path content)
    pure .nothing
  | .mkdir path => do
    Trial.task respond (Work.mkdir path)
    pure .nothing
  | .ensureDirectory path => do
    Trial.task respond (Workspace.ensureDirectory path)
    pure .nothing
  | .dump => Trial.gets fun w => .listing w.store.files w.store.dirs
  | .lay f => do
    Trial.modify fun w => { w with failures := w.failures ++ [f] }
    pure .nothing
  | .clearFailures => do
    Trial.modify fun w => { w with failures := [] }
    pure .nothing
  | .publish name version files => do
    Trial.modify fun w => w.publish name version files
    pure .nothing
  | .calls sorted => takeCalls sorted
  | .configure c => configure c
  | .loadRemappings use? collected => do
    let (rules, log) ← Trial.warned respond (Resolve.loadRemappings use? collected)
    pure (.remappings rules (shownWarnings collected log))
  | .fetch key => fetchPackage respond key
  | .gather keys => fetchPackages respond keys
  | .fetchTwice key cancelled => fetchTwice respond key cancelled
  | .cached key => lookAtCache key
  | .invalidate text => do
    let key ← keyOf text
    Trial.work respond (Cache.change (·.invalidate key))
    statsReport
  | .clearCache => do
    Trial.work respond (Cache.change (·.clear))
    statsReport
  | .cacheStats => statsReport
  | .loadIndex times => loadIndex respond times
  | .saveIndex times => saveIndex respond times
  | .reloadIndex => do
    Trial.task respond Index.reload
    indexReport none
  | .indexState => indexReport none
  | .record file literal path => changeIndex respond fun i => i.record file literal path
  | .clearRecords file => changeIndex respond fun i => i.clear file
  | .lookup file literal => Trial.gets fun w => .text (w.service.index.lookup file literal)
  | .lookupAny literal => Trial.gets fun w => .text (w.service.index.lookupAny literal)
  | .recordsOf file => Trial.gets fun w => .mapping (w.service.index.recordsOf file)
  | .beginResolver session parents => beginResolver respond session parents
  | .resolve literal parent? => chooseVersion respond literal parent?
  | .resolverState => do return .choices (← currentResolver)
  | .loadManifest collected => do
    let (m?, log) ← Trial.warned respond (Resolve.loadManifest collected)
    pure (.manifest m? (shownWarnings collected log))
  | .loadLockfile collected => do
    let (l?, log) ← Trial.warned respond (Resolve.loadLockfile collected)
    pure (.lockfile l? (shownWarnings collected log))
  | .build entry content generation permit => buildBundle respond entry content generation permit
  | .classify literals =>
    Trial.gets fun w => .kinds (literals.map (Bundle.classify w.service.settings))
  | .revoke => do
    Trial.modify fun w => w.changeService fun s =>
      { s with permit := { s.permit with revoked := true } }
    pure .nothing
  | .layVerdict v => do
    Trial.modify fun w => { w with verdict := v }
    pure .nothing
  | .compile job => do
    let o ← compileJob respond job
    let sight ← Trial.work respond (sightOf o.context)
    pure (.compiled [.ok ⟨o, sight⟩])
  | .compileAll jobs => compileJobs respond jobs
  | .beginRun target => do
    let c ← Trial.work respond (Routine.modifyGet (Compile.beginRun target))
    pure (.number c.generation.toNat)
  | .switchWorkspace => do
    Trial.task respond Compile.workspaceChanged
    indexReport none
  | .navigate file? literal => do return .text (← Trial.task respond (Compile.navigate file? literal))

end SourceBundle.Scenario
