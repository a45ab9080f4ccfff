/-
# The collaborators of a scenario

Every call is noted, the steps that are inserted at its moment are run, and a failure that is laid
down for it is used up; only then is it answered.  The registry lets others go first before it
hands out files.
-/
import SourceBundle.Scenario.Basic

namespace SourceBundle.Scenario

/-! ## What is laid down for a call -/

/-- Take the steps that are inserted at a call: the first ones that are left for it. -/
def takeCue (call : Call) : List Cue → Option (List Step) × List Cue
  | [] => (none, [])
  | c :: cs =>
    if c.call = call then (some c.steps, cs)
    else let (steps?, rest) := takeCue call cs; (steps?, c :: rest)

/-- Use up a failure that is laid down for a call: whether there is one, and those that are left. -/
def takeFailure (call : Call) : List Failure → Bool × List Failure
  | [] => (false, [])
  | f :: fs =>
    if f.call = call ∧ f.times ≠ 0 then (true, { f with times := f.times - 1 } :: fs)
    else let (failed, rest) := takeFailure call fs; (failed, f :: rest)

/-- The fault of a call for which a failure is laid down. -/
def injected : Question → Fault
  | .versions name => .registry ⟨s!"injected versions failure: {name}", some name, some 500⟩
  | .files name version =>
    .registry ⟨s!"injected files failure: {name}@{version}", some name, none⟩
  | q =>
    let call := Call.ofQuestion q
    .workspace ⟨s!"injected {call.kind.word} failure: {call.name}", call.name⟩

/-! ## Answers -/

/-- The published versions of a package. -/
def publishedVersions (w : World) (name : String) : Except Fault (List String) :=
  match w.catalog.get? name with
  | some versions => .ok versions.keys
  | none => .error (.registry ⟨s!"Package not found in registry: {name}", some name, some 404⟩)

/-- The files of a version of a package. -/
def publishedFiles (w : World) (name version : String) : Except Fault (Table String String) :=
  match (w.catalog.get? name).bind (·.get? version) with
  | some files => .ok files
  | none => .error (.registry ⟨s!"Version {version} of {name} is not published", some name, none⟩)

/-- The answer to a call for which nothing is laid down, and the world after it. -/
def reply (w : World) : (q : Question) → q.Answer × World
  | .probe path => (w.store.probe path, w)
  | .read path => (w.store.read path, w)
  | .write path content => let (r, s) := w.store.write path content; (r, { w with store := s })
  | .mkdir path => let (r, s) := w.store.mkdir path; (r, { w with store := s })
  | .versions name => (publishedVersions w name, w)
  | .files name version => (publishedFiles w name version, w)
  | .compile _ _ _ => (.ok w.verdict, w)

/-- Note a call. -/
def World.note (w : World) (q : Question) : World :=
  match q with
  | .versions _ | .files _ _ => { w with registryCalls := Call.ofQuestion q :: w.registryCalls }
  | .compile sources target _ =>
    let paths := sortBy (fun a b => decide (a ≤ b)) sources.keys
    { w with compilerCalls := (target, paths) :: w.compilerCalls }
  | _ => w

/-- Whether a call lets others go first. -/
def yields : Question → Bool
  | .files _ _ => true
  | _ => false

/-- Whether a call can be made to fail; the compiler always has its verdict. -/
def canFail : Question → Bool
  | .compile _ _ _ => false
  | _ => true

/-- Answer a call whose inserted steps have been run. -/
def settle (q : Question) : Act q.Answer :=
  Routine.modifyGet fun w =>
    let (failed, rest) := takeFailure (Call.ofQuestion q) w.failures
    if canFail q && failed then (.error (injected q), { w with failures := rest }) else reply w q

/-- Answer a call; inserted steps are run by the given function. -/
def respond (insert : List Step → Act Unit) (q : Question) : Act q.Answer := do
  Routine.modify fun w => w.note q
  match ← if yields q then Routine.put (Q := Signal) .yield else pure Wake.ready with
  | .cancelled => pure (.error .cancelled)
  | .ready => do
    let steps? ← Routine.modifyGet fun w =>
      let (steps?, rest) := takeCue (Call.ofQuestion q) w.cues
      (steps?, { w with cues := rest })
    insert (steps?.getD [])
    settle q

end SourceBundle.Scenario
