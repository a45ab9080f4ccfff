/-
# Loading and saving the index

The index is loaded once; those who come while it is being loaded wait for the same load.  Saves
take their turns, each writes all records at one instant, and one that fails leaves the index
changed.  A reload forgets everything and loads anew.
-/
import SourceBundle.Service.Basic
import SourceBundle.Workspace.Access

namespace SourceBundle.Index

/-- Change the index. -/
def change (f : Index → Index) : Work Unit :=
  Routine.modify fun s => { s with index := f s.index }

/-- Read the records of the file.  A file that is missing, cannot be read or holds no records has
none. -/
def readRecords (path : String) : Task IndexData :=
  Task.handle
    (do
      if ← Work.probe path then
        let content ← Workspace.readTwice path
        match IndexData.parse content with
        | .ok d => pure d
        | .error .numberTooLong => throw .numberTooLong
        | .error f =>
          Task.work (Work.log (.indexCorrupt path f.message))
          pure ∅
      else pure ∅)
    fun
    | .workspace f => some do
      Task.work (Work.log (.indexUnreadable path f.message))
      pure ∅
    | _ => none

/-- The load with a given number: read the file and enter its records below those made meanwhile. -/
def runLoad (ticket : Nat) : Work Unit := do
  let path ← Routine.gets (·.index.path)
  match ← (readRecords path).run with
  | .ok d =>
    change fun i => i.finishLoad d
    let files ← Routine.gets (·.index.data.size)
    Work.log (.indexLoaded files)
    change fun i => { i with loads := (ticket, .ok ()) :: i.loads }
  | .error f => change fun i => { i with loads := (ticket, .error f) :: i.loads }

/-- How a load ended, if it has ended. -/
def loadOutcome? (i : Index) (ticket : Nat) : Option (Except Fault Unit) := i.loads.lookup ticket

/-- What a caller of `load` has to do. -/
inductive LoadRole
  /-- Nothing: the index is loaded. -/
  | none
  /-- Wait for a load that is under way. -/
  | join (ticket : Nat)
  /-- Start a load. -/
  | begin (ticket : Nat)

/-- Admit a caller of `load`. -/
def requestLoad (i : Index) : LoadRole × Index :=
  if i.loaded then (.none, i)
  else
    match i.loading? with
    | some t => (.join t, i)
    | Option.none =>
      (.begin i.loadsBegun, { i with loading? := some i.loadsBegun, loadsBegun := i.loadsBegun + 1 })

/-- The index after a caller has stopped waiting: a load that has failed is joined no more. -/
def leaveLoad (i : Index) (ticket : Nat) : Index :=
  if (i.loadOutcome? ticket).isSome && i.loading? == some ticket && !i.loaded then
    { i with loading? := none }
  else i

/-- Wait for a load.  To be cancelled while waiting does not stop the load. -/
def awaitLoad (ticket : Nat) : Task Unit := do
  let wake ← Task.work (Routine.await 1 fun s => (s.index.loadOutcome? ticket).isSome)
  let outcome? ← Task.work (Routine.gets fun s => s.index.loadOutcome? ticket)
  Task.work (change fun i => i.leaveLoad ticket)
  match wake, outcome? with
  | .cancelled, _ => throw .cancelled
  | .ready, some (.error f) => throw f
  | .ready, _ => pure ()

/-- Load the index unless it is loaded. -/
def load : Task Unit := do
  let role ← Task.work (Routine.modifyGet fun s =>
    let (role, i) := s.index.requestLoad
    (role, { s with index := i }))
  match role with
  | .none => pure ()
  | .join ticket => awaitLoad ticket
  | .begin ticket =>
    let _ ← Task.work (Routine.start (runLoad ticket))
    awaitLoad ticket

/-- Forget all records and load again. -/
def reload : Task Unit := do
  Task.work (change forget)
  load

/-- Join the queue of those who save. -/
def enqueue (i : Index) : Nat × Index :=
  (i.savesBegun, { i with savers := i.savers ++ [i.savesBegun], savesBegun := i.savesBegun + 1 })

/-- Leave the queue of those who save. -/
def dequeue (i : Index) (ticket : Nat) : Index := { i with savers := i.savers.filter (· != ticket) }

/-- Take the document to write, if there are changes; from now on there are none. -/
def takeSnapshot (i : Index) : Option String × Index :=
  if i.dirty then (some i.data.render, { i with dirty := false }) else (none, i)

/-- Write a snapshot.  A failure of the workspace is reported and leaves the index changed. -/
def writeSnapshot (path snapshot : String) : Task Bool :=
  Task.handle
    (do
      Workspace.ensureDirectory path
      Work.write path snapshot
      let files ← Task.work (Routine.gets (·.index.data.size))
      Task.work (Work.log (.indexSaved files))
      pure true)
    fun
    | .workspace f => some do
      Task.work (change fun i => { i with dirty := true })
      Task.work (Work.log (.indexNotSaved path f.message))
      pure false
    | _ => none

/-- Save the index if it has changed; the answer tells whether a snapshot was written. -/
def save : Task Bool := do
  let ticket ← Task.work (Routine.modifyGet fun s =>
    let (t, i) := s.index.enqueue
    (t, { s with index := i }))
  match ← Task.work (Routine.await 0 fun s => s.index.savers.head? == some ticket) with
  | .cancelled =>
    Task.work (change fun i => i.dequeue ticket)
    throw .cancelled
  | .ready =>
    let snapshot? ← Task.work (Routine.modifyGet fun s =>
      let (t, i) := s.index.takeSnapshot
      (t, { s with index := i }))
    let path ← Task.work (Routine.gets (·.index.path))
    let written ← Task.work (match snapshot? with
      | none => pure (.ok false)
      | some snapshot => (writeSnapshot path snapshot).run)
    Task.work (change fun i => i.dequeue ticket)
    match written with
    | .ok b => pure b
    | .error f => throw f

end SourceBundle.Index
