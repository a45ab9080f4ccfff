/-
# The users of the index

Users load the index, reload it, save it and change its records at any time, and are cancelled at any
pause; the workspace answers in any order and with any result.

The pauses of those who load or save are few.  So a crowd of users is pictured by the list of those who
pause, the index, and the history; what can happen to the crowd is one of the moves that this picture can
make, and all that is said of the crowd is read off these moves.
-/
import SourceBundle.Proofs.Service.Calm
import SourceBundle.Proofs.Service.Play

namespace SourceBundle.Index

open Crowd

/-! ## Users -/

/-- A change of the records. -/
inductive Edit
  /-- To record what an import resolved to. -/
  | record (file literal path : String)
  /-- To drop the records of a file. -/
  | clear (file : String)
deriving DecidableEq

/-- The index after a change. -/
def Edit.apply : Edit → Index → Index
  | record file literal path, i => i.record file literal path
  | clear file, i => i.clear file

/-- What a user wants of the index. -/
inductive Demand
  /-- That it is loaded. -/
  | load
  /-- That it is loaded anew. -/
  | reload
  /-- That it is saved. -/
  | save
  /-- To change the records. -/
  | edit (e : Edit)
deriving DecidableEq

/-- What a user is told. -/
inductive Told
  /-- That it is done. -/
  | done
  /-- Whether a snapshot was written. -/
  | saved (written : Bool)
  /-- That it failed. -/
  | failed (f : Fault)

/-- What is told of an outcome. -/
def Told.of {α : Type} (tell : α → Told) : Except Fault α → Told
  | .ok a => tell a
  | .error f => failed f

/-- What is done for a user. -/
def Demand.work : Demand → Work Told
  | load => Index.load.run.bind fun r => .done (.of (fun _ => .done) r)
  | reload => Index.reload.run.bind fun r => .done (.of (fun _ => .done) r)
  | save => Index.save.run.bind fun r => .done (.of .saved r)
  | edit e => (change e.apply).bind fun _ => .done .done

/-- Users beside each other. -/
abbrev Clerks := Users Demand Told

/-- What can be noticed of users. -/
abbrev Happening := Event Question Question.Answer Demand Told

/-! ## Loading and saving from a pause on -/

/-- What is done when the file cannot be read. -/
def unreadable (path : String) : Fault → Option (Task IndexData)
  | .workspace f => some do
    Task.work (Work.log (.indexUnreadable path f.message))
    pure ∅
  | _ => none

/-- The records of a content. -/
def accept (path content : String) : Task IndexData :=
  match IndexData.parse content with
  | .ok d => pure d
  | .error .numberTooLong => throw .numberTooLong
  | .error f => do
    Task.work (Work.log (.indexCorrupt path f.message))
    pure ∅

/-- A load that has been told whether the file is there. -/
def loadProbed (path : String) (there : Except Fault Bool) : Task IndexData :=
  Task.handle
    (do
      if ← ExceptT.mk (.done there) then
        let content ← Workspace.readTwice path
        accept path content
      else pure ∅)
    (unreadable path)

/-- A load that has been told the content of the file. -/
def loadRead (path : String) (content : Except Fault String) : Task IndexData :=
  Task.handle
    (do
      let content ← ExceptT.mk (.done content)
      accept path content)
    (unreadable path)

/-- A load whose first reading has ended. -/
def loadReadFirst (path : String) (content : Except Fault String) : Task IndexData :=
  Task.handle
    (do
      let content ← Task.handle (ExceptT.mk (.done content)) fun
        | .workspace f => some do
          Task.work (Work.log (.readRetried path f.message))
          Work.read path
        | _ => none
      accept path content)
    (unreadable path)

/-- The end of a load that has obtained some records or has failed. -/
def endLoad (ticket : Nat) : Except Fault IndexData → Work Unit
  | .ok d => do
    change fun i => i.finishLoad d
    let files ← Routine.gets (·.index.data.size)
    Work.log (.indexLoaded files)
    change fun i => { i with loads := (ticket, .ok ()) :: i.loads }
  | .error f => change fun i => { i with loads := (ticket, .error f) :: i.loads }

/-- What is done when a snapshot could not be written. -/
def unwritten (path : String) : Fault → Option (Task Bool)
  | .workspace f => some do
    Task.work (change fun i => { i with dirty := true })
    Task.work (Work.log (.indexNotSaved path f.message))
    pure false
  | _ => none

/-- A save whose snapshot has been written. -/
def saveWritten (path : String) (written : Except Fault Unit) : Task Bool :=
  Task.handle
    (do
      ExceptT.mk (.done written)
      let files ← Task.work (Routine.gets (·.index.data.size))
      Task.work (Work.log (.indexSaved files))
      pure true)
    (unwritten path)

/-- A save from the creation of the directory on. -/
def savePrepared (path snapshot : String) (prepared : Task Unit) : Task Bool :=
  Task.handle
    (do
      prepared
      Work.write path snapshot
      let files ← Task.work (Routine.gets (·.index.data.size))
      Task.work (Work.log (.indexSaved files))
      pure true)
    (unwritten path)

/-- The end of a save. -/
def endSave (ticket : Nat) (written : Except Fault Bool) : Work Told :=
  .step (fun s => { s with index := s.index.dequeue ticket }) fun _ => .done (.of .saved written)

/-- The end of the wait for a load. -/
def endWait (ticket : Nat) (wake : Wake) : Work Told :=
  .step id fun s => .step (fun s => { s with index := s.index.leaveLoad ticket }) fun _ =>
    match wake, s.index.loadOutcome? ticket with
    | .cancelled, _ => .done (.failed .cancelled)
    | .ready, some (.error f) => .done (.failed f)
    | .ready, _ => .done .done

/-- The end of the wait for the turn to save. -/
def endQueue (ticket : Nat) : Wake → Work Told
  | .cancelled => endSave ticket (.error .cancelled)
  | .ready => .step (fun s => { s with index := s.index.takeSnapshot.2 }) fun s => .step id fun s' =>
    Routine.bind
      (match s.index.takeSnapshot.1 with
      | none => Routine.done (Except.ok false)
      | some snapshot => (writeSnapshot s'.index.path snapshot).run)
      (endSave ticket)

/-! ## Those who pause -/

/-- A user who pauses, or the load that was started for one. -/
inductive Clerk
  /-- A load that is about to start. -/
  | starter (id ticket : Nat)
  /-- A load that asks whether the file is there. -/
  | prober (id ticket : Nat)
  /-- A load that reads the file, for the first or for the second time. -/
  | reader (id ticket : Nat) (again : Bool)
  /-- One who waits for a load. -/
  | awaiter (id ticket : Nat)
  /-- One who waits for the turn to save. -/
  | queuer (id ticket : Nat)
  /-- One who saves and asks whether the directory of the file is there. -/
  | searcher (id ticket : Nat) (snapshot dir : String)
  /-- One who saves and creates the directory of the file. -/
  | maker (id ticket : Nat) (snapshot dir : String)
  /-- One who saves and writes the file. -/
  | writer (id ticket : Nat) (snapshot : String)

namespace Clerk

/-- Its number. -/
def number : Clerk → Nat
  | starter id _ | prober id _ | reader id _ _ | awaiter id _ | queuer id _ | searcher id _ _ _
  | maker id _ _ _ | writer id _ _ => id

/-- The user or the load among those who pause, if the index is kept in the given file. -/
def paused (path : String) : Clerk → Paused Service Question Question.Answer Told
  | starter n ticket => ⟨n, Unit, .wait 0 (fun _ => true) fun
      | .ready => runLoad ticket
      | .cancelled => .done (), fun _ => none⟩
  | prober n ticket => ⟨n, Unit, .ask (.probe path) fun a =>
      (loadProbed path a).run.bind (endLoad ticket), fun _ => none⟩
  | reader n ticket false => ⟨n, Unit, .ask (.read path) fun a =>
      (loadReadFirst path a).run.bind (endLoad ticket), fun _ => none⟩
  | reader n ticket true => ⟨n, Unit, .ask (.read path) fun a =>
      (loadRead path a).run.bind (endLoad ticket), fun _ => none⟩
  | awaiter n ticket =>
    ⟨n, Told, .wait 1 (fun s => (s.index.loadOutcome? ticket).isSome) (endWait ticket), some⟩
  | queuer n ticket =>
    ⟨n, Told, .wait 0 (fun s => s.index.savers.head? == some ticket) (endQueue ticket), some⟩
  | searcher n ticket snapshot dir => ⟨n, Told, .ask (.probe dir) fun a =>
      (savePrepared path snapshot (do
        if !(← ExceptT.mk (.done a)) then Work.mkdir dir)).run.bind (endSave ticket), some⟩
  | maker n ticket snapshot dir => ⟨n, Told, .ask (.mkdir dir) fun a =>
      (savePrepared path snapshot (ExceptT.mk (.done a))).run.bind (endSave ticket), some⟩
  | writer n ticket snapshot => ⟨n, Told, .ask (.write path snapshot) fun a =>
      (saveWritten path a).run.bind (endSave ticket), some⟩

end Clerk

/-- One who begins to save. -/
def Clerk.saver (path : String) (n ticket : Nat) (snapshot : String) : Clerk :=
  match Workspace.directoryOf? path with
  | none => .writer n ticket snapshot
  | some dir => .searcher n ticket snapshot dir

/-- What one who begins to save asks. -/
def firstQuestion (path snapshot : String) : Question :=
  match Workspace.directoryOf? path with
  | none => .write path snapshot
  | some dir => .probe dir

/-- The records of a file that cannot be read. -/
def unreadRecords : Fault → Except Fault IndexData
  | .workspace _ => .ok ∅
  | f => .error f

/-- The records of a content. -/
def recordsIn (content : String) : Except Fault IndexData :=
  match IndexData.parse content with
  | .ok d => .ok d
  | .error .numberTooLong => .error .numberTooLong
  | .error _ => .ok ∅

/-- The index after a save has failed. -/
def unsaved (i : Index) : Fault → Index
  | .workspace _ => { i with dirty := true }
  | _ => i

/-- What is told when a save has failed. -/
def Told.unsaved : Fault → Told
  | .workspace _ => .saved false
  | f => .failed f

namespace Clerk

/-- With this answer a load obtains some records, or fails. -/
inductive Loads (path : String) (n ticket : Nat) :
    Clerk → (q : Question) → q.Answer → Except Fault IndexData → Prop
  | absent : Loads path n ticket (prober n ticket) (.probe path) (.ok false) (.ok ∅)
  | unprobed (f : Fault) :
    Loads path n ticket (prober n ticket) (.probe path) (.error f) (unreadRecords f)
  | read (again : Bool) (content : String) :
    Loads path n ticket (reader n ticket again) (.read path) (.ok content) (recordsIn content)
  | unread (again : Bool) (f : Fault) : (∀ e, f = .workspace e → again = true) →
    Loads path n ticket (reader n ticket again) (.read path) (.error f) (unreadRecords f)

/-- A save asks something. -/
inductive Saves (path : String) (n ticket : Nat) (snapshot : String) : Clerk → Question → Prop
  | search (dir : String) :
    Saves path n ticket snapshot (searcher n ticket snapshot dir) (.probe dir)
  | make (dir : String) : Saves path n ticket snapshot (maker n ticket snapshot dir) (.mkdir dir)
  | write : Saves path n ticket snapshot (writer n ticket snapshot) (.write path snapshot)

/-- With this answer the directory of the file is there. -/
inductive Prepared (n ticket : Nat) (snapshot : String) :
    Clerk → (q : Question) → q.Answer → Prop
  | found (dir : String) :
    Prepared n ticket snapshot (searcher n ticket snapshot dir) (.probe dir) (.ok true)
  | made (dir : String) :
    Prepared n ticket snapshot (maker n ticket snapshot dir) (.mkdir dir) (.ok ())

end Clerk

/-! ## The picture of a crowd of users -/

/-- What there is to see of a crowd of users. -/
structure Picture where
  /-- Those that pause. -/
  clerks : List Clerk
  /-- The index. -/
  index : Index
  /-- What has happened, newest first. -/
  history : List Happening
  /-- The number of the next user or load. -/
  fresh : Nat

/-- The picture is that of a crowd whose index is kept in a file. -/
structure Picture.Of (path : String) (d : Picture) (c : Clerks) : Prop where
  paused : c.paused = d.clerks.map (Clerk.paused path)
  index : c.state.index = d.index
  path : d.index.path = path
  history : c.history = d.history
  fresh : c.fresh = d.fresh

/-- The moves of a picture. -/
inductive Move (path : String) (d : Picture) : Picture → Prop
  /-- The records are changed. -/
  | edit (e : Edit) : Move path d { d with
      index := e.apply d.index
      history := .returned d.fresh .done :: .begun d.fresh (.edit e) :: d.history
      fresh := d.fresh + 1 }
  /-- One who wants the index to be loaded finds that it is. -/
  | known : d.index.loaded = true → Move path d { d with
      history := .returned d.fresh .done :: .begun d.fresh .load :: d.history
      fresh := d.fresh + 1 }
  /-- One joins a load. -/
  | join (ticket : Nat) : d.index.loaded = false → d.index.loading? = some ticket →
    Move path d { d with
      clerks := .awaiter d.fresh ticket :: d.clerks
      history := .begun d.fresh .load :: d.history
      fresh := d.fresh + 1 }
  /-- One begins a load. -/
  | load : d.index.loaded = false → d.index.loading? = none → Move path d
      { clerks := .awaiter d.fresh d.index.loadsBegun :: .starter (d.fresh + 1) d.index.loadsBegun ::
          d.clerks
        index := d.index.whileLoading
        history := .begun d.fresh .load :: d.history
        fresh := d.fresh + 2 }
  /-- One forgets all records and begins a load. -/
  | reload : Move path d
      { clerks := .awaiter d.fresh d.index.loadsBegun :: .starter (d.fresh + 1) d.index.loadsBegun ::
          d.clerks
        index := d.index.forget.whileLoading
        history := .begun d.fresh .reload :: d.history
        fresh := d.fresh + 2 }
  /-- One joins those who want to save. -/
  | enqueue : Move path d
      { clerks := .queuer d.fresh d.index.savesBegun :: d.clerks
        index := d.index.enqueue.2
        history := .begun d.fresh .save :: d.history
        fresh := d.fresh + 1 }
  /-- A load starts. -/
  | start (front back : List Clerk) (n ticket : Nat) : d.clerks = front ++ .starter n ticket :: back →
    Move path d { d with
      clerks := .prober n ticket :: (front ++ back)
      history := .put n (.probe path) :: d.history }
  /-- A load is cancelled before it starts. -/
  | stop (front back : List Clerk) (n ticket : Nat) : d.clerks = front ++ .starter n ticket :: back →
    Move path d { d with clerks := front ++ back }
  /-- A load learns that the file is there. -/
  | find (front back : List Clerk) (n ticket : Nat) : d.clerks = front ++ .prober n ticket :: back →
    Move path d { d with
      clerks := .reader n ticket false :: (front ++ back)
      history := .put n (.read path) :: .answered n (.probe path) (.ok true) :: d.history }
  /-- A load could not read the file, and reads it again. -/
  | again (front back : List Clerk) (n ticket : Nat) (f : WorkspaceFault) :
    d.clerks = front ++ .reader n ticket false :: back →
    Move path d { d with
      clerks := .reader n ticket true :: (front ++ back)
      history := .put n (.read path) :: .answered n (.read path) (.error (.workspace f)) :: d.history }
  /-- A load ends. -/
  | settle (front back : List Clerk) (x : Clerk) (n ticket : Nat) (q : Question) (a : q.Answer)
      (r : Except Fault IndexData) :
    d.clerks = front ++ x :: back → x.Loads path n ticket q a r →
    Move path d { d with
      clerks := front ++ back
      index := d.index.afterReading ticket r
      history := .answered n q a :: d.history }
  /-- One learns how the load has ended. -/
  | learn (front back : List Clerk) (n ticket : Nat) (r : Except Fault Unit) :
    d.clerks = front ++ .awaiter n ticket :: back → d.index.loadOutcome? ticket = some r →
    Move path d { d with
      clerks := front ++ back
      index := d.index.leaveLoad ticket
      history := .returned n (.of (fun _ => .done) r) :: d.history }
  /-- One who waits for a load is cancelled. -/
  | leave (front back : List Clerk) (n ticket : Nat) :
    d.clerks = front ++ .awaiter n ticket :: back →
    Move path d { d with
      clerks := front ++ back
      index := d.index.leaveLoad ticket
      history := .returned n (.failed .cancelled) :: d.history }
  /-- One who waits for the turn to save is cancelled. -/
  | withdraw (front back : List Clerk) (n ticket : Nat) :
    d.clerks = front ++ .queuer n ticket :: back →
    Move path d { d with
      clerks := front ++ back
      index := d.index.dequeue ticket
      history := .returned n (.failed .cancelled) :: d.history }
  /-- One who is to save finds nothing to save. -/
  | pass (front back : List Clerk) (n ticket : Nat) : d.clerks = front ++ .queuer n ticket :: back →
    d.index.savers.head? = some ticket → d.index.dirty = false →
    Move path d { d with
      clerks := front ++ back
      index := d.index.dequeue ticket
      history := .returned n (.saved false) :: d.history }
  /-- One who is to save takes a snapshot. -/
  | take (front back : List Clerk) (n ticket : Nat) : d.clerks = front ++ .queuer n ticket :: back →
    d.index.savers.head? = some ticket → d.index.dirty = true →
    Move path d { d with
      clerks := .saver path n ticket d.index.data.render :: (front ++ back)
      index := { d.index with dirty := false }
      history := .put n (firstQuestion path d.index.data.render) :: d.history }
  /-- One who saves learns that there is no directory. -/
  | lack (front back : List Clerk) (n ticket : Nat) (snapshot dir : String) :
    d.clerks = front ++ .searcher n ticket snapshot dir :: back →
    Move path d { d with
      clerks := .maker n ticket snapshot dir :: (front ++ back)
      history := .put n (.mkdir dir) :: .answered n (.probe dir) (.ok false) :: d.history }
  /-- One who saves begins to write. -/
  | write (front back : List Clerk) (x : Clerk) (n ticket : Nat) (snapshot : String) (q : Question)
      (a : q.Answer) :
    d.clerks = front ++ x :: back → x.Prepared n ticket snapshot q a →
    Move path d { d with
      clerks := .writer n ticket snapshot :: (front ++ back)
      history := .put n (.write path snapshot) :: .answered n q a :: d.history }
  /-- A snapshot has been written. -/
  | written (front back : List Clerk) (n ticket : Nat) (snapshot : String) :
    d.clerks = front ++ .writer n ticket snapshot :: back →
    Move path d { d with
      clerks := front ++ back
      index := d.index.dequeue ticket
      history := .returned n (.saved true) :: .answered n (.write path snapshot) (.ok ()) ::
        d.history }
  /-- A save fails. -/
  | fail (front back : List Clerk) (x : Clerk) (n ticket : Nat) (snapshot : String) (q : Question)
      (f : Fault) :
    d.clerks = front ++ x :: back → x.Saves path n ticket snapshot q →
    Move path d { d with
      clerks := front ++ back
      index := (d.index.unsaved f).dequeue ticket
      history := .returned n (.unsaved f) :: .answered n q (.error f) :: d.history }

section Moves

variable {path : String} {c c' : Clerks} {d d' : Picture}

/-- To wait for a load is to pause until it has ended. -/
lemma awaitLoad_eq (ticket : Nat) :
    (awaitLoad ticket).run.bind (fun r => .done (.of (fun _ => .done) r)) =
      .wait 1 (fun s => (s.index.loadOutcome? ticket).isSome) (endWait ticket) := by
  refine congrArg (Routine.wait 1 _) (funext fun w => ?_)
  refine congrArg (Routine.step _) (funext fun s => congrArg (Routine.step _) (funext fun _ => ?_))
  cases w with
  | cancelled => rfl
  | ready =>
    dsimp only
    rcases s.index.loadOutcome? ticket with _ | _ | _ <;> rfl

/-- How one who wants the index to be loaded goes on. -/
def admitted : LoadRole → Work Told
  | .none => .done .done
  | .join ticket => .wait 1 (fun s => (s.index.loadOutcome? ticket).isSome) (endWait ticket)
  | .begin ticket => .spawn (runLoad ticket) fun _ =>
    .wait 1 (fun s => (s.index.loadOutcome? ticket).isSome) (endWait ticket)

lemma load_eq : load.run.bind (fun r => .done (.of (fun _ => .done) r)) =
    .step (fun s => { s with index := s.index.requestLoad.2 }) fun s =>
      admitted s.index.requestLoad.1 := by
  refine congrArg (Routine.step _) (funext fun s => ?_)
  dsimp only
  cases s.index.requestLoad.1 with
  | none => rfl
  | join ticket => exact awaitLoad_eq ticket
  | begin ticket => exact congrArg (Routine.spawn _) (funext fun _ => awaitLoad_eq ticket)

lemma reload_eq : Demand.work .reload = .step (fun s => { s with index := s.index.forget }) fun _ =>
    .step (fun s => { s with index := s.index.requestLoad.2 }) fun s =>
      admitted s.index.requestLoad.1 :=
  congrArg (Routine.step _) (funext fun _ => load_eq)

lemma requestLoad_of_loaded {i : Index} (h : i.loaded = true) : i.requestLoad = (.none, i) := by
  simp [requestLoad, h]

lemma requestLoad_of_loading {i : Index} (h : i.loaded = false) {ticket : Nat}
    (hl : i.loading? = some ticket) : i.requestLoad = (.join ticket, i) := by
  simp [requestLoad, h, hl]

lemma requestLoad_of_new {i : Index} (h : i.loaded = false) (hl : i.loading? = none) :
    i.requestLoad = (.begin i.loadsBegun, i.whileLoading) := by
  simp [requestLoad, h, hl, whileLoading]

/-- To save is to wait for the turn first. -/
lemma save_eq : Demand.work .save = .step (fun s => { s with index := s.index.enqueue.2 }) fun s =>
    .wait 0 (fun s' => s'.index.savers.head? == some s.index.savesBegun)
      (endQueue s.index.savesBegun) := by
  refine congrArg (Routine.step _) (funext fun s => congrArg (Routine.wait 0 _) (funext fun w => ?_))
  cases w with
  | cancelled => rfl
  | ready =>
    refine congrArg (Routine.step _) (funext fun t => congrArg (Routine.step _) (funext fun u => ?_))
    dsimp only
    cases t.index.takeSnapshot.1 with
    | none => rfl
    | some snapshot =>
      show (((writeSnapshot u.index.path snapshot).run.bind _).bind _).bind _ = _
      rw [Routine.bind_assoc, Routine.bind_assoc]
      refine congrArg (Routine.bind _) (funext fun written => ?_)
      cases written <;> rfl

/-- A fault that neither a load nor a save deals with. -/
structure PassedOn (f : Fault) : Prop where
  unreadable (path : String) : unreadable path f = none
  unwritten (path : String) : unwritten path f = none
  unreadRecords : unreadRecords f = .error f
  unsaved (i : Index) : unsaved i f = i
  told : Told.unsaved f = .failed f

/-- All faults are passed on but those of the workspace. -/
lemma workspace_or_passedOn (f : Fault) : (∃ e, f = .workspace e) ∨ PassedOn f := by
  cases f with
  | workspace e => exact Or.inl ⟨e, rfl⟩
  | _ => exact Or.inr ⟨fun _ => rfl, fun _ => rfl, rfl, fun _ => rfl, rfl⟩

/-- A load whose first reading has failed so does not read again. -/
lemma loadReadFirst_of_passedOn (path : String) {f : Fault} (hf : PassedOn f) :
    loadReadFirst path (.error f) = loadRead path (.error f) := by
  cases f with
  | workspace e => exact absurd (hf.unreadable path) nofun
  | _ => rfl

/-- A change of the records changes nothing else of the index. -/
lemma rewritten_apply (e : Edit) (i : Index) : i.Rewritten (e.apply i) := by
  cases e with
  | record file literal target => exact i.rewritten_record file literal target
  | clear file => exact i.rewritten_clear file

/-- A user who asks for a load is admitted by the index as it stands. -/
lemma run_admitted (c : Clerks) (r : Demand) :
    run c.fresh some (.step (fun s => { s with index := s.index.requestLoad.2 }) fun s =>
        admitted s.index.requestLoad.1)
        { c with fresh := c.fresh + 1, history := .begun c.fresh r :: c.history } =
      run c.fresh some (admitted c.state.index.requestLoad.1)
        { c with
          state := { c.state with index := c.state.index.requestLoad.2 }
          fresh := c.fresh + 1
          history := .begun c.fresh r :: c.history } := rfl

namespace Picture.Of

/-! ### Users who come -/

lemma call_edit (hd : d.Of path c) (e : Edit) : Picture.Of path
    { d with
      index := e.apply d.index
      history := .returned d.fresh .done :: .begun d.fresh (.edit e) :: d.history
      fresh := d.fresh + 1 } (c.call Demand.work (.edit e)) := by
  obtain ⟨clerks, index, history, fresh⟩ := d
  obtain ⟨hp, rfl, rfl, rfl, rfl⟩ := hd
  exact ⟨hp, rfl, by rw [rewritten_apply e], rfl, rfl⟩

lemma call_save (hd : d.Of path c) : Picture.Of path
    { clerks := .queuer d.fresh d.index.savesBegun :: d.clerks
      index := d.index.enqueue.2
      history := .begun d.fresh .save :: d.history
      fresh := d.fresh + 1 } (c.call Demand.work .save) := by
  obtain ⟨clerks, index, history, fresh⟩ := d
  obtain ⟨hp, rfl, rfl, rfl, rfl⟩ := hd
  rw [Crowd.call, save_eq]
  exact ⟨congrArg (_ :: ·) hp, rfl, rfl, rfl, rfl⟩

lemma call_load_known (hd : d.Of path c) (hloaded : d.index.loaded = true) : Picture.Of path
    { d with
      history := .returned d.fresh .done :: .begun d.fresh .load :: d.history
      fresh := d.fresh + 1 } (c.call Demand.work .load) := by
  obtain ⟨clerks, index, history, fresh⟩ := d
  obtain ⟨hp, rfl, rfl, rfl, rfl⟩ := hd
  rw [Crowd.call, Demand.work, load_eq, run_admitted, requestLoad_of_loaded hloaded]
  exact ⟨hp, rfl, rfl, rfl, rfl⟩

lemma call_load_join (hd : d.Of path c) (hloaded : d.index.loaded = false) {ticket : Nat}
    (hloading : d.index.loading? = some ticket) : Picture.Of path
    { d with
      clerks := .awaiter d.fresh ticket :: d.clerks
      history := .begun d.fresh .load :: d.history
      fresh := d.fresh + 1 } (c.call Demand.work .load) := by
  obtain ⟨clerks, index, history, fresh⟩ := d
  obtain ⟨hp, rfl, rfl, rfl, rfl⟩ := hd
  rw [Crowd.call, Demand.work, load_eq, run_admitted, requestLoad_of_loading hloaded hloading]
  exact ⟨congrArg (_ :: ·) hp, rfl, rfl, rfl, rfl⟩

/-- One begins a load. -/
lemma begin_load (hd : d.Of path c) (hloaded : d.index.loaded = false)
    (hloading : d.index.loading? = none) (r : Demand) : Picture.Of path
      { clerks := .awaiter d.fresh d.index.loadsBegun :: .starter (d.fresh + 1) d.index.loadsBegun ::
          d.clerks
        index := d.index.whileLoading
        history := .begun d.fresh r :: d.history
        fresh := d.fresh + 2 }
      (run c.fresh some (.step (fun s => { s with index := s.index.requestLoad.2 }) fun s =>
        admitted s.index.requestLoad.1)
        { c with fresh := c.fresh + 1, history := .begun c.fresh r :: c.history }) := by
  obtain ⟨clerks, index, history, fresh⟩ := d
  obtain ⟨hp, rfl, rfl, rfl, rfl⟩ := hd
  rw [run_admitted, requestLoad_of_new hloaded hloading]
  exact ⟨congrArg (_ :: _ :: ·) hp, rfl, rfl, rfl, rfl⟩

lemma call_load (hd : d.Of path c) (hloaded : d.index.loaded = false)
    (hloading : d.index.loading? = none) : Picture.Of path
    { clerks := .awaiter d.fresh d.index.loadsBegun :: .starter (d.fresh + 1) d.index.loadsBegun ::
        d.clerks
      index := d.index.whileLoading
      history := .begun d.fresh .load :: d.history
      fresh := d.fresh + 2 } (c.call Demand.work .load) := by
  rw [Crowd.call, Demand.work, load_eq]
  exact hd.begin_load hloaded hloading .load

lemma call_reload (hd : d.Of path c) : Picture.Of path
    { clerks := .awaiter d.fresh d.index.loadsBegun :: .starter (d.fresh + 1) d.index.loadsBegun ::
        d.clerks
      index := d.index.forget.whileLoading
      history := .begun d.fresh .reload :: d.history
      fresh := d.fresh + 2 } (c.call Demand.work .reload) := by
  have hforget : Picture.Of path { d with index := d.index.forget }
      { c with state := { c.state with index := c.state.index.forget } } := by
    obtain ⟨clerks, index, history, fresh⟩ := d
    obtain ⟨hp, rfl, rfl, rfl, rfl⟩ := hd
    exact ⟨hp, rfl, rfl, rfl, rfl⟩
  rw [Crowd.call, reload_eq]
  exact hforget.begin_load rfl rfl .reload

/-! ### Users and loads that go on -/

section GoOn

variable {n ticket : Nat} {snapshot dir : String}

lemma run_start (hd : d.Of path c) : Picture.Of path
    { d with clerks := .prober n ticket :: d.clerks, history := .put n (.probe path) :: d.history }
    (run n (fun _ => none) (runLoad ticket) c) := by
  obtain ⟨clerks, index, history, fresh⟩ := d
  obtain ⟨hp, rfl, rfl, rfl, rfl⟩ := hd
  exact ⟨congrArg (_ :: ·) hp, rfl, rfl, rfl, rfl⟩

lemma run_find (hd : d.Of path c) : Picture.Of path
    { d with clerks := .reader n ticket false :: d.clerks, history := .put n (.read path) :: d.history }
    (run n (fun _ => none) ((loadProbed path (.ok true)).run.bind (endLoad ticket)) c) := by
  obtain ⟨clerks, index, history, fresh⟩ := d
  obtain ⟨hp, rfl, hpath, rfl, rfl⟩ := hd
  exact ⟨congrArg (_ :: ·) hp, rfl, hpath, rfl, rfl⟩

lemma run_read (hd : d.Of path c) (content : String) : Picture.Of path
    { d with index := d.index.afterReading ticket (recordsIn content) }
    (run n (fun _ => none) ((loadRead path (.ok content)).run.bind (endLoad ticket)) c) := by
  obtain ⟨clerks, index, history, fresh⟩ := d
  obtain ⟨hp, rfl, hpath, rfl, rfl⟩ := hd
  show Picture.Of path _ (run n _ (((accept path content).run.bind _).bind (endLoad ticket)) _)
  unfold accept recordsIn
  rcases IndexData.parse content with (_ | _ | _ | _) | d
  all_goals exact ⟨hp, rfl, hpath, rfl, rfl⟩

/-- A load that passes a fault on fails. -/
lemma run_passed (hd : d.Of path c) {f : Fault} (hf : PassedOn f) : Picture.Of path
    { d with index := d.index.afterReading ticket (unreadRecords f) }
    (run n (fun _ => none) (((unreadable path f).getD (throw f)).run.bind (endLoad ticket)) c) := by
  obtain ⟨clerks, index, history, fresh⟩ := d
  obtain ⟨hp, rfl, hpath, rfl, rfl⟩ := hd
  rw [hf.unreadable, hf.unreadRecords]
  exact ⟨hp, rfl, hpath, rfl, rfl⟩

/-- A load that is answered so ends. -/
lemma run_settle (hd : d.Of path c) {x : Clerk} {q : Question} {a : q.Answer}
    {r : Except Fault IndexData} (hl : x.Loads path n ticket q a r) {next : q.Answer → Work Unit}
    (hx : x.paused path = ⟨n, Unit, .ask q next, fun _ => none⟩) : Picture.Of path
      { d with index := d.index.afterReading ticket r } (run n (fun _ => none) (next a) c) := by
  cases hl with
  | read again content => cases again <;> cases hx <;> exact hd.run_read content
  | absent =>
    cases hx
    obtain ⟨clerks, index, history, fresh⟩ := d
    obtain ⟨hp, rfl, hpath, rfl, rfl⟩ := hd
    exact ⟨hp, rfl, hpath, rfl, rfl⟩
  | unprobed f =>
    cases hx
    rcases workspace_or_passedOn f with ⟨e, rfl⟩ | hf
    · obtain ⟨clerks, index, history, fresh⟩ := d
      obtain ⟨hp, rfl, hpath, rfl, rfl⟩ := hd
      exact ⟨hp, rfl, hpath, rfl, rfl⟩
    · exact hd.run_passed hf
  | unread again f hagain =>
    rcases workspace_or_passedOn f with ⟨e, rfl⟩ | hf
    · obtain rfl := hagain e rfl
      cases hx
      obtain ⟨clerks, index, history, fresh⟩ := d
      obtain ⟨hp, rfl, hpath, rfl, rfl⟩ := hd
      exact ⟨hp, rfl, hpath, rfl, rfl⟩
    · cases again with
      | true =>
        cases hx
        exact hd.run_passed hf
      | false =>
        have hnext : next (.error f) = (loadRead path (.error f)).run.bind (endLoad ticket) := by
          cases hx
          exact congrArg (fun t => t.run.bind (endLoad ticket)) (loadReadFirst_of_passedOn path hf)
        rw [hnext]
        exact hd.run_passed hf

lemma run_again (hd : d.Of path c) (f : WorkspaceFault) : Picture.Of path
    { d with clerks := .reader n ticket true :: d.clerks, history := .put n (.read path) :: d.history }
    (run n (fun _ => none) ((loadReadFirst path (.error (.workspace f))).run.bind (endLoad ticket)) c) := by
  obtain ⟨clerks, index, history, fresh⟩ := d
  obtain ⟨hp, rfl, hpath, rfl, rfl⟩ := hd
  exact ⟨congrArg (_ :: ·) hp, rfl, hpath, rfl, rfl⟩

lemma path_leaveLoad (i : Index) (ticket : Nat) : (i.leaveLoad ticket).path = i.path := by
  unfold leaveLoad
  split <;> rfl

lemma run_learn (hd : d.Of path c) {r : Except Fault Unit} (hr : d.index.loadOutcome? ticket = some r) :
    Picture.Of path
      { d with
        index := d.index.leaveLoad ticket
        history := .returned n (.of (fun _ => .done) r) :: d.history }
      (run n some (endWait ticket .ready) c) := by
  obtain ⟨clerks, index, history, fresh⟩ := d
  obtain ⟨hp, rfl, hpath, rfl, rfl⟩ := hd
  simp only [endWait, run, id]
  rw [show c.state.index.loadOutcome? ticket = some r from hr]
  cases r <;> exact ⟨hp, rfl, (path_leaveLoad _ ticket).trans hpath, rfl, rfl⟩

lemma run_leave (hd : d.Of path c) : Picture.Of path
    { d with
      index := d.index.leaveLoad ticket
      history := .returned n (.failed .cancelled) :: d.history }
    (run n some (endWait ticket .cancelled) c) := by
  obtain ⟨clerks, index, history, fresh⟩ := d
  obtain ⟨hp, rfl, hpath, rfl, rfl⟩ := hd
  exact ⟨hp, rfl, (path_leaveLoad _ ticket).trans hpath, rfl, rfl⟩

lemma run_withdraw (hd : d.Of path c) : Picture.Of path
    { d with
      index := d.index.dequeue ticket
      history := .returned n (.failed .cancelled) :: d.history }
    (run n some (endQueue ticket .cancelled) c) := by
  obtain ⟨clerks, index, history, fresh⟩ := d
  obtain ⟨hp, rfl, hpath, rfl, rfl⟩ := hd
  exact ⟨hp, rfl, hpath, rfl, rfl⟩

lemma run_pass (hd : d.Of path c) (hdirty : d.index.dirty = false) : Picture.Of path
    { d with
      index := d.index.dequeue ticket
      history := .returned n (.saved false) :: d.history }
    (run n some (endQueue ticket .ready) c) := by
  obtain ⟨clerks, index, history, fresh⟩ := d
  obtain ⟨hp, rfl, hpath, rfl, rfl⟩ := hd
  have htake : c.state.index.takeSnapshot = (none, c.state.index) := by
    simp [takeSnapshot, show c.state.index.dirty = false from hdirty]
  simp only [endQueue, run, id]
  rw [htake]
  exact ⟨hp, rfl, hpath, rfl, rfl⟩

/-- One who begins to write a snapshot pauses at the first question. -/
lemma run_writeSnapshot (path snapshot : String) (n ticket : Nat) (w : Clerks) :
    run n some ((writeSnapshot path snapshot).run.bind (endSave ticket)) w =
      { w with
        paused := (Clerk.saver path n ticket snapshot).paused path :: w.paused
        history := .put n (firstQuestion path snapshot) :: w.history } := by
  unfold writeSnapshot Workspace.ensureDirectory Clerk.saver firstQuestion
  cases Workspace.directoryOf? path <;> rfl

lemma run_take (hd : d.Of path c) (hdirty : d.index.dirty = true) : Picture.Of path
    { d with
      clerks := .saver path n ticket d.index.data.render :: d.clerks
      index := { d.index with dirty := false }
      history := .put n (firstQuestion path d.index.data.render) :: d.history }
    (run n some (endQueue ticket .ready) c) := by
  obtain ⟨clerks, index, history, fresh⟩ := d
  obtain ⟨hp, rfl, rfl, rfl, rfl⟩ := hd
  have htake : c.state.index.takeSnapshot =
      (some c.state.index.data.render, { c.state.index with dirty := false }) := by
    simp [takeSnapshot, show c.state.index.dirty = true from hdirty]
  simp only [endQueue, run, id]
  rw [htake]
  show Picture.Of _ _ (run n some ((writeSnapshot c.state.index.path _).run.bind (endSave ticket)) _)
  rw [run_writeSnapshot]
  exact ⟨congrArg (_ :: ·) hp, rfl, rfl, rfl, rfl⟩

lemma run_lack (hd : d.Of path c) : Picture.Of path
    { d with
      clerks := .maker n ticket snapshot dir :: d.clerks
      history := .put n (.mkdir dir) :: d.history }
    (run n some ((savePrepared path snapshot (do
      if !(← ExceptT.mk (.done (.ok false))) then Work.mkdir dir)).run.bind (endSave ticket)) c) := by
  obtain ⟨clerks, index, history, fresh⟩ := d
  obtain ⟨hp, rfl, hpath, rfl, rfl⟩ := hd
  exact ⟨congrArg (_ :: ·) hp, rfl, hpath, rfl, rfl⟩

/-- One who saves and has a directory begins to write. -/
lemma run_write (hd : d.Of path c) {x : Clerk} {q : Question} {a : q.Answer}
    (hp : x.Prepared n ticket snapshot q a) {next : q.Answer → Work Told}
    (hx : x.paused path = ⟨n, Told, .ask q next, some⟩) : Picture.Of path
      { d with
        clerks := .writer n ticket snapshot :: d.clerks
        history := .put n (.write path snapshot) :: d.history }
      (run n some (next a) c) := by
  obtain ⟨clerks, index, history, fresh⟩ := d
  obtain ⟨hpaused, rfl, hpath, rfl, rfl⟩ := hd
  cases hp <;> cases hx <;> exact ⟨congrArg (_ :: ·) hpaused, rfl, hpath, rfl, rfl⟩

/-- One who saves and is told of a fault ends. -/
lemma run_fail (hd : d.Of path c) {x : Clerk} {q : Question} (hs : x.Saves path n ticket snapshot q)
    {next : q.Answer → Work Told} (hx : x.paused path = ⟨n, Told, .ask q next, some⟩) (f : Fault) :
    Picture.Of path
      { d with
        index := (d.index.unsaved f).dequeue ticket
        history := .returned n (.unsaved f) :: d.history }
      (run n some (next (.error f)) c) := by
  have hrun : next (.error f) = ((unwritten path f).getD (throw f)).run.bind (endSave ticket) := by
    cases hs <;> cases hx <;> rfl
  rw [hrun]
  obtain ⟨clerks, index, history, fresh⟩ := d
  obtain ⟨hp, rfl, hpath, rfl, rfl⟩ := hd
  rcases workspace_or_passedOn f with ⟨e, rfl⟩ | hf
  · exact ⟨hp, rfl, hpath, rfl, rfl⟩
  · rw [hf.unwritten, hf.unsaved, hf.told]
    exact ⟨hp, rfl, hpath, rfl, rfl⟩

lemma run_written (hd : d.Of path c) : Picture.Of path
    { d with
      index := d.index.dequeue ticket
      history := .returned n (.saved true) :: d.history }
    (run n some ((saveWritten path (.ok ())).run.bind (endSave ticket)) c) := by
  obtain ⟨clerks, index, history, fresh⟩ := d
  obtain ⟨hp, rfl, hpath, rfl, rfl⟩ := hd
  exact ⟨hp, rfl, hpath, rfl, rfl⟩

end GoOn

end Picture.Of

/-- Whoever pauses is one of the users and loads in the picture. -/
lemma exists_clerk (hd : d.Of path c) {front back : List (Paused Service Question Question.Answer Told)}
    {p : Paused Service Question Question.Answer Told} (hp : c.paused = front ++ p :: back) :
    ∃ front' x back', d.clerks = front' ++ x :: back' ∧ front'.map (Clerk.paused path) = front ∧
      x.paused path = p ∧ back'.map (Clerk.paused path) = back := by
  obtain ⟨front', rest, hc, rfl, hrest⟩ := List.map_eq_append_iff.mp (hd.paused.symm.trans hp)
  obtain ⟨x, back', rfl, hx, rfl⟩ := List.map_eq_cons_iff.mp hrest
  exact ⟨front', x, back', hc, rfl, hx, rfl⟩

/-- One of those that pause stops pausing, and something is noted. -/
lemma Picture.Of.resume (hd : d.Of path c) (front back : List Clerk) (news : List Happening) :
    Picture.Of path { d with clerks := front ++ back, history := news ++ d.history }
      { c with
        paused := front.map (Clerk.paused path) ++ back.map (Clerk.paused path)
        history := news ++ c.history } := by
  obtain ⟨hp, hi, hpath, hh, hf⟩ := hd
  exact ⟨List.map_append.symm, hi, hpath, congrArg (news ++ ·) hh, hf⟩

/-- A user who comes makes a move. -/
lemma exists_move_call (hd : d.Of path c) (r : Demand) :
    ∃ d', Move path d d' ∧ d'.Of path (c.call Demand.work r) := by
  cases r with
  | load =>
    cases hloaded : d.index.loaded with
    | true => exact ⟨_, .known hloaded, hd.call_load_known hloaded⟩
    | false =>
      cases hloading : d.index.loading? with
      | some ticket => exact ⟨_, .join ticket hloaded hloading, hd.call_load_join hloaded hloading⟩
      | none => exact ⟨_, .load hloaded hloading, hd.call_load hloaded hloading⟩
  | reload => exact ⟨_, .reload, hd.call_reload⟩
  | save => exact ⟨_, .enqueue, hd.call_save⟩
  | edit e => exact ⟨_, .edit e, hd.call_edit e⟩

/-- One who gets an answer makes a move. -/
lemma exists_move_answer (hd : d.Of path c) {front back : List Clerk} {x : Clerk}
    (hc : d.clerks = front ++ x :: back) {n : Nat} {α : Type} {q : Question}
    {next : q.Answer → Work α} {report : α → Option Told}
    (hx : x.paused path = ⟨n, α, .ask q next, report⟩) (a : q.Answer) :
    ∃ d', Move path d d' ∧ d'.Of path (run n report (next a) { c with
      paused := front.map (Clerk.paused path) ++ back.map (Clerk.paused path)
      history := .answered n q a :: c.history }) := by
  have hd' := hd.resume front back [.answered n q a]
  cases x with
  | starter m ticket => cases hx
  | awaiter m ticket => cases hx
  | queuer m ticket => cases hx
  | prober m ticket =>
    have hx' := hx
    cases hx
    rcases a with f | (_ | _)
    · exact ⟨_, .settle front back _ n ticket _ _ _ hc (.unprobed f), hd'.run_settle (.unprobed f) hx'⟩
    · exact ⟨_, .settle front back _ n ticket _ _ _ hc .absent, hd'.run_settle .absent hx'⟩
    · exact ⟨_, .find front back n ticket hc, hd'.run_find⟩
  | reader m ticket again =>
    have hx' := hx
    cases again with
    | true =>
      cases hx
      cases a with
      | ok content =>
        exact ⟨_, .settle front back _ n ticket _ _ _ hc (.read true content),
          hd'.run_settle (.read true content) hx'⟩
      | error f =>
        exact ⟨_, .settle front back _ n ticket _ _ _ hc (.unread true f fun _ _ => rfl),
          hd'.run_settle (.unread true f fun _ _ => rfl) hx'⟩
    | false =>
      cases hx
      cases a with
      | ok content =>
        exact ⟨_, .settle front back _ n ticket _ _ _ hc (.read false content),
          hd'.run_settle (.read false content) hx'⟩
      | error f =>
        by_cases hf : ∃ e, f = .workspace e
        · obtain ⟨e, rfl⟩ := hf
          exact ⟨_, .again front back n ticket e hc, hd'.run_again e⟩
        · have hunread : ∀ e, f = .workspace e → false = true := fun e he => absurd ⟨e, he⟩ hf
          exact ⟨_, .settle front back _ n ticket _ _ _ hc (.unread false f hunread),
            hd'.run_settle (.unread false f hunread) hx'⟩
  | searcher m ticket snapshot dir =>
    have hx' := hx
    cases hx
    rcases a with f | (_ | _)
    · exact ⟨_, .fail front back _ n ticket snapshot _ f hc (.search dir), hd'.run_fail (.search dir) hx' f⟩
    · exact ⟨_, .lack front back n ticket snapshot dir hc, hd'.run_lack⟩
    · exact ⟨_, .write front back _ n ticket snapshot _ _ hc (.found dir), hd'.run_write (.found dir) hx'⟩
  | maker m ticket snapshot dir =>
    have hx' := hx
    cases hx
    rcases a with f | _
    · exact ⟨_, .fail front back _ n ticket snapshot _ f hc (.make dir), hd'.run_fail (.make dir) hx' f⟩
    · exact ⟨_, .write front back _ n ticket snapshot _ _ hc (.made dir), hd'.run_write (.made dir) hx'⟩
  | writer m ticket snapshot =>
    have hx' := hx
    cases hx
    rcases a with f | _
    · exact ⟨_, .fail front back _ n ticket snapshot _ f hc .write, hd'.run_fail .write hx' f⟩
    · exact ⟨_, .written front back n ticket snapshot hc, hd'.run_written⟩

/-- One who stops waiting makes a move. -/
lemma exists_move_wake (hd : d.Of path c) {front back : List Clerk} {x : Clerk}
    (hc : d.clerks = front ++ x :: back) {n turns : Nat} {α : Type} {until_ : Service → Bool}
    {next : Wake → Work α} {report : α → Option Told}
    (hx : x.paused path = ⟨n, α, .wait turns until_ next, report⟩) (w : Wake)
    (hw : w = .ready → until_ c.state = true) :
    ∃ d', Move path d d' ∧ d'.Of path (run n report (next w) { c with
      paused := front.map (Clerk.paused path) ++ back.map (Clerk.paused path) }) := by
  have hd' := hd.resume front back []
  cases x with
  | prober m ticket => cases hx
  | reader m ticket again => cases again <;> cases hx
  | searcher m ticket snapshot dir => cases hx
  | maker m ticket snapshot dir => cases hx
  | writer m ticket snapshot => cases hx
  | starter m ticket =>
    cases hx
    cases w with
    | ready => exact ⟨_, .start front back n ticket hc, hd'.run_start⟩
    | cancelled => exact ⟨_, .stop front back n ticket hc, hd'⟩
  | awaiter m ticket =>
    cases hx
    cases w with
    | cancelled => exact ⟨_, .leave front back n ticket hc, hd'.run_leave⟩
    | ready =>
      obtain ⟨r, hr⟩ := Option.isSome_iff_exists.mp (hw rfl)
      rw [hd.index] at hr
      exact ⟨_, .learn front back n ticket r hc hr, hd'.run_learn hr⟩
  | queuer m ticket =>
    cases hx
    cases w with
    | cancelled => exact ⟨_, .withdraw front back n ticket hc, hd'.run_withdraw⟩
    | ready =>
      have hhead := beq_iff_eq.mp (hw rfl)
      rw [hd.index] at hhead
      cases hdirty : d.index.dirty with
      | false => exact ⟨_, .pass front back n ticket hc hhead hdirty, hd'.run_pass hdirty⟩
      | true => exact ⟨_, .take front back n ticket hc hhead hdirty, hd'.run_take hdirty⟩

/-- What can happen to users is a move of their picture. -/
theorem exists_move (hd : d.Of path c) (h : Step Demand.work c c') :
    ∃ d', Move path d d' ∧ d'.Of path c' := by
  cases h with
  | call r => exact exists_move_call hd r
  | @answer front back id α q next report a hpaused =>
    obtain ⟨front', x, back', hc, rfl, hx, rfl⟩ := exists_clerk hd hpaused
    exact exists_move_answer hd hc hx a
  | @wake front back id α turns until_ next report w hpaused hready =>
    obtain ⟨front', x, back', hc, rfl, hx, rfl⟩ := exists_clerk hd hpaused
    exact exists_move_wake hd hc hx w hready

lemma Picture.Of.split (hd : d.Of path c) {front back : List Clerk} {x : Clerk}
    (hc : d.clerks = front ++ x :: back) : c.paused =
      front.map (Clerk.paused path) ++ x.paused path :: back.map (Clerk.paused path) := by
  rw [hd.paused, hc, List.map_append, List.map_cons]

lemma Clerk.Loads.exists_ask {n ticket : Nat} {x : Clerk} {q : Question} {a : q.Answer}
    {r : Except Fault IndexData} (h : x.Loads path n ticket q a r) :
    ∃ next, x.paused path = ⟨n, Unit, .ask q next, fun _ => none⟩ := by
  cases h with
  | read again content => cases again <;> exact ⟨_, rfl⟩
  | unread again f hf => cases again <;> exact ⟨_, rfl⟩
  | _ => exact ⟨_, rfl⟩

lemma Clerk.Prepared.exists_ask {n ticket : Nat} {snapshot : String} {x : Clerk} {q : Question}
    {a : q.Answer} (h : x.Prepared n ticket snapshot q a) :
    ∃ next, x.paused path = ⟨n, Told, .ask q next, some⟩ := by
  cases h <;> exact ⟨_, rfl⟩

lemma Clerk.Saves.exists_ask {n ticket : Nat} {snapshot : String} {x : Clerk} {q : Question}
    (h : x.Saves path n ticket snapshot q) :
    ∃ next, x.paused path = ⟨n, Told, .ask q next, some⟩ := by
  cases h <;> exact ⟨_, rfl⟩

/-- Every move of the picture is something that can happen to the users. -/
theorem exists_step (hd : d.Of path c) (hm : Move path d d') :
    ∃ c', Step Demand.work c c' ∧ d'.Of path c' := by
  cases hm with
  | edit e => exact ⟨_, .call c (.edit e), hd.call_edit e⟩
  | known hloaded => exact ⟨_, .call c .load, hd.call_load_known hloaded⟩
  | join ticket hloaded hloading => exact ⟨_, .call c .load, hd.call_load_join hloaded hloading⟩
  | load hloaded hloading => exact ⟨_, .call c .load, hd.call_load hloaded hloading⟩
  | reload => exact ⟨_, .call c .reload, hd.call_reload⟩
  | enqueue => exact ⟨_, .call c .save, hd.call_save⟩
  | start front back n ticket hc =>
    exact ⟨_, .wake .ready (hd.split hc) fun _ => rfl, (hd.resume front back []).run_start⟩
  | stop front back n ticket hc =>
    exact ⟨_, .wake .cancelled (hd.split hc) nofun, hd.resume front back []⟩
  | find front back n ticket hc =>
    exact ⟨_, .answer (.ok true) (hd.split hc), (hd.resume front back [_]).run_find⟩
  | again front back n ticket f hc =>
    exact ⟨_, .answer (.error (.workspace f)) (hd.split hc), (hd.resume front back [_]).run_again f⟩
  | settle front back x n ticket q a r hc hl =>
    obtain ⟨next, hx⟩ := hl.exists_ask
    exact ⟨_, .answer a (hx ▸ hd.split hc), (hd.resume front back [_]).run_settle hl hx⟩
  | learn front back n ticket r hc hr =>
    refine ⟨_, .wake .ready (hd.split hc) fun _ => ?_, (hd.resume front back []).run_learn hr⟩
    rw [hd.index, hr]
    rfl
  | leave front back n ticket hc =>
    exact ⟨_, .wake .cancelled (hd.split hc) nofun, (hd.resume front back []).run_leave⟩
  | withdraw front back n ticket hc =>
    exact ⟨_, .wake .cancelled (hd.split hc) nofun, (hd.resume front back []).run_withdraw⟩
  | pass front back n ticket hc hhead hdirty =>
    refine ⟨_, .wake .ready (hd.split hc) fun _ => ?_, (hd.resume front back []).run_pass hdirty⟩
    rw [hd.index, hhead]
    exact beq_self_eq_true _
  | take front back n ticket hc hhead hdirty =>
    refine ⟨_, .wake .ready (hd.split hc) fun _ => ?_, (hd.resume front back []).run_take hdirty⟩
    rw [hd.index, hhead]
    exact beq_self_eq_true _
  | lack front back n ticket snapshot dir hc =>
    exact ⟨_, .answer (.ok false) (hd.split hc), (hd.resume front back [_]).run_lack⟩
  | write front back x n ticket snapshot q a hc hp =>
    obtain ⟨next, hx⟩ := hp.exists_ask
    exact ⟨_, .answer a (hx ▸ hd.split hc), (hd.resume front back [_]).run_write hp hx⟩
  | written front back n ticket snapshot hc =>
    exact ⟨_, .answer (.ok ()) (hd.split hc), (hd.resume front back [_]).run_written⟩
  | fail front back x n ticket snapshot q f hc hs =>
    obtain ⟨next, hx⟩ := hs.exists_ask
    have hpaused := hd.split hc
    rw [hx] at hpaused
    have hstep : Step Demand.work c (run n some (next (.error f)) { c with
        paused := front.map (Clerk.paused path) ++ back.map (Clerk.paused path)
        history := .answered n q (.error f) :: c.history }) := .answer _ hpaused
    exact ⟨_, hstep, (hd.resume front back [.answered n q (.error f)]).run_fail hs hx f⟩

/-! ## What a move does to those who pause -/

/-- The user or load that an event is about. -/
def number : Happening → Nat
  | .begun n _ | .put n _ | .answered n _ _ | .returned n _ => n

/-- The number and the ticket of a load. -/
def Clerk.load? : Clerk → Option (Nat × Nat)
  | .starter n ticket | .prober n ticket | .reader n ticket _ => some (n, ticket)
  | _ => none

lemma Clerk.number_of_load? {x : Clerk} {n ticket : Nat} (h : x.load? = some (n, ticket)) :
    x.number = n := by
  cases x <;> cases h <;> rfl

/-- A user comes, and may start a load. -/
structure Enters (d d' : Picture) (xs : List Clerk) (news : List Happening) : Prop where
  clerks : d'.clerks = xs ++ d.clerks
  history : d'.history = news ++ d.history
  numbers : xs.map Clerk.number <+: [d.fresh, d.fresh + 1]
  fresh : d.fresh + xs.length ≤ d'.fresh
  before : d.fresh < d'.fresh
  about : ∀ e ∈ news, number e = d.fresh
  loads : ∀ x ∈ xs, ∀ n ticket, x.load? = some (n, ticket) →
    ticket = d.index.loadsBegun ∧ ticket < d'.index.loadsBegun

/-- One of those that pause goes on, and may pause again. -/
structure GoesOn (d d' : Picture) (front : List Clerk) (x : Clerk) (back : List Clerk)
    (y : Option Clerk) (news : List Happening) : Prop where
  before : d.clerks = front ++ x :: back
  after : d'.clerks = y.toList ++ (front ++ back)
  history : d'.history = news ++ d.history
  fresh : d'.fresh = d.fresh
  number : ∀ z ∈ y, z.number = x.number ∧ z.load? = x.load?
  busy : ∀ n ticket, y ≠ some (.awaiter n ticket)
  about : ∀ e ∈ news, Index.number e = x.number
  silent : ∀ n r, .begun n r ∉ news

lemma mem_of_rest {clerks front back : List Clerk} {x z : Clerk} (hc : clerks = front ++ x :: back)
    (hz : z ∈ front ++ back) : z ∈ clerks :=
  hc ▸ ((List.sublist_cons_self x back).append_left front).subset hz

/-- In every move a user comes, or one of those that pause goes on. -/
theorem Move.shape (hm : Move path d d') : (∃ xs news, Enters d d' xs news) ∨
    ∃ front x back y news, GoesOn d d' front x back y news := by
  cases hm with
  | edit e =>
    exact Or.inl ⟨[], [.returned d.fresh .done, .begun d.fresh (.edit e)], rfl, rfl, by simp, by simp,
      by simp, by simp [Index.number], by simp⟩
  | known _ =>
    exact Or.inl ⟨[], [.returned d.fresh .done, .begun d.fresh .load], rfl, rfl, by simp, by simp,
      by simp, by simp [Index.number], by simp⟩
  | join ticket _ _ =>
    exact Or.inl ⟨[.awaiter d.fresh ticket], [.begun d.fresh .load], rfl, rfl, by simp [Clerk.number],
      by simp, by simp, by simp [Index.number], by simp [Clerk.load?]⟩
  | load _ _ =>
    exact Or.inl ⟨[.awaiter d.fresh d.index.loadsBegun, .starter (d.fresh + 1) d.index.loadsBegun],
      [.begun d.fresh .load], rfl, rfl, by simp [Clerk.number], by simp, by simp, by simp [Index.number],
      by simp [Clerk.load?, whileLoading]⟩
  | reload =>
    exact Or.inl ⟨[.awaiter d.fresh d.index.loadsBegun, .starter (d.fresh + 1) d.index.loadsBegun],
      [.begun d.fresh .reload], rfl, rfl, by simp [Clerk.number], by simp, by simp, by simp [Index.number],
      by simp [Clerk.load?, whileLoading, forget]⟩
  | enqueue =>
    exact Or.inl ⟨[.queuer d.fresh d.index.savesBegun], [.begun d.fresh .save], rfl, rfl,
      by simp [Clerk.number], by simp, by simp, by simp [Index.number], by simp [Clerk.load?]⟩
  | start front back n ticket hc =>
    exact Or.inr ⟨front, _, back, some (.prober n ticket), [.put n (.probe path)], hc, rfl, rfl, rfl,
      by simp [Clerk.number, Clerk.load?], by simp, by simp [Index.number, Clerk.number], by simp⟩
  | stop front back n ticket hc =>
    exact Or.inr ⟨front, _, back, none, [], hc, rfl, rfl, rfl, by simp, by simp, by simp, by simp⟩
  | find front back n ticket hc =>
    exact Or.inr ⟨front, _, back, some (.reader n ticket false), [_, _], hc, rfl, rfl, rfl,
      by simp [Clerk.number, Clerk.load?], by simp, by simp [Index.number, Clerk.number], by simp⟩
  | again front back n ticket f hc =>
    exact Or.inr ⟨front, _, back, some (.reader n ticket true), [_, _], hc, rfl, rfl, rfl,
      by simp [Clerk.number, Clerk.load?], by simp, by simp [Index.number, Clerk.number], by simp⟩
  | settle front back x n ticket q a r hc hl =>
    refine Or.inr ⟨front, x, back, none, [_], hc, rfl, rfl, rfl, by simp, by simp, ?_, by simp⟩
    cases hl <;> simp [Index.number, Clerk.number]
  | learn front back n ticket r hc _ =>
    exact Or.inr ⟨front, _, back, none, [_], hc, rfl, rfl, rfl, by simp,
      by simp, by simp [Index.number, Clerk.number], by simp⟩
  | leave front back n ticket hc =>
    exact Or.inr ⟨front, _, back, none, [_], hc, rfl, rfl, rfl, by simp,
      by simp, by simp [Index.number, Clerk.number], by simp⟩
  | withdraw front back n ticket hc =>
    exact Or.inr ⟨front, _, back, none, [_], hc, rfl, rfl, rfl, by simp,
      by simp, by simp [Index.number, Clerk.number], by simp⟩
  | pass front back n ticket hc _ _ =>
    exact Or.inr ⟨front, _, back, none, [_], hc, rfl, rfl, rfl, by simp,
      by simp, by simp [Index.number, Clerk.number], by simp⟩
  | take front back n ticket hc _ _ =>
    refine Or.inr ⟨front, _, back, some _, [_], hc, rfl, rfl, rfl, ?_, ?_,
      by simp [Index.number, Clerk.number], by simp⟩
    · unfold Clerk.saver
      split <;> simp [Clerk.number, Clerk.load?]
    · unfold Clerk.saver
      split <;> simp
  | lack front back n ticket snapshot dir hc =>
    exact Or.inr ⟨front, _, back, some (.maker n ticket snapshot dir), [_, _], hc, rfl, rfl, rfl,
      by simp [Clerk.number, Clerk.load?], by simp, by simp [Index.number, Clerk.number], by simp⟩
  | write front back x n ticket snapshot q a hc hp =>
    refine Or.inr ⟨front, x, back, some (.writer n ticket snapshot), [_, _], hc, rfl, rfl, rfl, ?_,
      by simp, ?_, by simp⟩
    · cases hp <;> simp [Clerk.number, Clerk.load?]
    · cases hp <;> simp [Index.number, Clerk.number]
  | written front back n ticket snapshot hc =>
    exact Or.inr ⟨front, _, back, none, [_, _], hc, rfl, rfl, rfl, by simp,
      by simp, by simp [Index.number, Clerk.number], by simp⟩
  | fail front back x n ticket snapshot q f hc hs =>
    refine Or.inr ⟨front, x, back, none, [_, _], hc, rfl, rfl, rfl, by simp, by simp, ?_, by simp⟩
    cases hs <;> simp [Index.number, Clerk.number]

/-- A user has a greater number than all that has happened before it came. -/
def Chronicle : List Happening → Prop
  | [] => True
  | .begun n _ :: h => (∀ e ∈ h, number e < n) ∧ Chronicle h
  | _ :: h => Chronicle h

lemma Chronicle.number_lt {after before : List Happening} {n : Nat} {r : Demand}
    (h : Chronicle (after ++ .begun n r :: before)) : ∀ e ∈ before, number e < n := by
  induction after with
  | nil => exact h.1
  | cons e after ih =>
    cases e with
    | begun m r' => exact ih h.2
    | _ => exact ih h

/-- Those that pause have different numbers, and all numbers have been given out, one after the
other. -/
structure Picture.Numbered (d : Picture) : Prop where
  distinct : (d.clerks.map Clerk.number).Nodup
  fresh : ∀ x ∈ d.clerks, x.number < d.fresh
  known : ∀ e ∈ d.history, number e < d.fresh
  older : Chronicle d.history

lemma Move.chronicle (hm : Move path d d') (hk : ∀ e ∈ d.history, number e < d.fresh)
    (h : Chronicle d.history) : Chronicle d'.history := by
  cases hm with
  | edit e => exact ⟨hk, h⟩
  | known _ => exact ⟨hk, h⟩
  | join t _ _ => exact ⟨hk, h⟩
  | load _ _ => exact ⟨hk, h⟩
  | reload => exact ⟨hk, h⟩
  | enqueue => exact ⟨hk, h⟩
  | _ => exact h

lemma Enters.number_lt {xs : List Clerk} {news : List Happening} (h : Enters d d' xs news) :
    ∀ x ∈ xs, d.fresh ≤ x.number ∧ x.number < d'.fresh := by
  intro x hx
  have hmem : x.number ∈ xs.map Clerk.number := List.mem_map_of_mem hx
  obtain ⟨more, hmore⟩ := h.numbers
  have hlength := h.fresh
  rcases xs with _ | ⟨a, _ | ⟨b, _ | ⟨c, xs⟩⟩⟩
  · cases hx
  · simp only [List.map_cons, List.map_nil, List.cons_append, List.cons.injEq, List.mem_singleton,
      List.length_singleton] at hmore hmem hlength
    omega
  · simp only [List.map_cons, List.map_nil, List.cons_append, List.cons.injEq, List.mem_cons,
      List.not_mem_nil, or_false, List.length_cons, List.length_nil] at hmore hmem hlength
    omega
  · simp at hmore

theorem Picture.Numbered.move (h : d.Numbered) (hm : Move path d d') : d'.Numbered := by
  rcases hm.shape with ⟨xs, news, hs⟩ | ⟨front, x, back, y, news, hs⟩
  · refine ⟨?_, fun x hx => ?_, fun e he => ?_, hm.chronicle h.known h.older⟩
    · rw [hs.clerks, List.map_append, List.nodup_append]
      have hpair : ([d.fresh, d.fresh + 1] : List Nat).Nodup := by simp
      refine ⟨hpair.sublist hs.numbers.sublist, h.distinct, fun m hm n hn heq => ?_⟩
      obtain ⟨x, hx, rfl⟩ := List.mem_map.mp hm
      obtain ⟨y, hy, rfl⟩ := List.mem_map.mp hn
      have hle := (hs.number_lt x hx).1
      have hlt := h.fresh y hy
      omega
    · rw [hs.clerks] at hx
      rcases List.mem_append.mp hx with hx | hx
      · exact (hs.number_lt x hx).2
      · exact Nat.lt_trans (h.fresh x hx) hs.before
    · rw [hs.history] at he
      rcases List.mem_append.mp he with he | he
      · exact hs.about e he ▸ hs.before
      · exact Nat.lt_trans (h.known e he) hs.before
  · have hperm : (d.clerks.map Clerk.number).Perm (x.number :: (front ++ back).map Clerk.number) := by
      rw [hs.before]
      exact List.perm_middle.map Clerk.number
    have hx : x.number < d.fresh := h.fresh x (by simp [hs.before])
    have hsub : (d'.clerks.map Clerk.number).Sublist (x.number :: (front ++ back).map Clerk.number) := by
      rw [hs.after]
      cases y with
      | none => exact List.sublist_cons_self _ _
      | some z =>
        rw [Option.toList_some, List.singleton_append, List.map_cons, (hs.number z rfl).1]
    refine ⟨(hperm.nodup_iff.mp h.distinct).sublist hsub, fun z hz => ?_, fun e he => ?_,
      hm.chronicle h.known h.older⟩
    · have hmem := hperm.mem_iff.mpr (hsub.subset (List.mem_map_of_mem hz))
      obtain ⟨z', hz', heq⟩ := List.mem_map.mp hmem
      rw [hs.fresh, ← heq]
      exact h.fresh z' hz'
    · rw [hs.fresh]
      rw [hs.history] at he
      rcases List.mem_append.mp he with he | he
      · exact hs.about e he ▸ hx
      · exact h.known e he

lemma Picture.numbered_start (i : Index) : Picture.Numbered ⟨[], i, [], 0⟩ :=
  ⟨List.nodup_nil, fun _ hx => absurd hx List.not_mem_nil, fun _ he => absurd he List.not_mem_nil,
    trivial⟩

/-- What every move keeps of a picture is had by the picture of every crowd that is come to from one that
has it. -/
theorem exists_picture_of_steps {P : Picture → Prop} {c₀ : Clerks} {d₀ : Picture} (hd₀ : d₀.Of path c₀)
    (hp₀ : P d₀) (hmove : ∀ d d', P d → Move path d d' → P d')
    (h : Relation.ReflTransGen (Step Demand.work) c₀ c) : ∃ d : Picture, d.Of path c ∧ P d := by
  induction h with
  | refl => exact ⟨d₀, hd₀, hp₀⟩
  | tail _ hstep ih =>
    obtain ⟨d, hd, hp⟩ := ih
    obtain ⟨d', hm, hd'⟩ := exists_move hd hstep
    exact ⟨d', hd', hmove d d' hp hm⟩

/-- What the picture of nobody has, and every move keeps, the picture of every crowd of users has. -/
theorem exists_picture {P : Picture → Prop} {s : Service} (hs : s.index.path = path)
    (hstart : P ⟨[], s.index, [], 0⟩) (hmove : ∀ d d', P d → Move path d d' → P d')
    (h : Reachable Demand.work s c) : ∃ d : Picture, d.Of path c ∧ P d :=
  exists_picture_of_steps ⟨rfl, rfl, hs, rfl, rfl⟩ hstart hmove h

/-- What a picture comes to, its crowd comes to. -/
theorem exists_steps (hd : d.Of path c) (h : Relation.ReflTransGen (Move path) d d') :
    ∃ c', Relation.ReflTransGen (Step Demand.work) c c' ∧ d'.Of path c' := by
  induction h with
  | refl => exact ⟨c, .refl, hd⟩
  | tail _ hm ih =>
    obtain ⟨c₁, hc₁, hd₁⟩ := ih
    obtain ⟨c', hstep, hd'⟩ := exists_step hd₁ hm
    exact ⟨c', hc₁.tail hstep, hd'⟩

/-- Every picture that is come to is that of a crowd. -/
theorem exists_reachable {s : Service} (hs : s.index.path = path)
    (h : Relation.ReflTransGen (Move path) ⟨[], s.index, [], 0⟩ d) :
    ∃ c, Reachable Demand.work s c ∧ d.Of path c :=
  exists_steps ⟨rfl, rfl, hs, rfl, rfl⟩ h

end Moves

end SourceBundle.Index
