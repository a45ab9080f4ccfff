/-
# Sound services

A workspace and a registry may fail, but only in their own ways; and what they hold can be dealt
with, if no document holds a number that is too long, and no range is one whose ends cannot be taken
apart.  Then a sound service stays sound: what its cache holds and what its loads and fetches have
come to is as expected, and whoever uses the workspace, the index or the cache meets only faults that
are reported.
-/
import SourceBundle.Proofs.Index.Commit
import SourceBundle.Proofs.Routine.Assure
import SourceBundle.Proofs.Service.Plain
import SourceBundle.Proofs.Version.Readable
import SourceBundle.Cache.Fetch

namespace SourceBundle

/-! ## Texts that can be dealt with -/

/-- No number of the document is too long to be read. -/
def Json.Measured (text : String) : Prop := Json.read text ≠ .error .numberTooLong

/-- A manifest that can be dealt with. -/
structure Manifest.Legible (text : String) : Prop where
  measured : Json.Measured text
  readable : ∀ m, Manifest.parse text = .ok m → m.Readable

instance (text : String) : Decidable (Json.Measured text) :=
  match h : Json.read text with
  | .error .numberTooLong => isFalse fun hm => hm h
  | .error (.misfit _ _) => isTrue fun he => by simp [h] at he
  | .ok _ => isTrue fun he => by simp [h] at he

lemma Except.toOption_eq_some_iff {ε α : Type} {x : Except ε α} {a : α} :
    x.toOption = some a ↔ x = .ok a := by
  cases x with
  | error e => exact iff_of_false nofun nofun
  | ok b => exact ⟨fun h => congrArg Except.ok (Option.some.inj h), fun h => congrArg some (Except.ok.inj h)⟩

instance (text : String) : Decidable (Manifest.Legible text) :=
  decidable_of_iff (Json.Measured text ∧ ∀ m ∈ (Manifest.parse text).toOption, m.Readable) <| by
    constructor
    · rintro ⟨hmeasured, hreadable⟩
      exact ⟨hmeasured, fun m hm => hreadable m (Except.toOption_eq_some_iff.mpr hm)⟩
    · intro h
      exact ⟨h.measured, fun m hm => h.readable m (Except.toOption_eq_some_iff.mp hm)⟩

/-- The files of a package can be dealt with if its manifest can. -/
def LegibleFiles (files : Table String String) : Prop :=
  ∀ text, files.get? manifestFile = some text → Manifest.Legible text

/-- What a service runs in. -/
structure Surroundings where
  /-- The settings. -/
  settings : Settings
  /-- The file of the index. -/
  index : String
  /-- Whether routines may be cancelled. -/
  cancels : Prop

/-- A file of the workspace can be dealt with: what is asked of its text hangs on whether it is the
manifest, a lockfile, the project configuration or the index. -/
structure Surroundings.Legible (C : Surroundings) (path text : String) : Prop where
  manifest : path = manifestFile → Manifest.Legible text
  blocks : path = yarnLockFile → (Lock.ofBlocks text).Readable
  document : path = packageLockFile → Json.Measured text
  config : path = C.settings.projectConfigFile → C.settings.useFileConfiguration = true →
    Json.Measured text
  index : path = C.index → Json.Measured text

/-! ## Faults and answers -/

/-- A fault of the workspace. -/
def Fault.OfWorkspace (f : Fault) : Prop := ∃ w, f = .workspace w

/-- A fault of the registry. -/
def Fault.OfRegistry (f : Fault) : Prop := ∃ r, f = .registry r

/-- A fault that ends a compile request: the steps that it was given are used up, or it is
cancelled. -/
def Fault.Final (cancels : Prop) (f : Fault) : Prop := f = .exhausted ∨ cancels ∧ f = .cancelled

/-- A fault that is reported, or ends the request. -/
def Fault.Expected (cancels : Prop) (f : Fault) : Prop := f.isReported = true ∨ f.Final cancels

/-- Collaborators fail only in their own ways, the compiler does not fail, and what is read and
fetched can be dealt with. -/
def Surroundings.Honest (C : Surroundings) : (q : Question) → q.Answer → Prop
  | .probe _, a => Except.Within Fault.OfWorkspace (fun _ => True) a
  | .read path, a => Except.Within Fault.OfWorkspace (C.Legible path) a
  | .write _ _, a => Except.Within Fault.OfWorkspace (fun _ => True) a
  | .mkdir _, a => Except.Within Fault.OfWorkspace (fun _ => True) a
  | .versions _, a => Except.Within Fault.OfRegistry (fun _ => True) a
  | .files _ _, a => Except.Within Fault.OfRegistry LegibleFiles a
  | .compile _ _ _, a => Except.Within (fun _ => False) (fun _ => True) a

instance (f : Fault) : Decidable f.OfWorkspace :=
  decidable_of_iff ((f matches .workspace _) = true) <| by cases f <;> simp [Fault.OfWorkspace]

instance (f : Fault) : Decidable f.OfRegistry :=
  decidable_of_iff ((f matches .registry _) = true) <| by cases f <;> simp [Fault.OfRegistry]

instance {ε α : Type} (fault : ε → Prop) [DecidablePred fault] (post : α → Prop) [DecidablePred post]
    (r : Except ε α) : Decidable (Except.Within fault post r) :=
  match r with
  | .ok a => inferInstanceAs (Decidable (post a))
  | .error e => inferInstanceAs (Decidable (fault e))

instance (files : Table String String) : Decidable (LegibleFiles files) :=
  inferInstanceAs (Decidable (∀ text ∈ files.get? manifestFile, Manifest.Legible text))

instance (C : Surroundings) (path text : String) : Decidable (C.Legible path text) :=
  decidable_of_iff ((path = manifestFile → Manifest.Legible text) ∧
      (path = yarnLockFile → (Lock.ofBlocks text).Readable) ∧
      (path = packageLockFile → Json.Measured text) ∧
      (path = C.settings.projectConfigFile → C.settings.useFileConfiguration = true →
        Json.Measured text) ∧
      (path = C.index → Json.Measured text))
    ⟨fun h => ⟨h.1, h.2.1, h.2.2.1, h.2.2.2.1, h.2.2.2.2⟩,
      fun h => ⟨h.manifest, h.blocks, h.document, h.config, h.index⟩⟩

instance (C : Surroundings) : (q : Question) → (a : q.Answer) → Decidable (C.Honest q a)
  | .probe _, (a : Except Fault _) =>
    inferInstanceAs (Decidable (Except.Within Fault.OfWorkspace (fun _ => True) a))
  | .read path, (a : Except Fault String) =>
    inferInstanceAs (Decidable (Except.Within Fault.OfWorkspace (C.Legible path) a))
  | .write _ _, (a : Except Fault _) =>
    inferInstanceAs (Decidable (Except.Within Fault.OfWorkspace (fun _ => True) a))
  | .mkdir _, (a : Except Fault _) =>
    inferInstanceAs (Decidable (Except.Within Fault.OfWorkspace (fun _ => True) a))
  | .versions _, (a : Except Fault _) =>
    inferInstanceAs (Decidable (Except.Within Fault.OfRegistry (fun _ => True) a))
  | .files _ _, (a : Except Fault (Table String String)) =>
    inferInstanceAs (Decidable (Except.Within Fault.OfRegistry LegibleFiles a))
  | .compile _ _ _, (a : Except Fault _) =>
    inferInstanceAs (Decidable (Except.Within (fun _ => False) (fun _ => True) a))

/-- What a service remembers is as expected. -/
structure Service.Sound (C : Surroundings) (s : Service) : Prop where
  settings : s.settings = C.settings
  index : s.index.path = C.index
  entries : ∀ key n, s.cache.entries.get? key = some n → LegibleFiles n.files
  settled : ∀ ticket r, (ticket, r) ∈ s.cache.settled →
    Except.Within (Fault.Expected C.cancels) (fun n => LegibleFiles n.files) r
  delivered : ∀ d r, (d, r) ∈ s.delivered →
    Except.Within (Fault.Expected C.cancels) (fun n => LegibleFiles n.files) r
  loads : ∀ ticket r, (ticket, r) ∈ s.index.loads →
    Except.Within (Fault.Expected C.cancels) (fun _ => True) r

/-- The footing of a sound service among honest collaborators. -/
def Surroundings.footing (C : Surroundings) : Footing Service Question Question.Answer where
  state := Service.Sound C
  answer := C.Honest
  wake w := w = .cancelled → C.cancels

instance (C : Surroundings) (q : Question) (a : q.Answer) : Decidable (C.footing.answer q a) :=
  inferInstanceAs (Decidable (C.Honest q a))

/-- The task assures a property of its result, and has only expected faults. -/
abbrev Task.Safe {α : Type} (C : Surroundings) (x : Task α) (post : α → Prop) : Prop :=
  Attempt.Secures C.footing (Fault.Expected C.cancels) x post

/-- Begun with a private state of a kind, the run leaves such a state, assures a property of its
result, and has only expected faults. -/
abbrev Stateful.Safe {ρ α : Type} (C : Surroundings) (I : ρ → Prop) (x : Stateful ρ α)
    (post : α → Prop) : Prop :=
  Run.Secures C.footing (Fault.Expected C.cancels) I x post

variable {C : Surroundings} {s t : Service} {α ρ : Type} {f : Fault} {fault : Fault → Prop}
  {I : ρ → Prop} {post : α → Prop}

lemma Fault.OfWorkspace.expected (h : f.OfWorkspace) : f.Expected C.cancels := by
  obtain ⟨w, rfl⟩ := h
  exact Or.inl rfl

lemma Fault.OfRegistry.expected (h : f.OfRegistry) : f.Expected C.cancels := by
  obtain ⟨r, rfl⟩ := h
  exact Or.inl rfl

/-! ## The ways to do a part of the work -/

lemma Service.Sound.noted (h : s.Sound C) (hn : Noted s t) : t.Sound C := by
  rw [hn.rest]
  exact ⟨h.settings, h.index, h.entries, h.settled, h.delivered, h.loads⟩

/-- Plain work leaves a sound service sound. -/
lemma Routine.Plain.secures {busy : Bool} {D : String → Prop} {x : Work α}
    (hx : x.Plain (plainly busy D) post) : x.Secures C.footing post :=
  .of_plain hx fun _ _ => Service.Sound.noted

lemma Work.secures_log (r : LogRecord) : (Work.log r).Secures C.footing fun _ => True :=
  (@Work.plain_log true (fun _ => False) r).secures

namespace Task

lemma secures_work {x : Work α} (hx : x.Secures C.footing post) :
    Attempt.Secures C.footing fault (Task.work x) post :=
  Routine.Secures.bind hx fun _ => Routine.Secures.done

lemma secures_log (r : LogRecord) :
    Attempt.Secures C.footing fault (Task.work (Work.log r)) fun _ => True :=
  secures_work (Work.secures_log r)

/-- To answer the failures of the workspace, and let other faults pass. -/
lemma secures_handle_workspace {fault' : Fault → Prop} {x : Task α} {k : WorkspaceFault → Task α}
    (hx : Attempt.Secures C.footing fault' x post)
    (hpass : ∀ f, fault' f → f.OfWorkspace ∨ fault f)
    (hk : ∀ w, Attempt.Secures C.footing fault (k w) post) :
    Attempt.Secures C.footing fault
      (Task.handle x fun | .workspace w => some (k w) | _ => none) post := by
  refine Attempt.Secures.tryCatch hx fun f hf => ?_
  cases f with
  | workspace w => exact hk w
  | _ =>
    refine Attempt.Secures.throw ((hpass _ hf).resolve_left ?_)
    rintro ⟨w, hw⟩
    exact nomatch hw

end Task

namespace Stateful

lemma safe_work {x : Work α} (hx : x.Secures C.footing post) :
    Stateful.Safe C I (Stateful.work x) post :=
  fun _ ht => Routine.Secures.bind hx fun _ ha => Routine.Secures.done ⟨ht, ha⟩

lemma safe_log (r : LogRecord) : Stateful.Safe C I (Stateful.work (Work.log r)) fun _ => True :=
  safe_work (Work.secures_log r)

lemma safe_settings : Stateful.Safe C I (Stateful.work Work.settings) (· = C.settings) :=
  safe_work (.gets fun _ hs => hs.settings)

lemma safe_task {x : Task α} (hx : Task.Safe C x post) :
    Stateful.Safe C I (Stateful.task x) post :=
  Run.Secures.lift hx

lemma safe_outcome {e : Except Fault α} (h : Except.Within (Fault.Expected C.cancels) post e) :
    Stateful.Safe C I (Stateful.outcome e) post :=
  fun _ ht => Routine.Secures.done ⟨ht, h⟩

lemma safe_handle {x : Stateful ρ α} {h : Fault → Option (Stateful ρ α)}
    (hx : Stateful.Safe C I x post) (hh : ∀ f y, h f = some y → Stateful.Safe C I y post) :
    Stateful.Safe C I (Stateful.handle x h) post := by
  refine Run.Secures.tryCatch hx fun f hf => ?_
  cases hy : h f with
  | none => exact Run.Secures.throw hf
  | some y => exact hh f y hy

end Stateful

/-! ## Questions -/

namespace Work

lemma secures_probe (path : String) :
    Attempt.Secures C.footing Fault.OfWorkspace (Work.probe path) fun _ => True :=
  .put fun _ ha => ha

lemma secures_read (path : String) :
    Attempt.Secures C.footing Fault.OfWorkspace (Work.read path) (C.Legible path) :=
  .put fun _ ha => ha

lemma secures_write (path content : String) :
    Attempt.Secures C.footing Fault.OfWorkspace (Work.write path content) fun _ => True :=
  .put fun _ ha => ha

lemma secures_mkdir (path : String) :
    Attempt.Secures C.footing Fault.OfWorkspace (Work.mkdir path) fun _ => True :=
  .put fun _ ha => ha

lemma safe_versions (name : String) : Task.Safe C (Work.versions name) fun _ => True :=
  Attempt.Secures.widen (.put fun _ ha => ha) fun _ => Fault.OfRegistry.expected

lemma safe_files (name version : String) : Task.Safe C (Work.files name version) LegibleFiles :=
  Attempt.Secures.widen (.put fun _ ha => ha) fun _ => Fault.OfRegistry.expected

end Work

/-! ## The workspace -/

namespace Workspace

lemma secures_readTwice (path : String) :
    Attempt.Secures C.footing Fault.OfWorkspace (readTwice path) (C.Legible path) := by
  refine Task.secures_handle_workspace (Work.secures_read path) (fun _ => Or.inl) fun w => ?_
  exact (Task.secures_log _).bind fun _ _ => Work.secures_read path

lemma safe_readTwice (path : String) : Task.Safe C (readTwice path) (C.Legible path) :=
  (secures_readTwice path).widen fun _ => Fault.OfWorkspace.expected

lemma safe_readOptional (path : String) :
    Task.Safe C (readOptional path) fun content? => ∀ text, content? = some text → C.Legible path text := by
  refine Task.secures_handle_workspace ?_ (fun _ => Or.inl) fun w => ?_
  · refine (Work.secures_probe path).bind fun there _ => ?_
    split
    · refine (secures_readTwice path).bind fun text htext => Attempt.Secures.pure ?_
      rintro _ ⟨⟩
      exact htext
    · exact Attempt.Secures.pure nofun
  · exact Attempt.Secures.throw (Or.inl rfl)

lemma secures_ensureDirectory (path : String) :
    Attempt.Secures C.footing Fault.OfWorkspace (ensureDirectory path) fun _ => True := by
  unfold ensureDirectory
  split
  · exact Attempt.Secures.pure trivial
  · next dir _ =>
    refine (Work.secures_probe dir).bind fun there _ => ?_
    split
    · exact Work.secures_mkdir dir
    · exact Attempt.Secures.pure trivial

end Workspace

/-! ## The index -/

namespace Index

/-- The index with other records, changes and callers, but with the same file and the same loads. -/
structure SameLoads (i j : Index) : Prop where
  path : j.path = i.path
  loads : j.loads = i.loads

lemma Rewritten.sameLoads {i j : Index} (h : i.Rewritten j) : i.SameLoads j := by
  rw [h]
  exact ⟨rfl, rfl⟩

lemma sameLoads_requestLoad (i : Index) : i.SameLoads i.requestLoad.2 := by
  unfold requestLoad
  split
  · exact ⟨rfl, rfl⟩
  · split <;> exact ⟨rfl, rfl⟩

lemma sameLoads_leaveLoad (i : Index) (ticket : Nat) : i.SameLoads (i.leaveLoad ticket) := by
  unfold leaveLoad
  split <;> exact ⟨rfl, rfl⟩

lemma sameLoads_takeSnapshot (i : Index) : i.SameLoads i.takeSnapshot.2 := by
  unfold takeSnapshot
  split <;> exact ⟨rfl, rfl⟩

end Index

lemma Service.Sound.withIndex (h : s.Sound C) {i : Index} (hi : s.index.SameLoads i) :
    Service.Sound C { s with index := i } where
  settings := h.settings
  index := hi.path.trans h.index
  entries := h.entries
  settled := h.settled
  delivered := h.delivered
  loads := by
    show ∀ ticket r, (ticket, r) ∈ i.loads → _
    rw [hi.loads]
    exact h.loads

lemma Service.Sound.endLoad (h : s.Sound C) (ticket : Nat) {r : Except Fault Unit}
    (hr : Except.Within (Fault.Expected C.cancels) (fun _ => True) r) :
    Service.Sound C { s with index := { s.index with loads := (ticket, r) :: s.index.loads } } where
  settings := h.settings
  index := h.index
  entries := h.entries
  settled := h.settled
  delivered := h.delivered
  loads ticket' r' hmem := by
    rcases List.mem_cons.mp hmem with heq | hmem
    · obtain ⟨rfl, rfl⟩ := Prod.mk.inj heq
      exact hr
    · exact h.loads ticket' r' hmem

namespace Index

lemma secures_change {f : Index → Index} (hf : ∀ i : Index, i.SameLoads (f i)) :
    (change f).Secures C.footing fun _ => True :=
  .modify fun s hs => hs.withIndex (hf s.index)

lemma secures_enter {f : Index → α × Index} (hf : ∀ i : Index, i.SameLoads (f i).2) :
    (Routine.modifyGet fun s : Service =>
      let (a, i) := f s.index
      (a, { s with index := i }) : Work α).Secures C.footing fun _ => True :=
  .modifyGet fun s hs => ⟨hs.withIndex (hf s.index), trivial⟩

lemma secures_gets (f : Service → α) :
    (Routine.gets f : Work α).Secures C.footing fun _ => True :=
  .gets fun _ _ => trivial

lemma eq_error_of_bind_pure {ε β : Type} {x : Except ε α} {g : α → β} {e : ε}
    (h : (do let a ← x; pure (g a)) = Except.error e) : x = .error e := by
  cases x with
  | error e' => exact congrArg Except.error (Except.error.inj h)
  | ok a => exact nomatch h

lemma ne_numberTooLong_of_measured {content : String} (h : Json.Measured content) :
    IndexData.parse content ≠ .error .numberTooLong := by
  intro hp
  unfold IndexData.parse at hp
  split at hp
  · next hr => exact h hr
  · exact nomatch hp
  · next ms _ =>
    obtain ⟨m, -, hm⟩ := Version.exists_of_mapM_error (eq_error_of_bind_pure hp)
    split at hm <;> exact nomatch hm
  · exact nomatch hp

lemma safe_readRecords : Task.Safe C (readRecords C.index) fun _ => True := by
  refine Task.secures_handle_workspace ?_ (fun _ => Or.inl) fun w => ?_
  · refine (Work.secures_probe _).bind fun there _ => ?_
    split
    · refine (Workspace.secures_readTwice _).bind fun content hcontent => ?_
      split
      · exact Attempt.Secures.pure trivial
      · next h => exact absurd h (ne_numberTooLong_of_measured (hcontent.index rfl))
      · exact (Task.secures_log _).bind fun _ _ => Attempt.Secures.pure trivial
    · exact Attempt.Secures.pure trivial
  · exact (Task.secures_log _).bind fun _ _ => Attempt.Secures.pure trivial

lemma secures_runLoad (ticket : Nat) : (runLoad ticket).Secures C.footing fun _ => True := by
  have hpath : (Routine.gets (·.index.path) : Work String).Secures C.footing (· = C.index) :=
    .gets fun s hs => hs.index
  refine hpath.bind ?_
  rintro _ rfl
  refine Routine.Secures.bind safe_readRecords fun r hr => ?_
  cases r with
  | ok d =>
    refine (secures_change (f := fun i => i.finishLoad d) fun _ => ⟨rfl, rfl⟩).bind fun _ _ => ?_
    refine (secures_gets _).bind fun _ _ => (Work.secures_log _).bind fun _ _ => ?_
    exact .modify fun s hs => hs.endLoad ticket trivial
  | error f => exact .modify fun s hs => hs.endLoad ticket hr

/-- How a load has ended is as expected. -/
lemma within_of_loadOutcome {ticket : Nat} {r : Except Fault Unit} (hs : s.Sound C)
    (h : s.index.loadOutcome? ticket = some r) :
    Except.Within (Fault.Expected C.cancels) (fun _ => True) r := by
  obtain ⟨front, back, hl, -⟩ := List.lookup_eq_some_iff.mp h
  exact hs.loads ticket r (hl ▸ List.mem_append_right _ List.mem_cons_self)

lemma safe_awaitLoad (ticket : Nat) : Task.Safe C (awaitLoad ticket) fun _ => True := by
  refine (Task.secures_work (Routine.Secures.await 1 _)).bind fun w hw => ?_
  have houtcome : (Routine.gets fun s => s.index.loadOutcome? ticket : Work _).Secures C.footing
      fun outcome? => ∀ r, outcome? = some r →
        Except.Within (Fault.Expected C.cancels) (fun _ => True) r :=
    .gets fun s hs r => within_of_loadOutcome hs
  refine (Task.secures_work houtcome).bind fun outcome? houtcome => ?_
  refine (Task.secures_work (secures_change fun i => i.sameLoads_leaveLoad ticket)).bind
    fun _ _ => ?_
  split
  · exact Attempt.Secures.throw (Or.inr (Or.inr ⟨hw rfl, rfl⟩))
  · exact Attempt.Secures.throw (houtcome _ rfl)
  · exact Attempt.Secures.pure trivial

/-- To load the index has only expected faults. -/
theorem safe_load : Task.Safe C load fun _ => True := by
  refine (Task.secures_work (secures_enter sameLoads_requestLoad)).bind fun role _ => ?_
  cases role with
  | none => exact Attempt.Secures.pure trivial
  | join ticket => exact safe_awaitLoad ticket
  | begin ticket =>
    refine (Task.secures_work (.start (secures_runLoad ticket))).bind fun _ _ => ?_
    exact safe_awaitLoad ticket

lemma safe_writeSnapshot (path snapshot : String) :
    Task.Safe C (writeSnapshot path snapshot) fun _ => True := by
  refine Task.secures_handle_workspace ?_ (fun _ => Or.inl) fun w => ?_
  · refine (Workspace.secures_ensureDirectory path).bind fun _ _ => ?_
    refine (Work.secures_write path snapshot).bind fun _ _ => ?_
    refine (Task.secures_work (secures_gets _)).bind fun _ _ => ?_
    exact (Task.secures_log _).bind fun _ _ => Attempt.Secures.pure trivial
  · refine (Task.secures_work (secures_change (f := fun i => { i with dirty := true })
      fun _ => ⟨rfl, rfl⟩)).bind fun _ _ => ?_
    exact (Task.secures_log _).bind fun _ _ => Attempt.Secures.pure trivial

lemma safe_writeTaken (path : String) (snapshot? : Option String) :
    (match snapshot? with
      | none => pure (.ok false)
      | some snapshot => (writeSnapshot path snapshot).run : Work (Except Fault Bool)).Secures
        C.footing (Except.Within (Fault.Expected C.cancels) fun _ => True) := by
  cases snapshot? with
  | none => exact Routine.Secures.done trivial
  | some snapshot => exact safe_writeSnapshot path snapshot

/-- To save the index has only expected faults. -/
theorem safe_save : Task.Safe C save fun _ => True := by
  refine (Task.secures_work (secures_enter (f := enqueue) fun _ => ⟨rfl, rfl⟩)).bind
    fun ticket _ => ?_
  have hleave : (change fun i => i.dequeue ticket).Secures C.footing fun _ => True :=
    secures_change fun _ => ⟨rfl, rfl⟩
  refine (Task.secures_work (Routine.Secures.await 0 _)).bind fun w hw => ?_
  cases w with
  | cancelled =>
    refine (Task.secures_work hleave).bind fun _ _ => ?_
    exact Attempt.Secures.throw (Or.inr (Or.inr ⟨hw rfl, rfl⟩))
  | ready =>
    refine (Task.secures_work (secures_enter sameLoads_takeSnapshot)).bind fun snapshot? _ => ?_
    refine (Task.secures_work (secures_gets _)).bind fun path _ => ?_
    refine (Task.secures_work (safe_writeTaken path snapshot?)).bind fun written hwritten => ?_
    refine (Task.secures_work hleave).bind fun _ _ => ?_
    cases written with
    | ok b => exact Attempt.Secures.pure trivial
    | error f => exact Attempt.Secures.throw hwritten

end Index

/-! ## The cache -/

namespace Cache

/-- A request is admitted by a sound service: what it gets at once is as expected. -/
lemma sound_request (hs : s.Sound C) (key : PackageKey) :
    Service.Sound C { s with cache := (s.cache.request key).2 } ∧
      ∀ n, (s.cache.request key).1 = .hit n → LegibleFiles n.files := by
  unfold Cache.request
  split
  · next n hn =>
    refine ⟨⟨hs.settings, hs.index, hs.entries, hs.settled, hs.delivered, hs.loads⟩, ?_⟩
    rintro _ ⟨⟩
    exact hs.entries key n hn
  · split <;>
      exact ⟨⟨hs.settings, hs.index, hs.entries, hs.settled, hs.delivered, hs.loads⟩, nofun⟩

/-- A fetch ends in a sound service. -/
lemma sound_settle (hs : s.Sound C) (key : PackageKey) (ticket epoch : Nat) {r : Except Fault Node}
    (hr : Except.Within (Fault.Expected C.cancels) (fun n => LegibleFiles n.files) r) :
    Service.Sound C { s with cache := s.cache.settle key ticket epoch r } where
  settings := hs.settings
  index := hs.index
  entries key' n hn := by
    cases r with
    | error f => exact hs.entries key' n hn
    | ok n' =>
      by_cases he : epoch = s.cache.epoch
      · simp only [Cache.settle, he, if_true] at hn
        by_cases hk : key = key'
        · subst hk
          rw [Table.get?_insert_self] at hn
          obtain rfl := Option.some.inj hn
          exact hr
        · rw [Table.get?_insert_ne _ hk] at hn
          exact hs.entries key' n hn
      · simp only [Cache.settle, he, if_false] at hn
        exact hs.entries key' n hn
  settled ticket' r' hmem := by
    rcases List.mem_cons.mp hmem with heq | hmem
    · obtain ⟨rfl, rfl⟩ := Prod.mk.inj heq
      exact hr
    · exact hs.settled ticket' r' hmem
  delivered := hs.delivered
  loads := hs.loads

/-- One who has waited for a fetch gets what it has brought. -/
lemma safe_join (ticket : Nat) : Task.Safe C (join ticket) fun n => LegibleFiles n.files := by
  refine fun _ _ w s hw hs hu => ?_
  cases w with
  | cancelled => exact ⟨hs, Or.inr (Or.inr ⟨hw rfl, rfl⟩)⟩
  | ready =>
    refine ⟨hs, hs, ?_⟩
    obtain ⟨r, hr⟩ := Option.isSome_iff_exists.mp (hu rfl)
    obtain ⟨front, back, hl, -⟩ := List.lookup_eq_some_iff.mp hr
    show Except.Within _ _ (Option.getD _ _)
    rw [hr]
    exact hs.settled ticket r (hl ▸ List.mem_append_right _ List.mem_cons_self)

lemma safe_finish (key : PackageKey) (ticket epoch : Nat)
    {answer : Except Fault (Table String String)}
    (ha : Except.Within (Fault.Expected C.cancels) LegibleFiles answer) :
    Task.Safe C (finish key ticket epoch answer) fun n => LegibleFiles n.files := by
  have hr : Except.Within (Fault.Expected C.cancels) (fun n : Node => LegibleFiles n.files)
      (answer.map (Node.mk key)) := by
    cases answer with
    | ok files => exact ha
    | error f => exact ha
  refine Routine.Secures.bind (.modify fun s hs => sound_settle hs key ticket epoch hr) fun _ _ => ?_
  split
  · exact (Work.secures_log _).bind fun _ _ => .done hr
  · exact .done hr
  · exact (Work.secures_log _).bind fun _ _ => .done hr

lemma safe_getOrFetch (key : PackageKey) :
    Task.Safe C (getOrFetch key) fun n => LegibleFiles n.files := by
  have hrequest : (Routine.modifyGet fun s : Service =>
      ((s.cache.request key).1, { s with cache := (s.cache.request key).2 }) : Work Admission).Secures
        C.footing fun a => ∀ n, a = .hit n → LegibleFiles n.files :=
    .modifyGet fun s hs => sound_request hs key
  refine hrequest.bind fun a ha => ?_
  cases a with
  | hit n => exact .done (ha n rfl)
  | join ticket => exact safe_join ticket
  | fetch ticket epoch =>
    exact Routine.Secures.bind (Work.safe_files _ _) fun answer hanswer =>
      safe_finish key ticket epoch hanswer

lemma secures_deliver (key : PackageKey) (delivery : Nat) :
    (deliver key delivery).Secures C.footing fun _ => True := by
  refine Routine.Secures.bind (safe_getOrFetch key) fun r hr => .modify fun s hs => ?_
  refine ⟨hs.settings, hs.index, hs.entries, hs.settled, fun d r' hmem => ?_, hs.loads⟩
  rcases List.mem_cons.mp hmem with heq | hmem
  · obtain ⟨rfl, rfl⟩ := Prod.mk.inj heq
    exact hr
  · exact hs.delivered d r' hmem

lemma secures_startAll (keys : List PackageKey) :
    (startAll keys).Secures C.footing fun _ => True := by
  induction keys with
  | nil => exact .done trivial
  | cons key keys ih =>
    have hnumber : (Routine.modifyGet fun s : Service =>
        (s.deliveries, { s with deliveries := s.deliveries + 1 }) : Work Nat).Secures C.footing
          fun _ => True :=
      .modifyGet fun s hs =>
        ⟨⟨hs.settings, hs.index, hs.entries, hs.settled, hs.delivered, hs.loads⟩, trivial⟩
    refine hnumber.bind fun d _ => ?_
    refine Routine.Secures.bind (.start (secures_deliver key d)) fun _ _ => ?_
    exact ih.bind fun _ _ => .done trivial

/-- What has been delivered is as expected, when everything has been. -/
lemma within_mapM_of_delivered (hs : s.Sound C) {ds : List (PackageKey × Nat)}
    (hd : ∀ d ∈ ds, (s.delivered.lookup d).isSome = true) :
    Except.Within (Fault.Expected C.cancels) (fun nodes => ∀ n ∈ nodes, LegibleFiles n.files)
      ((ds.map fun d => (s.delivered.lookup d).getD (.error .cancelled)).mapM id) := by
  induction ds with
  | nil => exact fun n hn => nomatch hn
  | cons d ds ih =>
    obtain ⟨r, hr⟩ := Option.isSome_iff_exists.mp (hd d List.mem_cons_self)
    obtain ⟨front, back, hl, -⟩ := List.lookup_eq_some_iff.mp hr
    have hrd := hs.delivered d r (hl ▸ List.mem_append_right _ List.mem_cons_self)
    have hrest := ih fun d' hd' => hd d' (List.mem_cons_of_mem d hd')
    rw [List.map_cons, List.mapM_cons, hr]
    cases r with
    | error f => exact hrd
    | ok n =>
      cases hm : (ds.map fun d => (s.delivered.lookup d).getD (.error .cancelled)).mapM id with
      | error f =>
        rw [hm] at hrest
        simpa [bind, Except.bind, hm] using hrest
      | ok ns =>
        rw [hm] at hrest
        simp only [id, bind, Except.bind, pure, Except.pure, Option.getD_some]
        exact List.forall_mem_cons.mpr ⟨hrd, hrest⟩

lemma safe_gather (keys : List PackageKey) :
    Task.Safe C (gather keys) fun outcomes => Except.Within (Fault.Expected C.cancels)
      (fun nodes => ∀ n ∈ nodes, LegibleFiles n.files) (outcomes.mapM id) := by
  refine Routine.Secures.bind (secures_startAll _) fun ds _ => ?_
  refine fun _ _ w s hw hs hu => ?_
  cases w with
  | cancelled => exact ⟨hs, Or.inr (Or.inr ⟨hw rfl, rfl⟩)⟩
  | ready => exact ⟨hs, hs, within_mapM_of_delivered hs (List.all_eq_true.mp (hu rfl))⟩

/-- The packages that a build gets are as expected, and so are the faults. -/
theorem safe_fetchAll (keys : List PackageKey) :
    Task.Safe C (fetchAll keys) fun nodes => ∀ n ∈ nodes, LegibleFiles n.files := by
  unfold fetchAll
  split
  · exact Attempt.Secures.pure fun n hn => nomatch hn
  · exact (safe_gather _).bind fun outcomes h => Routine.Secures.done h

end Cache

end SourceBundle
