/-
# The plain work of the service

Reading the workspace, choosing versions and following imports is plain work: what it does hangs
only on the settings, on which requests are current, and on the answers that it gets, and it leaves
the service as it is but for the journal and the permit that it shows.
-/
import SourceBundle.Index.Persist
import SourceBundle.Proofs.Routine.Plain

namespace SourceBundle

/-- What of the service plain work goes by: the settings, and what decides which requests are
current. -/
structure Outlook where
  settings : Settings
  generations : Table String Nat
  epoch : Nat
  permit : Permit

/-- The outlook of a service. -/
def Service.outlook (s : Service) : Outlook := ⟨s.settings, s.generations, s.epoch, s.permit⟩

/-- Nothing has changed but the journal, and the permit if it was shown. -/
structure Noted (s t : Service) : Prop where
  permit : t.permit = s.permit ∨ t.permit = s.permit.show.2
  rest : t = { s with permit := t.permit, journal := t.journal }

/-- Whether a question is one to the workspace, or for the published versions of a package. -/
def Question.isPlain : Question → Bool
  | .files _ _ => false
  | .compile _ _ _ => false
  | _ => true

/-- Whether a question changes the workspace. -/
def Question.changes : Question → Bool
  | .write _ _ => true
  | .mkdir _ => true
  | _ => false

/-- The manner of plain work, which may change the workspace or not.  For some paths it is fatal to
be found: what is found there is read at once. -/
def plainly (busy : Bool) (D : String → Prop) :
    Manner Service Question Question.Answer Outlook where
  view := Service.outlook
  change := Noted
  question q := q.isPlain = true ∧ (q.changes = true → busy = true)
  fatal
    | .probe path, a => D path ∧ a = .ok true
    | _, _ => False
  settles q q' := ∃ path, q = .probe path ∧ q' = .read path

/-- The manner of work that may change the workspace, and may find anything. -/
abbrev busily : Manner Service Question Question.Answer Outlook := plainly true fun _ => False

lemma noted_refl (s : Service) : Noted s s := ⟨Or.inl rfl, rfl⟩

lemma noted_journal (s : Service) (j : List LogRecord) : Noted s { s with journal := j } :=
  ⟨Or.inl rfl, rfl⟩

variable {α β ρ : Type} {m : Manner Service Question Question.Answer β} {busy : Bool}
  {D : String → Prop}

/-! ## The ways to do a part of the work -/

namespace Task

lemma plain_work {x : Work α} (hx : x.Plain m fun _ => True) : Attempt.Plain m (Task.work x) :=
  Routine.Plain.bind hx fun _ _ => trivial

lemma plain_handle {x : Task α} {h : Fault → Option (Task α)} (hx : Attempt.Plain m x)
    (hh : ∀ f y, h f = some y → Attempt.Plain m y) : Attempt.Plain m (Task.handle x h) := by
  refine Attempt.Plain.tryCatch hx fun f => ?_
  cases hf : h f with
  | none => exact Attempt.Plain.throw f
  | some y => exact hh f y hf

/-- To answer failures of the workspace is plain work if the answers are. -/
lemma plain_handle_workspace {x : Task α} {k : WorkspaceFault → Task α}
    (hx : Attempt.Plain m x) (hk : ∀ f, Attempt.Plain m (k f)) :
    Attempt.Plain m (Task.handle x fun | .workspace f => some (k f) | _ => none) := by
  refine plain_handle hx fun f y hf => ?_
  split at hf
  · next f =>
    obtain rfl := Option.some.inj hf
    exact hk f
  · exact nomatch hf

end Task

namespace Stateful

variable {I : ρ → ρ → Prop} [IsPreorder ρ I]

lemma plain_work {x : Work α} (hx : x.Plain m fun _ => True) :
    Run.Plain m I (Stateful.work x : Stateful ρ α) :=
  fun t => Routine.Plain.bind hx fun _ _ => refl_of I t

lemma plain_task {x : Task α} (hx : Attempt.Plain m x) :
    Run.Plain m I (Stateful.task x : Stateful ρ α) :=
  Run.Plain.lift (refl_of I) hx

lemma plain_outcome (e : Except Fault α) :
    Run.Plain m I (Stateful.outcome e : Stateful ρ α) :=
  fun t => refl_of I t

lemma plain_handle {x : Stateful ρ α} {h : Fault → Option (Stateful ρ α)}
    (hx : Run.Plain m I x) (hh : ∀ f y, h f = some y → Run.Plain m I y) :
    Run.Plain m I (Stateful.handle x h) := by
  refine Run.Plain.tryCatch hx fun f => ?_
  cases hf : h f with
  | none => exact Run.Plain.throw f
  | some y => exact hh f y hf

end Stateful

/-! ## Single steps and questions -/

namespace Work

lemma plain_put {q : Question} (h : m.question q) (hf : ∀ a, ¬ m.fatal q a) :
    Attempt.Plain m (Work.put q) :=
  ⟨h, fun _ => trivial, fun a ha => absurd ha (hf a)⟩

lemma plain_read (path : String) : Attempt.Plain (plainly busy D) (Work.read path) :=
  plain_put ⟨rfl, nofun⟩ fun _ h => h

lemma plain_versions (name : String) : Attempt.Plain (plainly busy D) (Work.versions name) :=
  plain_put ⟨rfl, nofun⟩ fun _ h => h

lemma plain_write (path content : String) :
    Attempt.Plain (plainly true D) (Work.write path content) :=
  plain_put ⟨rfl, fun _ => rfl⟩ fun _ h => h

lemma plain_mkdir (path : String) : Attempt.Plain (plainly true D) (Work.mkdir path) :=
  plain_put ⟨rfl, fun _ => rfl⟩ fun _ h => h

/-- What is found under a path where it is fatal to be found has to be read at once. -/
lemma plain_probe_bind {path : String} {f : Bool → Task α}
    (hf : ∀ there, Attempt.Plain (plainly busy D) (f there))
    (ht : D path → (f true).run.Doomed (plainly busy D) (.probe path)) :
    Attempt.Plain (plainly busy D) (Work.probe path >>= f) := by
  refine ⟨⟨rfl, nofun⟩, fun a => ?_, ?_⟩
  · cases a with
    | ok there => exact hf there
    | error e => trivial
  · rintro _ ⟨hD, rfl⟩
    exact ht hD

lemma plain_probe (path : String) : Attempt.Plain (plainly busy fun _ => False) (Work.probe path) :=
  plain_put ⟨rfl, nofun⟩ fun _ h => h.1

lemma plain_log (r : LogRecord) : (Work.log r).Plain (plainly busy D) fun _ => True :=
  Routine.Plain.modify (fun s => noted_journal s _) fun _ _ h => h

lemma plain_logAll (rs : List LogRecord) : (Work.logAll rs).Plain (plainly busy D) fun _ => True := by
  induction rs with
  | nil => trivial
  | cons r rs ih => exact (plain_log r).bind fun _ _ => ih

lemma plain_settings : Work.settings.Plain (plainly busy D) fun _ => True :=
  Routine.Plain.gets noted_refl fun _ _ h => congrArg Outlook.settings h

lemma plain_contextIsCurrent (c : Context) :
    (Work.contextIsCurrent c).Plain (plainly busy D) fun _ => True := by
  unfold contextIsCurrent isCurrent
  split
  · trivial
  · refine Routine.Plain.modifyGet (fun s => ⟨Or.inr rfl, rfl⟩) fun s t h => ?_
    obtain ⟨hs, hg, he, hp⟩ := Outlook.mk.inj h
    exact ⟨by simp only [plainly, Service.outlook, hs, hg, he, hp], by rw [hp]⟩
  · refine Routine.Plain.gets noted_refl fun s t h => ?_
    obtain ⟨-, hg, he, -⟩ := Outlook.mk.inj h
    rw [hg, he]

end Work

/-! ## The workspace -/

namespace Workspace

lemma plain_readTwice (path : String) : Attempt.Plain (plainly busy D) (readTwice path) := by
  refine Task.plain_handle_workspace (Work.plain_read path) fun f => ?_
  exact (Task.plain_work (Work.plain_log _)).bind fun _ => Work.plain_read path

/-- To read a file settles that it was found. -/
lemma doomed_readTwice (path : String) :
    (readTwice path).run.Doomed (plainly busy D) (.probe path) := Or.inl ⟨path, rfl, rfl⟩

lemma plain_readOptional (path : String) : Attempt.Plain (plainly busy D) (readOptional path) := by
  refine Task.plain_handle_workspace (Work.plain_probe_bind (fun there => ?_) fun _ => ?_) fun f => ?_
  · split
    · exact (plain_readTwice path).bind fun _ => Attempt.Plain.pure _
    · exact Attempt.Plain.pure _
  · exact (doomed_readTwice path).bind _
  · exact Attempt.Plain.throw _

lemma plain_ensureDirectory (path : String) : Attempt.Plain busily (ensureDirectory path) := by
  unfold ensureDirectory
  split
  · exact Attempt.Plain.pure _
  · refine (Work.plain_probe _).bind fun b => ?_
    split
    · exact Work.plain_mkdir _
    · exact Attempt.Plain.pure _

end Workspace

/-- To read the records of the index is plain work; to enter them is not. -/
lemma Index.plain_readRecords (path : String) : Attempt.Plain (plainly busy D) (readRecords path) := by
  refine Task.plain_handle_workspace (Work.plain_probe_bind (fun there => ?_) fun _ => ?_) fun f => ?_
  · split
    · refine (Workspace.plain_readTwice path).bind fun content => ?_
      split
      · exact Attempt.Plain.pure _
      · exact Attempt.Plain.throw _
      · exact (Task.plain_work (Work.plain_log _)).bind fun _ => Attempt.Plain.pure _
    · exact Attempt.Plain.pure _
  · exact (Workspace.doomed_readTwice path).bind _
  · exact (Task.plain_work (Work.plain_log _)).bind fun _ => Attempt.Plain.pure _

end SourceBundle
