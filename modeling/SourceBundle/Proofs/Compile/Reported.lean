/-
# Compile requests report what fails

Among honest collaborators a compile request reports every failed resolution as a diagnostic: it returns
an outcome, unless it has used up the steps that it was given or is cancelled.  And when nobody else uses
the service, it does return.

Collaborators that fail only in their own ways are not enough for this.  What they hold must be such that
it can be dealt with, and a range with a hyphen may not be.
-/
import SourceBundle.Proofs.Bundle.Finish
import SourceBundle.Proofs.Bundle.Sound
import SourceBundle.Proofs.Service.Play

namespace SourceBundle.Compile

open Crowd

variable {C : Surroundings} {φ : Index → Prop}

/-- The task assures a property of its result, and reports all faults but those that end a request. -/
abbrev Reports {α : Type} (C : Surroundings) (x : Task α) (post : α → Prop) : Prop :=
  Attempt.Secures C.footing (Fault.Final C.cancels) x post

/-! ## The compiler -/

lemma secures_dropped (c : Context) : (dropped c).Secures C.footing fun _ => True :=
  (Work.secures_log _).bind fun _ _ => .done trivial

lemma secures_failed (c : Context) (f : Fault) : (failed c f).Secures C.footing fun _ => True := by
  refine (Bundle.secures_contextIsCurrent c).bind fun current _ => ?_
  cases current with
  | true => exact (Work.secures_log _).bind fun _ _ => .done trivial
  | false => exact secures_dropped c

lemma secures_concluded (sources : Bundle) (c : Context) (v : Verdict) :
    (concluded sources c v).Secures C.footing fun _ => True := by
  refine (Bundle.secures_contextIsCurrent c).bind fun current _ => ?_
  cases current with
  | true => exact .done trivial
  | false => exact secures_dropped c

lemma reports_forward (sources : Bundle) (c : Context) :
    Reports C (forward sources c) fun _ => True := by
  have hcompile : Attempt.Secures C.footing (fun _ => False) (Work.compile sources c.target c)
      fun _ => True := .put fun _ ha => ha
  refine (hcompile.widen fun _ => False.elim).bind fun v _ => ?_
  exact Task.secures_work (secures_concluded sources c v)

lemma reports_writeSnapshot (target : String) (bundle : Bundle) :
    Reports C (writeSnapshot target bundle) fun _ => True := by
  have hsettings : Work.settings.Secures C.footing fun _ => True := .gets fun _ _ => trivial
  refine (Task.secures_work hsettings).bind fun s _ => ?_
  refine Task.secures_handle_workspace ?_ (fun _ => Or.inl) fun w => Task.secures_log _
  exact (Workspace.secures_ensureDirectory _).bind fun _ _ => Work.secures_write _ _

lemma reports_compileBundle (bundle : Bundle) (c : Context) :
    Reports C (compileBundle bundle c) fun _ => True := by
  have hsettings : Work.settings.Secures C.footing fun _ => True := .gets fun _ _ => trivial
  refine (Task.secures_log _).bind fun _ _ => (Task.secures_work hsettings).bind fun s _ => ?_
  split
  · exact (reports_writeSnapshot c.target bundle).bind fun _ _ => reports_forward bundle c
  · exact reports_forward bundle c

/-- A resolution with expected faults is concluded: those that are reported become a diagnostic. -/
lemma reports_afterResolution {result : Except Fault Bundle} (c : Context)
    (h : Except.Within (Fault.Expected C.cancels) (fun _ => True) result) :
    Reports C (afterResolution result c) fun _ => True := by
  cases result with
  | error f =>
    unfold afterResolution
    dsimp only
    split
    · exact Task.secures_work (secures_failed c f)
    · next hf => exact Attempt.Secures.throw (h.resolve_left hf)
  | ok bundle =>
    refine (Task.secures_work (Bundle.secures_contextIsCurrent c)).bind fun current _ => ?_
    cases current with
    | true => exact reports_compileBundle bundle c
    | false => exact Task.secures_work (secures_dropped c)

/-! ## Requests -/

lemma safe_entryContent (given? : Option String) (target : String) :
    Task.Safe C (entryContent given? target) fun _ => True := by
  cases given? with
  | some content => exact Attempt.Secures.pure trivial
  | none => exact (Workspace.safe_readTwice target).imp fun _ _ => trivial

lemma secures_resolve (budget : Nat) (given? : Option String) {c : Context}
    (hc : ∀ key deps, c.parents.get? key = some deps → Manifest.AllReadable deps) :
    (resolve budget given? c).Secures C.footing fun p =>
      Except.Within (Fault.Expected C.cancels) (fun _ => True) p.1 := by
  refine Routine.Secures.bind (safe_entryContent given? c.target) fun r hr => ?_
  cases r with
  | error f => exact .done hr
  | ok content =>
    refine Routine.Secures.bind (Index.secures_gets _) fun b _ => ?_
    exact Bundle.secures_build b budget c.target content hc

lemma reports_compileRun (budget : Nat) (sources : Bundle) (target : String) {c : Context}
    (hc : ∀ key deps, c.parents.get? key = some deps → Manifest.AllReadable deps) :
    Reports C (compileRun budget sources target c) fun _ => True := by
  unfold compileRun
  split
  · exact (Task.secures_work (secures_resolve budget _ hc)).bind fun p hp => reports_afterResolution p.2 hp
  · exact (Task.secures_log _).bind fun _ _ => reports_forward sources c

lemma reports_compile (budget : Nat) (sources : Bundle) (target : String) :
    Reports C (compile budget sources target) fun _ => True := by
  have hbegin : (Routine.modifyGet (beginRun target) : Work Context).Secures C.footing
      fun c => c.parents = ∅ := .modifyGet fun s hs =>
    ⟨⟨hs.settings, hs.index, hs.entries, hs.settled, hs.delivered, hs.loads⟩, rfl⟩
  refine (Task.secures_work hbegin).bind fun c hc => reports_compileRun budget sources target ?_
  intro key deps hget
  rw [hc] at hget
  cases hget

lemma secures_workspaceChanged : workspaceChanged.run.Secures C.footing fun _ => True := by
  have hswitch : (Routine.modify switchWorkspace : Work Unit).Secures C.footing fun _ => True :=
    .modify fun s hs => ⟨hs.settings, hs.index, nofun, hs.settled, hs.delivered, hs.loads⟩
  have hforget : (Index.change Index.forget).Secures C.footing fun _ => True :=
    Index.secures_change fun _ => ⟨rfl, rfl⟩
  have hreload : Task.Safe C Index.reload fun _ => True :=
    (Task.secures_work hforget).bind fun _ _ => Index.safe_load
  have hall : Task.Safe C workspaceChanged fun _ => True :=
    (Task.secures_work hswitch).bind fun _ _ => hreload.bind fun _ _ => Task.secures_log _
  exact Routine.Secures.imp hall fun _ _ => trivial

lemma secures_navigate (file? : Option String) (literal : String) :
    (navigate file? literal).run.Secures C.footing fun _ => True := by
  have hall : Task.Safe C (navigate file? literal) fun _ => True := by
    refine Index.safe_load.bind fun _ _ => (Task.secures_work (Index.secures_gets _)).bind fun i _ => ?_
    split <;> exact Attempt.Secures.pure trivial
  exact Routine.Secures.imp hall fun _ _ => trivial

/-- A compile request that has returned has reported what failed. -/
def Reply.Reported (cancels : Prop) : Reply → Prop
  | .compiled r => Except.Within (Fault.Final cancels) (fun _ => True) r
  | _ => True

lemma secures_request (budget : Nat) (r : Request) :
    (work budget r).Secures C.footing (Reply.Reported C.cancels) := by
  cases r with
  | compile sources target =>
    exact Routine.Secures.bind (reports_compile budget sources target) fun _ hr => .done hr
  | switch => exact secures_workspaceChanged.bind fun _ _ => .done trivial
  | navigate file? literal => exact (secures_navigate file? literal).bind fun _ _ => .done trivial

/-! ## Requests come to an end -/

lemma finishes_dropped (c : Context) : (dropped c).Finishes φ φ :=
  (Bundle.finishes_log _).bind fun _ => .done _

lemma finishes_failed (c : Context) (f : Fault) : (failed c f).Finishes φ φ := by
  refine (Bundle.finishes_contextIsCurrent c).bind fun current => ?_
  cases current with
  | true => exact (Bundle.finishes_log _).bind fun _ => .done _
  | false => exact finishes_dropped c

lemma finishes_concluded (sources : Bundle) (c : Context) (v : Verdict) :
    (concluded sources c v).Finishes φ φ := by
  refine (Bundle.finishes_contextIsCurrent c).bind fun current => ?_
  cases current with
  | true => exact .done _
  | false => exact finishes_dropped c

lemma finishes_forward (sources : Bundle) (c : Context) : Task.Finishes φ (forward sources c) φ :=
  Task.Finishes.bind (Routine.Finishes.put _) fun v => Task.Finishes.work (finishes_concluded sources c v)

lemma finishes_writeSnapshot (target : String) (bundle : Bundle) :
    Task.Finishes φ (writeSnapshot target bundle) φ := by
  refine Task.Finishes.work_bind (Routine.Finishes.gets _) fun s => ?_
  refine Task.Finishes.handle_workspace ?_ fun w => Task.Finishes.work (Bundle.finishes_log _)
  refine (Task.Finishes.of_plain (Workspace.plain_ensureDirectory _)).bind fun _ => ?_
  exact Routine.Finishes.put _

lemma finishes_compileBundle (bundle : Bundle) (c : Context) :
    Task.Finishes φ (compileBundle bundle c) φ := by
  refine Task.Finishes.work_bind (Bundle.finishes_log _) fun _ => ?_
  refine Task.Finishes.work_bind (Routine.Finishes.gets _) fun s => ?_
  split
  · exact (finishes_writeSnapshot c.target bundle).bind fun _ => finishes_forward bundle c
  · exact finishes_forward bundle c

lemma finishes_afterResolution (result : Except Fault Bundle) (c : Context) :
    Task.Finishes φ (afterResolution result c) φ := by
  cases result with
  | error f =>
    unfold afterResolution
    dsimp only
    split
    · exact Task.Finishes.work (finishes_failed c f)
    · exact Task.Finishes.throw f
  | ok bundle =>
    refine Task.Finishes.work_bind (Bundle.finishes_contextIsCurrent c) fun current => ?_
    cases current with
    | true => exact finishes_compileBundle bundle c
    | false => exact Task.Finishes.work (finishes_dropped c)

lemma finishes_resolve (budget : Nat) (given? : Option String) (c : Context) :
    (resolve budget given? c).Finishes Index.AtRest Index.AtRest := by
  have hcontent : Task.Finishes Index.AtRest (entryContent given? c.target) Index.AtRest := by
    cases given? with
    | some content => exact Task.Finishes.pure _
    | none => exact Task.Finishes.of_plain (Workspace.plain_readTwice _)
  refine Routine.Finishes.bind hcontent fun r => ?_
  cases r with
  | error f => exact .done _
  | ok content =>
    exact (Routine.Finishes.gets _).bind fun b => Bundle.finishes_build b budget c.target content c

lemma finishes_compile (budget : Nat) (sources : Bundle) (target : String) :
    Task.Finishes Index.AtRest (compile budget sources target) Index.AtRest := by
  have hbegin : (Routine.modifyGet (beginRun target) : Work Context).Finishes Index.AtRest
      Index.AtRest :=
    .step (fun _ => ⟨rfl, rfl, rfl⟩) (fun _ h => h) fun _ _ => .done _
  refine Task.Finishes.work_bind hbegin fun c => ?_
  unfold compileRun
  split
  · refine Task.Finishes.work_bind (finishes_resolve budget _ c) fun p => ?_
    exact finishes_afterResolution p.1 p.2
  · exact Task.Finishes.work_bind (Bundle.finishes_log _) fun _ => finishes_forward sources c

/-- A registry with one package, and a workspace whose manifest asks for it with a range. -/
def rangedWorld (range : String) : Scenario.World where
  service := { settings := { materialize := false }, index := { path := "index.json" } }
  store := .memory (.ofFiles [("package.json", "\x7b\"dependencies\": \x7b\"p\": \"" ++ range ++ "\"\x7d\x7d")])
  catalog := Table.empty.insert "p" (Table.empty.insert "1.0.0" (Table.empty.insert "x.sol" ""))
  failures := []
  cues := []
  builder := ⟨0, none, true⟩
  budget := 8

/-- A request to compile a source that imports this package. -/
def rangedRequest : Request := .compile (Table.empty.insert "a.sol" "import \"p/x.sol\";") "a.sol"

/-- The request, played with some turns. -/
def rangedPlay (range : String) (turns : List Nat) :
    Option (Crowd Service Question Question.Answer Request Reply) :=
  Crowd.play (rangedWorld range) turns
    (Crowd.call (work (rangedWorld range).budget) { state := (rangedWorld range).service } rangedRequest)

/-- What this service runs in, when nobody is cancelled. -/
def rangedSurroundings : Surroundings :=
  { settings := { materialize := false }, index := "index.json", cancels := False }

/-- What has been returned last, if it is the result of a compile request. -/
def lastResult? : List Happening → Option (Except Fault Outcome)
  | .returned _ (.compiled r) :: _ => some r
  | _ => none

/-- The fault that has been returned last, if a compile request has failed with it. -/
def lastFault? (h : List Happening) : Option Fault :=
  (lastResult? h).bind fun
    | .ok _ => none
    | .error f => some f

lemma returned_of_lastResult {h : List Happening} {r : Except Fault Outcome}
    (hr : lastResult? h = some r) : ∃ id, .returned id (.compiled r) ∈ h := by
  unfold lastResult? at hr
  split at hr
  · obtain rfl := Option.some.inj hr
    exact ⟨_, List.mem_cons_self⟩
  · exact nomatch hr

lemma returned_of_lastFault {h : List Happening} {f : Fault} (hf : lastFault? h = some f) :
    ∃ id, .returned id (.compiled (.error f)) ∈ h := by
  obtain ⟨r, hr, hrf⟩ := Option.bind_eq_some_iff.mp hf
  cases r with
  | ok o => exact nomatch hrf
  | error g =>
    obtain rfl := Option.some.inj hrf
    exact returned_of_lastResult hr

/-- Whether a collaborator that fails only in its own way may answer a question with a fault. -/
def mayFail : Question → Fault → Bool
  | .probe _, .workspace _ | .read _, .workspace _ | .write _ _, .workspace _
  | .mkdir _, .workspace _ => true
  | .versions _, .registry _ | .files _ _, .registry _ => true
  | _, _ => false

/-- Whether a happening is not a fault with which a collaborator may not answer. -/
def isOrdinary : Happening → Bool
  | .answered _ q (.error f) => mayFail q f
  | _ => true

end SourceBundle.Compile
