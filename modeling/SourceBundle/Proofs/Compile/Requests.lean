/-
# Requests and their account

The requests to the service, each with its routine, and the account that they keep: in every state
the generation of a target is the number of compile requests for it that have begun, and the epoch
counts the switches of the workspace.
-/
import SourceBundle.Compile.Request
import SourceBundle.Proofs.Bundle.SameRun
import SourceBundle.Proofs.Routine.Crowd

namespace SourceBundle

/-- The law of requests: like that of the work below them, but they may ask the compiler. -/
def loud (S : Service → Prop) : Law Service Question Question.Answer :=
  { quiet S with question := fun _ => True }

variable {S : Service → Prop} {α : Type}

lemma loud_of_quiet {x : Work α} (hx : x.Lawful (quiet S)) : x.Lawful (loud S) :=
  hx.relax (fun _ h => h) (fun _ _ h => h) (fun _ _ h => h) (fun _ _ => trivial) fun _ h => h

namespace Compile

/-! ## Compile requests are lawful -/

lemma lawful_dropped (c : Context) : (dropped c).Lawful (quiet S) :=
  (Work.lawful_log _).bind fun _ => trivial

lemma lawful_failed (c : Context) (f : Fault) : (failed c f).Lawful (quiet S) := by
  refine (Work.lawful_contextIsCurrent c).bind fun current => ?_
  cases current
  · exact lawful_dropped c
  · exact (Work.lawful_log _).bind fun _ => trivial

lemma lawful_writeSnapshot (target : String) (bundle : Bundle) :
    Attempt.Lawful (quiet S) (writeSnapshot target bundle) := by
  refine (Task.lawful_work Work.lawful_settings).bind fun s => ?_
  refine Task.lawful_handle_workspace ?_ fun f => Task.lawful_work (Work.lawful_log _)
  exact (Workspace.plain_ensureDirectory _).lawful.bind fun _ => Work.lawful_put rfl

lemma lawful_concluded (sources : Bundle) (c : Context) (v : Verdict) :
    (concluded sources c v).Lawful (quiet S) := by
  refine (Work.lawful_contextIsCurrent c).bind fun current => ?_
  cases current
  · exact lawful_dropped c
  · trivial

lemma lawful_forward (sources : Bundle) (c : Context) :
    Attempt.Lawful (loud S) (forward sources c) :=
  Attempt.Lawful.bind ⟨trivial, fun _ _ => trivial⟩ fun v =>
    loud_of_quiet (Task.lawful_work (lawful_concluded sources c v))

lemma lawful_entryContent (given? : Option String) (target : String) :
    Attempt.Lawful (quiet S) (entryContent given? target) := by
  cases given? with
  | none => exact (Workspace.plain_readTwice target).lawful
  | some content => exact Attempt.Lawful.pure content

lemma obeys_resolve (budget : Nat) (given? : Option String) (c : Context) :
    (resolve budget given? c).Obeys (quiet S) fun p => c.SameRun p.2 := by
  refine Routine.Obeys.bind (lawful_entryContent given? c.target) fun r _ => ?_
  cases r with
  | error f => exact refl_of Context.SameRun c
  | ok content => exact Routine.Obeys.bind (lawful_gets _) fun b _ => Bundle.obeys_build b _ _ _ c

lemma lawful_compileBundle (bundle : Bundle) (c : Context) :
    Attempt.Lawful (loud S) (compileBundle bundle c) := by
  refine Attempt.Lawful.bind (loud_of_quiet (Task.lawful_work (Work.lawful_log _))) fun _ => ?_
  refine Attempt.Lawful.bind (loud_of_quiet (Task.lawful_work Work.lawful_settings)) fun s => ?_
  split
  · refine Attempt.Lawful.bind (loud_of_quiet (lawful_writeSnapshot _ _)) fun _ => ?_
    exact lawful_forward bundle c
  · exact lawful_forward bundle c

lemma lawful_afterResolution (result : Except Fault Bundle) (c : Context) :
    Attempt.Lawful (loud S) (afterResolution result c) := by
  cases result with
  | error f =>
    unfold afterResolution
    dsimp only
    split
    · exact loud_of_quiet (Task.lawful_work (lawful_failed c f))
    · exact Attempt.Lawful.throw f
  | ok bundle =>
    refine Attempt.Lawful.bind
      (loud_of_quiet (Task.lawful_work (Work.lawful_contextIsCurrent c))) fun current => ?_
    cases current
    · exact loud_of_quiet (Task.lawful_work (lawful_dropped c))
    · exact lawful_compileBundle bundle c

lemma lawful_compileRun (budget : Nat) (sources : Bundle) (target : String) (c : Context) :
    Attempt.Lawful (loud S) (compileRun budget sources target c) := by
  unfold compileRun
  split
  · refine Attempt.Lawful.bind (loud_of_quiet (Task.lawful_work
      (Routine.Lawful.of_obeys (obeys_resolve budget _ c)))) fun p => ?_
    exact lawful_afterResolution p.1 p.2
  · refine Attempt.Lawful.bind (loud_of_quiet (Task.lawful_work (Work.lawful_log _))) fun _ => ?_
    exact lawful_forward sources c

/-! ## Requests -/

/-- A request to the service. -/
inductive Request
  /-- To compile a target with some sources. -/
  | compile (sources : Bundle) (target : String)
  /-- To go on with another workspace. -/
  | switch
  /-- To find the file that an import resolved to. -/
  | navigate (file? : Option String) (literal : String)

/-- What a request returns. -/
inductive Reply
  /-- The outcome of a compile request. -/
  | compiled (r : Except Fault Outcome)
  /-- The end of a switch. -/
  | switched (r : Except Fault Unit)
  /-- The file that was found. -/
  | navigated (r : Except Fault (Option String))

/-- The work on a request. -/
def work (budget : Nat) : Request → Work Reply
  | .compile sources target => do
    let r ← (compile budget sources target).run
    pure (.compiled r)
  | .switch => do
    let r ← workspaceChanged.run
    pure (.switched r)
  | .navigate file? literal => do
    let r ← (navigate file? literal).run
    pure (.navigated r)

/-- What happens to the service. -/
abbrev Happening := Event Question Question.Answer Request Reply

/-- Whether a request is one to compile a target. -/
def Request.compiles (target : String) : Request → Bool
  | .compile _ target' => target' == target
  | _ => false

/-- Whether a request switches the workspace. -/
def Request.switches : Request → Bool
  | .switch => true
  | _ => false

/-- Whether a request of some kind begins. -/
def begins (kind : Request → Bool) : Happening → Bool
  | .begun _ r => kind r
  | _ => false

/-- The number of compile requests for a target that have begun. -/
def runsOf (target : String) (h : List Happening) : Nat := h.countP (begins (Request.compiles target))

/-- The number of switches that have begun. -/
def switchesIn (h : List Happening) : Nat := h.countP (begins Request.switches)

/-- A number of which nothing is kept when it is zero. -/
def kept? : Nat → Option Nat
  | 0 => none
  | n + 1 => some (n + 1)

/-- The service is in accord with what has happened since a given state. -/
structure Accord (s₀ : Service) (h : List Happening) (s : Service) : Prop where
  settings : s.settings = s₀.settings
  epoch : s.epoch = s₀.epoch + switchesIn h
  generations : ∀ target, s.generations.get? target = kept? (runsOf target h)

/-- Nothing changes the settings. -/
def SameSettings (s t : Service) : Prop := t.settings = s.settings

instance : IsPreorder Service SameSettings where
  refl _ := rfl
  trans _ _ _ h h' := Eq.trans h' h

lemma kept?_getD (n : Nat) : (kept? n).getD 0 = n := by
  cases n <;> rfl

lemma kept?_eq_some {n m : Nat} : kept? n = some (m + 1) ↔ n = m + 1 := by
  cases n <;> simp [kept?]

variable {s₀ s t : Service} {h : List Happening}

lemma accord_start (hnew : s₀.generations = ∅) : Accord s₀ [] s₀ where
  settings := rfl
  epoch := rfl
  generations target := by rw [hnew]; rfl

lemma Accord.of_kept (ha : Accord s₀ h s) (hk : Kept s t) : Accord s₀ h t where
  settings := hk.settings.trans ha.settings
  epoch := hk.epoch.trans ha.epoch
  generations target := by rw [hk.generations, ha.generations]

lemma Accord.note (ha : Accord s₀ h s) {e : Happening} (he : ∀ id r, e ≠ .begun id r) :
    Accord s₀ (e :: h) s := by
  have hb : ∀ kind, begins kind e = false := fun kind => by
    cases e with
    | begun id r => exact absurd rfl (he id r)
    | _ => rfl
  refine ⟨ha.settings, ?_, fun target => ?_⟩
  · rw [ha.epoch, switchesIn, switchesIn, List.countP_cons_of_neg (by simp [hb])]
  · rw [ha.generations, runsOf, runsOf, List.countP_cons_of_neg (by simp [hb])]

lemma Accord.compile (ha : Accord s₀ h s) (id : Nat) (sources : Bundle) (target : String) :
    Accord s₀ (.begun id (.compile sources target) :: h) (beginRun target s).2 where
  settings := ha.settings
  epoch := ha.epoch
  generations target' := by
    by_cases ht : target = target'
    · subst ht
      have hn : runsOf target (.begun id (.compile sources target) :: h) = runsOf target h + 1 :=
        List.countP_cons_of_pos (by simp [begins, Request.compiles])
      rw [hn, beginRun, Table.get?_insert_self, ha.generations, kept?_getD]
      rfl
    · have hn : runsOf target' (.begun id (.compile sources target) :: h) = runsOf target' h :=
        List.countP_cons_of_neg (by simp [begins, Request.compiles, ht])
      rw [hn, beginRun, Table.get?_insert_ne _ ht, ha.generations]

lemma Accord.switch (ha : Accord s₀ h s) (id : Nat) :
    Accord s₀ (.begun id .switch :: h) (switchWorkspace s) where
  settings := ha.settings
  epoch := by
    have hn : switchesIn (.begun id .switch :: h) = switchesIn h + 1 := List.countP_cons_of_pos rfl
    show s.epoch + 1 = _
    rw [hn, ha.epoch, Nat.add_assoc]
  generations target := ha.generations target

lemma Accord.navigate (ha : Accord s₀ h s) (id : Nat) (file? : Option String) (literal : String) :
    Accord s₀ (.begun id (.navigate file? literal) :: h) s :=
  ⟨ha.settings, ha.epoch, ha.generations⟩

lemma lawful_navigate (file? : Option String) (literal : String) :
    Attempt.Lawful (quiet S) (navigate file? literal) := by
  refine Index.lawful_load.bind fun _ => (Task.lawful_work (lawful_gets _)).bind fun i => ?_
  split
  · exact Attempt.Lawful.pure _
  · exact Attempt.Lawful.pure _

/-- A switch goes on quietly once it has begun. -/
lemma lawful_afterSwitch : Attempt.Lawful (quiet S) (do
    Index.reload
    Task.work (Work.log .workspaceChanged)) :=
  Index.lawful_reload.bind fun _ => Task.lawful_work (Work.lawful_log _)

/-- Requests keep the service in accord with what has happened. -/
theorem accounts (budget : Nat) (s₀ : Service) :
    Crowd.Accounts (work budget) (loud fun s => s.settings = s₀.settings) SameSettings
      (Accord s₀) where
  begins r := by
    cases r with
    | compile sources target =>
      refine ⟨_, _, rfl, fun id h s ha => ⟨ha.compile id sources target, rfl, ?_⟩⟩
      exact Routine.Lawful.bind (lawful_compileRun budget sources target _) fun _ => trivial
    | switch =>
      -- the first step of a switch is the only one that does more than the law allows
      refine ⟨_, _, rfl, fun id h s ha => ⟨ha.switch id, rfl, ?_⟩⟩
      exact Routine.Lawful.bind (loud_of_quiet lawful_afterSwitch) fun _ => trivial
    | navigate file? literal =>
      -- nothing is counted here, so the first step is treated like any other
      refine ⟨_, _, rfl, fun id h s ha => ?_⟩
      have hlawful : (work budget (.navigate file? literal)).Lawful
          (loud fun s => s.settings = s₀.settings) :=
        Routine.Lawful.bind (loud_of_quiet (lawful_navigate file? literal)) fun _ => trivial
      obtain ⟨hkept, hnext⟩ := hlawful s ha.settings
      exact ⟨(ha.navigate id file? literal).of_kept hkept, hkept.settings, hnext⟩
  changes h s t ha hk := ⟨ha.of_kept hk, hk.settings⟩
  notes e h s he ha := ha.note he
  finds h s ha := ha.settings
  hears _ _ := trivial

end Compile

end SourceBundle
