/-
# The newest request wins

Among the requests that run beside each other in any order, an outcome is marked as superseded
exactly when a newer request for its target, or a switch of the workspace, has begun before it
returns.
-/
import SourceBundle.Proofs.Compile.Outcomes

namespace SourceBundle.Compile

variable {budget : Nat} {s₀ s v : Service} {w : Crowd Service Question Question.Answer Request Reply}
  {sources : Bundle} {target : String} {id : Nat} {h mid earlier : List Happening} {o : Outcome}
  {T : Terms Service Question Question.Answer}

/-- A happening ends the runs for a target that are under way: a compile request for it begins, or a
switch of the workspace. -/
def Supersedes (target : String) : Happening → Prop
  | .begun _ (.compile _ target') => target' = target
  | .begun _ .switch => True
  | _ => False

lemma supersedes_iff {e : Happening} :
    Supersedes target e ↔ begins (Request.compiles target) e = true ∨
      begins Request.switches e = true := by
  rcases e with ⟨_, r⟩ | _ | _ | _
  · cases r <;> simp [Supersedes, begins, Request.compiles, Request.switches]
  all_goals simp [Supersedes, begins]

/-- Nothing ends the runs for a target in a part of a history in which neither a compile request for
it nor a switch begins. -/
lemma exists_supersedes_iff :
    (∃ e ∈ mid, Supersedes target e) ↔ ¬ (runsOf target mid = 0 ∧ switchesIn mid = 0) := by
  simp only [runsOf, switchesIn, List.countP_eq_zero, supersedes_iff]
  grind

/-- A run is current as long as nothing that ends it has begun since it began. -/
theorem currentIn_iff (hv : Accord s₀ earlier v)
    (hs : Accord s₀ (mid ++ .begun id (.compile sources target) :: earlier) s) :
    (beginRun target v).1.CurrentIn s ↔ ¬ ∃ e ∈ mid, Supersedes target e := by
  have hruns : runsOf target (mid ++ .begun id (.compile sources target) :: earlier) =
      runsOf target mid + (runsOf target earlier + 1) := by
    simp [runsOf, List.countP_append, begins, Request.compiles]
  have hswitches : switchesIn (mid ++ .begun id (.compile sources target) :: earlier) =
      switchesIn mid + switchesIn earlier := by
    simp [switchesIn, List.countP_append, begins, Request.switches]
  have hnumber : (beginRun target v).1.standing =
      .generation (runsOf target earlier + 1) v.epoch := by
    rw [beginRun, hv.generations, kept?_getD]
  have htarget : (beginRun target v).1.target = target := rfl
  -- the counts over the whole history are those before the run, the run, and those after it
  rw [exists_supersedes_iff, not_not, Context.CurrentIn, hnumber, htarget]
  simp only [hs.generations, hs.epoch, hv.epoch, hruns, hswitches, kept?_eq_some]
  omega

/-- The number that a run gets. -/
lemma generation_beginRun (hv : Accord s₀ earlier v) :
    (beginRun target v).1.generation = ((runsOf target earlier + 1 : Nat) : Int) := by
  rw [beginRun, hv.generations, kept?_getD]

/-- Whatever requests run beside each other, in any order: the generations of a target count the
compile requests for it, and every outcome says whether it has been superseded when it returns, in
which case it says nothing else. -/
theorem superseded_iff_newer (hnew : s₀.generations = ∅)
    (hr : Crowd.Reachable (work budget) s₀ w) :
    (∀ target, w.state.generations.get? target = kept? (runsOf target w.history)) ∧
      ∀ later id o before, w.history = later ++ .returned id (.compiled (.ok o)) :: before →
        ∃ sources target mid earlier,
          before = mid ++ .begun id (.compile sources target) :: earlier ∧
          (∀ r, .begun id r ∉ mid ++ earlier) ∧
          (o.superseded = true ↔ ∃ e ∈ mid, Supersedes target e) ∧
          (o.superseded = true →
            o.success = false ∧ o.bundle? = none ∧ o.result? = none ∧ o.diagnostics = []) ∧
          o.generation = ((runsOf target earlier + 1 : Nat) : Int) := by
  have hinv := hr.inv (accounts budget s₀) (accord_start hnew)
  refine ⟨hinv.account.generations, fun later id o before hh => ?_⟩
  have htold := hinv.told
  rw [hh] at htold
  obtain ⟨r, mid, earlier, v, s, rfl, hv, hs, hends⟩ := htold.sound
  obtain ⟨sources, target, rfl, hfits⟩ := fits_of_work hends
  refine ⟨sources, target, mid, earlier, rfl, ?_, ?_, hfits.empty, ?_⟩
  · exact htold.of_append.2.begun_once
  · rw [hfits.superseded, currentIn_iff hv hs, not_not]
  · rw [hfits.generation, generation_beginRun hv]

/-! ## A request that is overtaken -/

/-- A service that has just begun. -/
def newService : Service := { settings := {}, index := { path := "" } }

/-- How a request for a target without imports goes on when the compiler has answered. -/
def afterVerdict (sources : Bundle) (c : Context) (v : Except Fault Verdict) : Work Reply :=
  ((match v with
    | .ok v => (concluded sources c v).bind fun o => .done (.ok o)
    | .error f => .done (.error f)) : Work (Except Fault Outcome)).bind fun r =>
      .done (.compiled r)

lemma work_compile_plain (hg : Import.hasGrammar target = false) :
    work budget (.compile sources target) =
      .step (fun s => (beginRun target s).2) fun s =>
        .step (fun s => { s with journal := .resolutionSkipped target :: s.journal }) fun _ =>
          .ask (.compile sources target (beginRun target s).1)
            (afterVerdict sources (beginRun target s).1) := by
  have hrun : ∀ c, compileRun budget sources target c = (do
      Task.work (Work.log (.resolutionSkipped target))
      forward sources c) := fun c => if_neg (by simp [hg])
  simp only [work, compile, hrun]
  show Routine.step _ _ = _
  congr 1
  funext s
  show Routine.step _ _ = _
  congr 1
  funext _
  show Routine.ask _ _ = _
  congr 1
  funext v
  cases v <;> rfl

/-- Current or not, such a request returns an outcome when the compiler has given a verdict. -/
lemma run_afterVerdict (v : Verdict) (id : Nat)
    (w : Crowd Service Question Question.Answer Request Reply) :
    ∃ o, (Crowd.run id some (afterVerdict sources (beginRun target s).1 (.ok v)) w).history =
      .returned id (.compiled (.ok o)) :: w.history := by
  let c := (beginRun target s).1
  let current := w.state.epoch == s.epoch &&
    w.state.generations.get? target == some ((s.generations.get? target).getD 0 + 1)
  show ∃ o, (Crowd.run id some
    (((if current = true then (pure (reported sources c v) : Work Outcome) else dropped c).bind
      fun o => .done (.ok o) : Work (Except Fault Outcome)).bind
        fun r => .done (.compiled r)) w).history = _
  cases current with
  | false => exact ⟨_, rfl⟩
  | true => exact ⟨_, rfl⟩

/-- The workspace is switched while the compiler is at work. -/
theorem superseded_iff_newer_switch :
    newService.generations = ∅ ∧
      ∃ (w : Crowd Service Question Question.Answer Request Reply) (o : Outcome)
        (before : List Happening), Crowd.Reachable (work 0) newService w ∧
          w.history = .returned 0 (.compiled (.ok o)) :: before ∧ o.superseded = true := by
  let c := (beginRun "a.yul" newService).1
  let verdict : Question.Answer (.compile ∅ "a.yul" c) := .ok (.result ⟨true, [], []⟩)
  obtain ⟨w₁, hr₁, hn₁, hp₁, hh₁⟩ :
      ∃ w₁ : Crowd Service Question Question.Answer Request Reply,
        Crowd.Reachable (work 0) newService w₁ ∧ w₁.fresh = 1 ∧
          w₁.paused = [⟨0, _, .ask (.compile ∅ "a.yul" c) (afterVerdict ∅ c), some⟩] ∧
          w₁.history = [.put 0 (.compile ∅ "a.yul" c), .begun 0 (.compile ∅ "a.yul")] := by
    have hg : Import.hasGrammar "a.yul" = false := by decide
    refine ⟨_, (Crowd.reachable_start (work 0) newService).call (.compile ∅ "a.yul"), ?_⟩
    simp only [Crowd.call, work_compile_plain hg]
    exact ⟨rfl, rfl, rfl⟩
  obtain ⟨w₂, hr₂, front, news, hp₂, hh₂⟩ := hr₁.exists_call .switch
  rw [hn₁] at hh₂
  rw [hp₁] at hp₂
  obtain ⟨w, hr, o, ho⟩ :
      ∃ w : Crowd Service Question Question.Answer Request Reply,
        Crowd.Reachable (work 0) newService w ∧ ∃ o, w.history = .returned 0 (.compiled (.ok o)) ::
          .answered 0 (.compile ∅ "a.yul" c) verdict :: w₂.history :=
    ⟨_, hr₂.answer verdict hp₂, run_afterVerdict (.result ⟨true, [], []⟩) 0 _⟩
  refine ⟨rfl, w, o, _, hr, ho, ?_⟩
  obtain ⟨-, hall⟩ := superseded_iff_newer rfl hr
  obtain ⟨sources, target, mid, earlier, hb, -, hiff, -⟩ := hall [] 0 o _ ho
  have htold := (Crowd.Reachable.inv (accounts 0 newService) (accord_start rfl) hr).told
  rw [ho, hb] at htold
  have hparts : mid ++ .begun 0 (.compile sources target) :: earlier =
      (.answered 0 (.compile ∅ "a.yul" c) verdict :: news ++
        [.begun 1 .switch, .put 0 (.compile ∅ "a.yul" c)]) ++
          .begun 0 (.compile ∅ "a.yul") :: [] := by
    rw [← hb, hh₂, hh₁, List.append_assoc]
    rfl
  obtain ⟨rfl, -, -⟩ := htold.2.begun_unique hparts
  exact hiff.mpr ⟨.begun 1 .switch, by simp, trivial⟩

end SourceBundle.Compile
