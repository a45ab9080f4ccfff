/-
# Which runs reach the compiler

As long as no snapshots are written, or the target has no imports, a run is current whenever it asks
the compiler.  To write a snapshot is a pause between the last check of a run and the question to
the compiler, and the run can be superseded in it.
-/
import SourceBundle.Proofs.Compile.Newest
import SourceBundle.Proofs.Compile.Undisturbed

namespace SourceBundle.Compile

variable {budget : Nat} {s₀ : Service} {target : String}

/-- Whenever the compiler is asked to compile a target, the request that asks has begun for this
target, and since then nothing has begun that supersedes it. -/
def OnlyNewest (budget : Nat) (s₀ : Service) (target : String) : Prop :=
  ∀ w, Crowd.Reachable (work budget) s₀ w → ∀ later id bundle c before,
    w.history = later ++ .put id (.compile bundle target c) :: before →
      ∃ sources mid earlier, before = mid ++ .begun id (.compile sources target) :: earlier ∧
        ¬ ∃ e ∈ mid, Supersedes target e

/-- Without a pause for a snapshot, only current runs reach the compiler. -/
theorem onlyNewest_of_not (hnew : s₀.generations = ∅)
    (hs : ¬ (s₀.settings.writeSnapshot = true ∧ Import.hasGrammar target = true)) :
    OnlyNewest budget s₀ target := by
  intro w hr later id bundle c before hh
  obtain ⟨sources, target', mid, earlier, rfl, -, v, s, hv, hs', hasks⟩ :=
    asks_of_reachable hnew hr rfl hh
  have hc := numbered_beginRun target' v
  cases hasks with
  | unresolved hg hkept =>
    -- the compiler is asked before the first pause of the run
    have hcur : (beginRun target' v).1.CurrentIn (beginRun target' v).2 :=
      ⟨rfl, Table.get?_insert_self _ _ _⟩
    refine ⟨_, mid, earlier, rfl, ?_⟩
    exact (currentIn_iff hv hs').mp ((hc.currentIn_iff hkept).mpr hcur)
  | @resolved _ _ u _ hg hresolve hrun hcur hkept =>
    have hst : (beginRun target' v).2.settings = s₀.settings := hv.settings
    have hu : u.settings = s₀.settings :=
      ((obeys_resolve _ _ _).ends (meet_terms s₀ id _) hst hresolve).2
    have htarget : c.target = target' := hrun.target
    have hoff : u.settings.writeSnapshot = false := by
      rw [hu]
      rw [htarget] at hs
      simpa [hg] using hs
    have hcur' : c.CurrentIn s := ((hrun.numbered hc).currentIn_iff (hkept hoff)).mpr hcur
    rw [htarget]
    refine ⟨_, mid, earlier, rfl, ?_⟩
    exact (currentIn_iff hv hs').mp ((hrun.currentIn_iff s).mp hcur')

/-- The workspace can be switched while a request writes its snapshot, and then the request asks the
compiler. -/
lemma reachable_stale {st : Settings} (hs : st.writeSnapshot = true)
    (hg : Import.hasGrammar target = true) :
    ∃ (w : Crowd Service Question Question.Answer Request Reply) (sources bundle : Bundle)
      (c : Context) (mid : List Happening) (id : Nat),
      Crowd.Reachable (work 1) (bareService st) w ∧
        w.history = .put 0 (.compile bundle target c) ::
          (mid ++ [.begun 0 (.compile sources target)]) ∧ .begun id .switch ∈ mid := by
  let sources : Bundle := Table.empty.insert target ""
  let finish : Except Fault Outcome → Work Reply := fun r => .done (.compiled r)
  obtain ⟨bundle, c, s', news, rfl, hst, hr₀⟩ := reachable_compileBundle 0 hg
    (show sources.get? target = some "" from Table.get?_insert_self _ _ _) (bareService_idle st)
  obtain ⟨path, doc, next, hlead, hnext⟩ := leads_write (s := s') bundle c
    (by rw [hst]; exact hs)
  -- the request pauses to write the snapshot
  obtain ⟨w₁, hr₁, hp₁, news₁, hh₁⟩ :
      ∃ w₁ : Crowd Service Question Question.Answer Request Reply,
        Crowd.Reachable (work 1) (bareService st) w₁ ∧
        w₁.paused = [⟨0, _, .ask (.write path doc) fun a => (next a).bind finish, some⟩] ∧
        ∃ news, w₁.history = news ++ [.begun 0 (.compile sources c.target)] := by
    obtain ⟨news₁, hr₁⟩ := hr₀.of_leads (hlead.bind finish) rfl
    refine ⟨_, hr₁, rfl, .put 0 (.write path doc) :: (news₁ ++ news), ?_⟩
    rw [List.cons_append, List.append_assoc]
    rfl
  -- the workspace is switched
  obtain ⟨w₂, hr₂, front, news₂, hp₂, hh₂⟩ := hr₁.exists_call .switch
  -- the snapshot is written, and the request goes on
  let written : Question.Answer (.write path doc) := .ok ()
  rw [hp₁] at hp₂
  have hr₃ := hr₂.answer written hp₂
  rw [hnext] at hr₃
  refine ⟨_, sources, bundle, c,
    .answered 0 (.write path doc) written :: (news₂ ++ .begun w₁.fresh .switch :: news₁), w₁.fresh,
    hr₃, ?_, by simp⟩
  show .put 0 (.compile bundle c.target c) :: .answered 0 (.write path doc) written :: w₂.history = _
  rw [hh₂, hh₁]
  simp

/-- With a snapshot, a run can be superseded before it asks the compiler. -/
theorem not_onlyNewest {st : Settings} (hs : st.writeSnapshot = true)
    (hg : Import.hasGrammar target = true) : ¬ OnlyNewest 1 (bareService st) target := by
  intro hall
  obtain ⟨w, sources, bundle, c, mid, id, hr, hh, hswitch⟩ := reachable_stale hs hg
  obtain ⟨sources', mid', earlier, hbefore, hnone⟩ := hall w hr [] 0 bundle c _ hh
  have htold := (hr.inv (accounts 1 (bareService st)) (accord_start rfl)).told
  rw [hh] at htold
  obtain ⟨rfl, -, -⟩ := htold.2.begun_unique hbefore
  exact hnone ⟨.begun id .switch, hswitch, trivial⟩

/-- For which settings and targets only the newest run reaches the compiler, whatever requests run
beside each other. -/
theorem onlyNewest_iff (st : Settings) (target : String) :
    (∀ budget s₀, s₀.settings = st → s₀.generations = ∅ → OnlyNewest budget s₀ target) ↔
      ¬ (st.writeSnapshot = true ∧ Import.hasGrammar target = true) := by
  constructor
  · rintro hall ⟨hs, hg⟩
    exact not_onlyNewest hs hg (hall 1 (bareService st) rfl rfl)
  · rintro hn budget s₀ rfl hnew
    exact onlyNewest_of_not hnew hn

/-- The workspace is switched while the snapshot of the bundle is being written. -/
theorem not_onlyNewest_snapshot :
    ¬ OnlyNewest 1 (bareService { writeSnapshot := true }) "a.sol" :=
  not_onlyNewest rfl (by decide)

end SourceBundle.Compile
