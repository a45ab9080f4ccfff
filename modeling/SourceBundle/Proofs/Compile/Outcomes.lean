/-
# What a compile request ends with, and what it asks

Every way to the end of a compile request passes a check of its run with no pause behind it, so the
outcome says of the run what is true when the request returns.  The compiler is asked only for a
run that had passed such a check, or had just begun.
-/
import SourceBundle.Proofs.Compile.Requests

namespace SourceBundle

variable {T : Terms Service Question Question.Answer} {s s' : Service} {c c' : Context} {α : Type}

/-! ## Checks and records -/

/-- The run hangs on its generation. -/
def Context.Numbered (c : Context) : Prop := ∃ n epoch, c.standing = .generation n epoch

lemma Context.SameRun.numbered (h : c.SameRun c') (hc : c.Numbered) : c'.Numbered := by
  obtain ⟨n, epoch, hc⟩ := hc
  exact ⟨n, epoch, h.standing.trans hc⟩

/-- Whether a numbered run is current hangs on the generations and the epoch alone. -/
lemma Context.Numbered.currentIn_iff (hc : c.Numbered) (hk : Kept s s') :
    c.CurrentIn s' ↔ c.CurrentIn s := by
  obtain ⟨n, epoch, hc⟩ := hc
  rw [CurrentIn, CurrentIn, hc, hk.epoch, hk.generations]

/-- The work below the requests does not ask the compiler. -/
lemma not_puts_of_quiet {x : Work α} {q : Question} (hx : x.Lawful (quiet fun _ => True))
    (hq : q.isCompile = true) : ¬ x.Puts T s q s' := fun h => by
  have hn : q.isCompile = false := (hx.puts (meet_quiet T) trivial h).1
  exact absurd hq (by simp [hn])

/-- In a crowd of requests, a request finds no other settings than those at the beginning. -/
lemma meet_terms (s₀ : Service) (id : Nat) (h : List Compile.Happening) :
    (Crowd.terms Compile.SameSettings id h).Meet (quiet fun s => s.settings = s₀.settings) where
  own _ _ hs hst := Eq.trans hst hs
  others _ _ hs hst := Eq.trans hst hs
  answer _ _ _ := trivial

lemma Work.kept_of_log {r : LogRecord} (h : (Work.log r).Ends T s () s') : Kept s s' := by
  obtain ⟨-, -, rfl⟩ := h
  exact ⟨rfl, rfl, rfl⟩

/-- A check of a numbered run tells whether it is current, and changes nothing. -/
lemma Work.check_of_ends {b : Bool} (hc : c.Numbered)
    (h : (Work.contextIsCurrent c).Ends T s b s') : s' = s ∧ (b = true ↔ c.CurrentIn s') := by
  obtain ⟨n, epoch, hc⟩ := hc
  obtain rfl := Work.eq_of_ends_contextIsCurrent hc h
  exact ⟨rfl, Work.current_iff_of_ends h⟩

namespace Compile

variable {budget : Nat} {sources bundle : Bundle} {target : String} {o : Outcome} {q : Question}

/-! ## Outcomes -/

/-- An outcome says of a run what is true in a state: its number, and whether it is superseded, in
which case there is nothing else to say. -/
structure Outcome.Fits (o : Outcome) (c : Context) (s : Service) : Prop where
  superseded : o.superseded = true ↔ ¬ c.CurrentIn s
  generation : o.generation = c.generation
  empty : o.superseded = true →
    o.success = false ∧ o.bundle? = none ∧ o.result? = none ∧ o.diagnostics = []

lemma Outcome.Fits.of_sameRun (hr : c.SameRun c') (h : o.Fits c' s) : o.Fits c s where
  superseded := by rw [h.superseded, hr.currentIn_iff]
  generation := h.generation.trans hr.generation
  empty := h.empty

lemma fits_dropped (hc : c.Numbered) (hcur : ¬ c.CurrentIn s)
    (h : (dropped c).Ends T s o s') : o.Fits c s' := by
  obtain ⟨_, _, hl, rfl, rfl⟩ := Routine.ends_bind.mp h
  have hcur' := fun hn => hcur ((hc.currentIn_iff (Work.kept_of_log hl)).mp hn)
  exact ⟨⟨fun _ => hcur', fun _ => rfl⟩, rfl, fun _ => ⟨rfl, rfl, rfl, rfl⟩⟩

lemma fits_failed {f : Fault} (hc : c.Numbered) (h : (failed c f).Ends T s o s') :
    o.Fits c s' := by
  obtain ⟨current, v, hcheck, h₁⟩ := Routine.ends_bind.mp h
  obtain ⟨rfl, hcur⟩ := Work.check_of_ends hc hcheck
  cases current with
  | false => exact fits_dropped hc (by simpa using hcur) h₁
  | true =>
    obtain ⟨_, _, hl, rfl, rfl⟩ := Routine.ends_bind.mp h₁
    have hcur' := (hc.currentIn_iff (Work.kept_of_log hl)).mpr (hcur.mp rfl)
    exact ⟨by simp [hcur'], rfl, nofun⟩

lemma fits_concluded {v : Verdict} (hc : c.Numbered)
    (h : (concluded sources c v).Ends T s o s') : o.Fits c s' := by
  obtain ⟨current, v, hcheck, h₁⟩ := Routine.ends_bind.mp h
  obtain ⟨rfl, hcur⟩ := Work.check_of_ends hc hcheck
  cases current with
  | false => exact fits_dropped hc (by simpa using hcur) h₁
  | true =>
    obtain ⟨rfl, rfl⟩ := h₁
    exact ⟨by simp [hcur.mp rfl, reported], rfl, nofun⟩

lemma fits_forward (hc : c.Numbered) (h : Attempt.Ends T (forward sources c) s (.ok o) s') :
    o.Fits c s' := by
  obtain ⟨v, _, -, h₁⟩ := Attempt.ends_bind_ok.mp h
  obtain ⟨_, h₂, ⟨⟩⟩ := Task.ends_work.mp h₁
  exact fits_concluded hc h₂

lemma fits_compileBundle (hc : c.Numbered)
    (h : Attempt.Ends T (compileBundle bundle c) s (.ok o) s') : o.Fits c s' := by
  obtain ⟨_, _, -, h₁⟩ := Attempt.ends_bind_ok.mp h
  obtain ⟨st, _, -, h₂⟩ := Attempt.ends_bind_ok.mp h₁
  split at h₂
  · obtain ⟨_, _, -, h₃⟩ := Attempt.ends_bind_ok.mp h₂
    exact fits_forward hc h₃
  · exact fits_forward hc h₂

lemma fits_afterResolution {r : Except Fault Bundle} (hc : c.Numbered)
    (h : Attempt.Ends T (afterResolution r c) s (.ok o) s') : o.Fits c s' := by
  cases r with
  | error f =>
    unfold afterResolution at h
    dsimp only at h
    split at h
    · obtain ⟨_, h₁, ⟨⟩⟩ := Task.ends_work.mp h
      exact fits_failed hc h₁
    · exact absurd h Attempt.not_ends_throw
  | ok bundle =>
    obtain ⟨current, _, hcheck, h₁⟩ := Attempt.ends_bind_ok.mp h
    obtain ⟨_, hcheck, ⟨⟩⟩ := Task.ends_work.mp hcheck
    obtain ⟨rfl, hcur⟩ := Work.check_of_ends hc hcheck
    cases current with
    | false =>
      obtain ⟨_, h₂, ⟨⟩⟩ := Task.ends_work.mp h₁
      exact fits_dropped hc (by simpa using hcur) h₂
    | true => exact fits_compileBundle hc h₁

/-- The outcome of a request fits its run when the request returns. -/
theorem fits_compileRun (hc : c.Numbered)
    (h : Attempt.Ends T (compileRun budget sources target c) s (.ok o) s') : o.Fits c s' := by
  unfold compileRun at h
  split at h
  · obtain ⟨⟨r, c'⟩, _, hr, h₁⟩ := Attempt.ends_bind_ok.mp h
    obtain ⟨_, hr, ⟨⟩⟩ := Task.ends_work.mp hr
    have hrun : c.SameRun c' := ((obeys_resolve _ _ c).ends (meet_quiet T) trivial hr).1
    exact (fits_afterResolution (hrun.numbered hc) h₁).of_sameRun hrun
  · obtain ⟨_, _, -, h₁⟩ := Attempt.ends_bind_ok.mp h
    exact fits_forward hc h₁

/-! ## Questions to the compiler -/

lemma puts_forward (hq : q.isCompile = true) (h : Attempt.Puts T (forward sources c) s q s') :
    q = .compile sources c.target c ∧ s' = s := by
  rcases Attempt.puts_bind.mp h with h₁ | ⟨v, _, -, h₁⟩
  · rcases h₁ with ⟨rfl, rfl⟩ | ⟨_, _, -, -, h₂⟩
    · exact ⟨rfl, rfl⟩
    · exact h₂.elim
  · exact absurd h₁ (not_puts_of_quiet (Task.lawful_work (lawful_concluded _ _ _)) hq)

/-- Unless a snapshot is written, the compiler is asked for a bundle in the state in which the
bundle was handed over. -/
lemma puts_compileBundle (hq : q.isCompile = true)
    (h : Attempt.Puts T (compileBundle bundle c) s q s') :
    q = .compile bundle c.target c ∧ (s.settings.writeSnapshot = false → Kept s s') := by
  rcases Attempt.puts_bind.mp h with h₁ | ⟨_, v, hl, h₁⟩
  · exact absurd h₁ (not_puts_of_quiet (Task.lawful_work (Work.lawful_log _)) hq)
  obtain ⟨_, hl, -⟩ := Task.ends_work.mp hl
  have hv : Kept s v := Work.kept_of_log hl
  rcases Attempt.puts_bind.mp h₁ with h₂ | ⟨st, w, hst, h₂⟩
  · exact absurd h₂ (not_puts_of_quiet (Task.lawful_work Work.lawful_settings) hq)
  obtain ⟨_, hst, ⟨⟩⟩ := Task.ends_work.mp hst
  obtain ⟨-, rfl, rfl⟩ := Work.ends_gets.mp hst
  split at h₂
  · next hw =>
    -- the pause for the snapshot: nothing is known of the state behind it
    rcases Attempt.puts_bind.mp h₂ with h₃ | ⟨_, _, -, h₃⟩
    · exact absurd h₃ (not_puts_of_quiet (lawful_writeSnapshot _ _) hq)
    · refine ⟨(puts_forward hq h₃).1, fun hn => ?_⟩
      rw [hv.settings, hn] at hw
      exact nomatch hw
  · obtain ⟨hq, rfl⟩ := puts_forward hq h₂
    exact ⟨hq, fun _ => hv⟩

/-- If the compiler is asked after a resolution, that has given the bundle, and the run was current
after it. -/
lemma puts_afterResolution {r : Except Fault Bundle} (hc : c.Numbered) (hq : q.isCompile = true)
    (h : Attempt.Puts T (afterResolution r c) s q s') :
    ∃ bundle, r = .ok bundle ∧ q = .compile bundle c.target c ∧ c.CurrentIn s ∧
      (s.settings.writeSnapshot = false → Kept s s') := by
  cases r with
  | error f =>
    unfold afterResolution at h
    dsimp only at h
    split at h
    · exact absurd h (not_puts_of_quiet (Task.lawful_work (lawful_failed c f)) hq)
    · exact h.elim
  | ok bundle =>
    rcases Attempt.puts_bind.mp h with h₁ | ⟨current, _, hcheck, h₁⟩
    · exact absurd h₁
        (not_puts_of_quiet (Task.lawful_work (Work.lawful_contextIsCurrent c)) hq)
    obtain ⟨_, hcheck, ⟨⟩⟩ := Task.ends_work.mp hcheck
    obtain ⟨rfl, hcur⟩ := Work.check_of_ends hc hcheck
    cases current with
    | false => exact absurd h₁ (not_puts_of_quiet (Task.lawful_work (lawful_dropped c)) hq)
    | true =>
      obtain ⟨hb, hk⟩ := puts_compileBundle hq h₁
      exact ⟨bundle, rfl, hb, hcur.mp rfl, hk⟩

/-- How a request comes to ask the compiler. -/
inductive Asks (T : Terms Service Question Question.Answer) (budget : Nat) (sources : Bundle)
    (target : String) (c : Context) (s : Service) : Question → Service → Prop
  /-- A target without imports is compiled as it is. -/
  | unresolved {s' : Service} : Import.hasGrammar target = false → Kept s s' →
    Asks T budget sources target c s (.compile sources c.target c) s'
  /-- Any other target is compiled after a resolution at whose end the run was current. -/
  | resolved {bundle : Bundle} {c' : Context} {v s' : Service} : Import.hasGrammar target = true →
    (resolve budget (sources.get? target) c).Ends T s (.ok bundle, c') v → c.SameRun c' →
    c'.CurrentIn v → (v.settings.writeSnapshot = false → Kept v s') →
    Asks T budget sources target c s (.compile bundle c'.target c') s'

theorem asks_of_puts (hc : c.Numbered) (hq : q.isCompile = true)
    (h : Attempt.Puts T (compileRun budget sources target c) s q s') :
    Asks T budget sources target c s q s' := by
  unfold compileRun at h
  split at h
  · next hg =>
    rcases Attempt.puts_bind.mp h with h₁ | ⟨⟨r, c'⟩, v, hr, h₁⟩
    · exact absurd h₁ (not_puts_of_quiet (Task.lawful_work
        (Routine.Lawful.of_obeys (obeys_resolve _ _ _))) hq)
    obtain ⟨_, hr, ⟨⟩⟩ := Task.ends_work.mp hr
    have hrun : c.SameRun c' := ((obeys_resolve _ _ c).ends (meet_quiet T) trivial hr).1
    obtain ⟨bundle, rfl, rfl, hcur, hk⟩ := puts_afterResolution (hrun.numbered hc) hq h₁
    exact .resolved hg hr hrun hcur hk
  · next hg =>
    rcases Attempt.puts_bind.mp h with h₁ | ⟨_, v, hl, h₁⟩
    · exact absurd h₁ (not_puts_of_quiet (Task.lawful_work (Work.lawful_log _)) hq)
    obtain ⟨_, hl, -⟩ := Task.ends_work.mp hl
    obtain ⟨rfl, rfl⟩ := puts_forward hq h₁
    exact .unresolved (by simpa using hg) (Work.kept_of_log hl)

/-! ## Requests -/

lemma numbered_beginRun (target : String) (s : Service) : (beginRun target s).1.Numbered :=
  ⟨_, _, rfl⟩

/-- Only a compile request returns an outcome, and it fits the run that the request began. -/
lemma fits_of_work {r : Request} (h : (work budget r).Ends T s (.compiled (.ok o)) s') :
    ∃ sources target, r = .compile sources target ∧ o.Fits (beginRun target s).1 s' := by
  cases r with
  | compile sources target =>
    obtain ⟨r', _, hc, he, rfl⟩ := Routine.ends_bind.mp h
    cases he
    obtain ⟨c, u, hb, hrun⟩ := Attempt.ends_bind_ok.mp hc
    obtain ⟨_, ⟨-, rfl, rfl⟩, ⟨⟩⟩ := Task.ends_work.mp hb
    exact ⟨sources, target, rfl, fits_compileRun (numbered_beginRun target s) hrun⟩
  | switch =>
    obtain ⟨_, _, -, he, -⟩ := Routine.ends_bind.mp h
    exact nomatch he
  | navigate file? literal =>
    obtain ⟨_, _, -, he, -⟩ := Routine.ends_bind.mp h
    exact nomatch he

/-- Only a compile request asks the compiler. -/
lemma asks_of_work {r : Request} (hq : q.isCompile = true) (h : (work budget r).Puts T s q s') :
    ∃ sources target, r = .compile sources target ∧
      Asks T budget sources target (beginRun target s).1 (beginRun target s).2 q s' := by
  cases r with
  | compile sources target =>
    rcases Routine.puts_bind.mp h with hc | ⟨_, _, -, hn⟩
    · rcases Attempt.puts_bind.mp hc with hb | ⟨c, u, hb, hrun⟩
      · exact hb.2.elim
      · obtain ⟨_, ⟨-, rfl, rfl⟩, ⟨⟩⟩ := Task.ends_work.mp hb
        exact ⟨sources, target, rfl, asks_of_puts (numbered_beginRun target s) hq hrun⟩
    · exact hn.elim
  | switch =>
    rcases Routine.puts_bind.mp h with hs | ⟨_, _, -, hn⟩
    · rcases Attempt.puts_bind.mp hs with hb | ⟨_, u, -, hrest⟩
      · exact hb.2.elim
      · exact absurd hrest (not_puts_of_quiet lawful_afterSwitch hq)
    · exact hn.elim
  | navigate file? literal =>
    rcases Routine.puts_bind.mp h with hs | ⟨_, _, -, hn⟩
    · exact absurd hs (not_puts_of_quiet (lawful_navigate file? literal) hq)
    · exact hn.elim

/-- Whenever the compiler is asked, whatever requests run beside each other, it is asked for a
compile request that has begun; and the histories up to its beginning and up to the question tell of
the states between which it came to ask. -/
theorem asks_of_reachable {budget : Nat} {s₀ : Service}
    {w : Crowd Service Question Question.Answer Request Reply} {later before : List Happening}
    {id : Nat} (hnew : s₀.generations = ∅) (hr : Crowd.Reachable (work budget) s₀ w)
    (hq : q.isCompile = true) (hh : w.history = later ++ .put id q :: before) :
    ∃ sources target mid earlier, before = mid ++ .begun id (.compile sources target) :: earlier ∧
      (∀ r, .begun id r ∉ mid ++ earlier) ∧ ∃ v s, Accord s₀ earlier v ∧ Accord s₀ before s ∧
        Asks (Crowd.terms SameSettings id before) budget sources target (beginRun target v).1
          (beginRun target v).2 q s := by
  have htold := (hr.inv (accounts budget s₀) (accord_start hnew)).told
  rw [hh] at htold
  rcases htold.sound with hhelped | ⟨r, mid, earlier, v, s, rfl, hv, hs, hputs⟩
  · -- helpers do not ask the compiler
    have hnone : q.isCompile = false := hhelped
    exact absurd hq (by simp [hnone])
  · obtain ⟨sources, target, rfl, hasks⟩ := asks_of_work hq hputs
    exact ⟨sources, target, mid, earlier, rfl, htold.of_append.2.begun_once, v, s, hv, hs, hasks⟩

end Compile

end SourceBundle
