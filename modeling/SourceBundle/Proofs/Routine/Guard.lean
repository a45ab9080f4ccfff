/-
# Properties that routines guard

A routine guards a property of histories and states if none of its changes breaks it, provided that
nobody else breaks it while the routine pauses, and if all that it starts guards it too.  Other than
with a law, what a change may be can hang on all that has happened up to it.  A property that every
request guards, from its first step on, holds in a crowd whatever happens.
-/
import SourceBundle.Proofs.Routine.Crowd
import SourceBundle.Proofs.Routine.Steady

namespace SourceBundle

variable {σ Q : Type} {A : Q → Type} {R P α β : Type} {I : List (Event Q A R P) → σ → Prop}
  {id : Nat} {h h' : List (Event Q A R P)} {s s' : σ}

/-- A request has not returned yet. -/
def Unreturned (id : Nat) (h : List (Event Q A R P)) : Prop := ∀ p, .returned id p ∉ h

namespace Routine

/-- At a point of the history and in a state: what the routine goes on to do keeps a property as
long as the others keep it, and so do the routines that it starts; and something holds when it
ends. -/
def Guards (I : List (Event Q A R P) → σ → Prop) (id : Nat) {α : Type} : Routine σ Q A α →
    List (Event Q A R P) → σ → (α → List (Event Q A R P) → σ → Prop) → Prop
  | .done a, h, s, post => post a h s
  | .step change next, h, s, post => I h (change s) ∧ (next s).Guards I id h (change s) post
  | .ask q next, h, _, post => ∀ a h' s', h <:+ h' → .answered id q a ∈ h' → Unreturned id h' →
    I h' s' → (next a).Guards I id h' s' post
  | .wait _ until_ next, h, _, post => ∀ w h' s', h <:+ h' → Unreturned id h' →
    I h' s' → (w = .ready → until_ s' = true) → (next w).Guards I id h' s' post
  | .spawn child next, h, s, post =>
    (∀ n h' s', h <:+ h' → Unreturned n h' → I h' s' →
      child.Guards I n h' s' fun _ _ _ => True) ∧
      ∀ n, (next n).Guards I id h s post

namespace Guards

theorem chain {x : Routine σ Q A α} {f : α → Routine σ Q A β} {mid : α → List (Event Q A R P) → σ → Prop}
    {post : β → List (Event Q A R P) → σ → Prop} (hx : x.Guards I id h s mid)
    (hf : ∀ a h s, mid a h s → (f a).Guards I id h s post) : (x.bind f).Guards I id h s post := by
  induction x generalizing h s with
  | done a => exact hf a h s hx
  | step change next ih => exact ⟨hx.1, ih s hx.2 hf⟩
  | ask q next ih => exact fun a h' s' hh ha hu hI => ih a (hx a h' s' hh ha hu hI) hf
  | wait turns until_ next ih => exact fun w h' s' hh hu hI hw => ih w (hx w h' s' hh hu hI hw) hf
  | spawn child next _ ih => exact ⟨hx.1, fun n => ih n (hx.2 n) hf⟩

theorem imp {x : Routine σ Q A α} {post post' : α → List (Event Q A R P) → σ → Prop}
    (hx : x.Guards I id h s post) (hp : ∀ a h s, post a h s → post' a h s) :
    x.Guards I id h s post' := by
  have hdone : (x.bind done).Guards I id h s post' := hx.chain hp
  rwa [bind_done] at hdone

theorem bind {x : Routine σ Q A α} {f : α → Routine σ Q A β}
    {post : β → List (Event Q A R P) → σ → Prop}
    (hx : x.Guards I id h s fun a h' s' => (f a).Guards I id h' s' post) :
    (x.bind f).Guards I id h s post :=
  hx.chain fun _ _ _ ha => ha

/-- What is guarded holds at the end, and the request has not returned by then. -/
theorem keeps {x : Routine σ Q A α} {post : α → List (Event Q A R P) → σ → Prop}
    (hx : x.Guards I id h s post) (hu : Unreturned id h) (hI : I h s) :
    x.Guards I id h s fun a h' s' => post a h' s' ∧ h <:+ h' ∧ Unreturned id h' ∧ I h' s' := by
  induction x generalizing h s with
  | done a => exact ⟨hx, List.suffix_rfl, hu, hI⟩
  | step change next ih => exact ⟨hx.1, ih s hx.2 hu hx.1⟩
  | ask q next ih =>
    intro a h' s' hh ha hu' hI'
    exact (ih a (hx a h' s' hh ha hu' hI') hu' hI').imp fun b h'' s'' hp =>
      ⟨hp.1, hh.trans hp.2.1, hp.2.2⟩
  | wait turns until_ next ih =>
    intro w h' s' hh hu' hI' hw
    exact (ih w (hx w h' s' hh hu' hI' hw) hu' hI').imp fun b h'' s'' hp =>
      ⟨hp.1, hh.trans hp.2.1, hp.2.2⟩
  | spawn child next _ ih => exact ⟨hx.1, fun n => ih n (hx.2 n) hu hI⟩

end Guards

/-- A property is kept by the changes of steady routines of a kind and guarded by what they start,
and all states in which it holds are related. -/
structure Guarded (I : List (Event Q A R P) → σ → Prop) (later : σ → σ → Prop)
    (change : σ → σ → Prop) (K : Routine σ Q A Unit → Prop) : Prop where
  keeps : ∀ h s t, I h s → change s t → I h t
  related : ∀ h s h' s', I h s → I h' s' → later s s'
  helps : ∀ child, K child → ∀ n h s, Unreturned n h → I h s →
    child.Guards I n h s fun _ _ _ => True

/-- A steady routine guards every property that its kind of change keeps, and it ends as one of its
walks does. -/
theorem Steady.guards {later change : σ → σ → Prop} {K : Routine σ Q A Unit → Prop}
    {x : Routine σ Q A α} {post : α → List (Event Q A R P) → σ → Prop} (hx : x.Steady change K)
    (hg : Guarded I later change K) (hI : I h s) (hu : Unreturned id h)
    (hp : ∀ a h' s', h <:+ h' → Unreturned id h' → I h' s' →
      x.Ends (Crowd.terms later id h') s a s' → post a h' s') :
    x.Guards I id h s post := by
  induction x generalizing h s with
  | done a => exact hp a h s List.suffix_rfl hu hI ⟨rfl, rfl⟩
  | step change next ih =>
    have hc := hg.keeps _ _ _ hI (hx s).1
    refine ⟨hc, ih s (hx s).2 hc hu fun a h' s' hh hu' hI' he => ?_⟩
    exact hp a h' s' hh hu' hI' ⟨hg.related _ _ _ _ hI hc, he⟩
  | ask q next ih =>
    intro a h' s' hh ha hu' hI'
    refine ih a (hx a) hI' hu' fun b h'' s'' hh' hu'' hI'' he => ?_
    exact hp b h'' s'' (hh.trans hh') hu'' hI''
      ⟨a, s', hh'.subset ha, hg.related _ _ _ _ hI hI', he⟩
  | wait turns until_ next ih =>
    intro w h' s' hh hu' hI' hw
    refine ih w (hx w) hI' hu' fun b h'' s'' hh' hu'' hI'' he => ?_
    exact hp b h'' s'' (hh.trans hh') hu'' hI'' ⟨w, s', hg.related _ _ _ _ hI hI', hw, he⟩
  | spawn child next _ ih =>
    refine ⟨fun n h' s' _ hu' hI' => hg.helps child hx.1 n h' s' hu' hI', fun n => ?_⟩
    exact ih n (hx.2 n) hI hu fun b h' s' hh hu' hI' he => hp b h' s' hh hu' hI' ⟨n, trivial, he⟩

end Routine

/-! ## Routines that fail and keep notes -/

/-- Whatever an attempt goes on to do after a success is guarded; after a fault it does nothing. -/
theorem Attempt.guards_bind {ε : Type} {x : Attempt σ Q A ε α} {f : α → Attempt σ Q A ε β}
    (hx : x.run.Guards I id h s fun r h' s' =>
      ∀ a, r = .ok a → (f a).run.Guards I id h' s' fun _ _ _ => True) :
    (x >>= f).run.Guards I id h s fun _ _ _ => True := by
  rw [Attempt.run_bind]
  refine Routine.Guards.bind (hx.imp fun r h' s' hr => ?_)
  cases r with
  | ok a => exact hr a rfl
  | error e => trivial

theorem Run.guards_bind {ε ρ : Type} {x : Run σ Q A ε ρ α} {f : α → Run σ Q A ε ρ β} {t : ρ}
    (hx : (x.run t).Guards I id h s fun p h' s' =>
      ∀ a, p.1 = .ok a → ((f a).run p.2).Guards I id h' s' fun _ _ _ => True) :
    ((x >>= f).run t).Guards I id h s fun _ _ _ => True := by
  rw [Run.run_bind]
  refine Routine.Guards.bind (hx.imp fun p h' s' hp => ?_)
  obtain ⟨r | a, u⟩ := p
  · trivial
  · exact hp a rfl

/-! ## Crowds -/

namespace Crowd

variable {work : R → Routine σ Q A P} {c c' : Crowd σ Q A R P}

/-- A property holds in a crowd and is guarded by all that pause in it; these have different numbers
and have not returned. -/
structure Watched (I : List (Event Q A R P) → σ → Prop) (c : Crowd σ Q A R P) : Prop where
  holds : I c.history c.state
  guarded : ∀ p ∈ c.paused, ∃ h s, h <:+ c.history ∧ p.rest.Guards I p.id h s fun _ _ _ => True
  distinct : (c.paused.map (·.id)).Nodup
  unreturned : ∀ p ∈ c.paused, Unreturned p.id c.history
  fresh : ∀ p ∈ c.paused, p.id < c.fresh
  past : ∀ id p, .returned id p ∈ c.history → id < c.fresh

/-- A request or helper that does not pause may be running. -/
structure MayRun (id : Nat) (c : Crowd σ Q A R P) : Prop where
  awake : ∀ p ∈ c.paused, p.id ≠ id
  unreturned : Unreturned id c.history
  fresh : id < c.fresh

namespace Watched

lemma change {t : σ} (hw : Watched I c) (ht : I c.history t) : Watched I { c with state := t } :=
  { hw with holds := ht }

lemma note (hw : Watched I c) {e : Event Q A R P} (he : I (e :: c.history) c.state)
    (hr : ∀ id p, e = .returned id p → MayRun id c) :
    Watched I { c with history := e :: c.history } where
  holds := he
  guarded p hp := by
    obtain ⟨h, s, hh, hg⟩ := hw.guarded p hp
    exact ⟨h, s, hh.trans (List.suffix_cons _ _), hg⟩
  distinct := hw.distinct
  unreturned p hp r hmem := by
    rcases List.mem_cons.mp hmem with he | hmem
    · exact (hr _ _ he.symm).awake p hp rfl
    · exact hw.unreturned p hp r hmem
  fresh := hw.fresh
  past id p hmem := by
    rcases List.mem_cons.mp hmem with he | hmem
    · exact (hr _ _ he.symm).fresh
    · exact hw.past id p hmem

lemma pause (hw : Watched I c) (hr : MayRun id c) {x : Routine σ Q A α} {report : α → Option P}
    (hx : ∃ h s, h <:+ c.history ∧ x.Guards I id h s fun _ _ _ => True) :
    Watched I { c with paused := ⟨id, α, x, report⟩ :: c.paused } where
  holds := hw.holds
  guarded := List.forall_mem_cons.mpr ⟨hx, hw.guarded⟩
  distinct := by
    refine List.nodup_cons.mpr ⟨fun hmem => ?_, hw.distinct⟩
    obtain ⟨p, hp, he⟩ := List.mem_map.mp hmem
    exact hr.awake p hp he
  unreturned := List.forall_mem_cons.mpr ⟨hr.unreturned, hw.unreturned⟩
  fresh := List.forall_mem_cons.mpr ⟨hr.fresh, hw.fresh⟩
  past := hw.past

lemma spawn (hw : Watched I c) {child : Routine σ Q A Unit}
    (hc : ∀ n h s, c.history <:+ h → Unreturned n h → I h s →
      child.Guards I n h s fun _ _ _ => True) : Watched I (c.spawn child) := by
  have hfresh : Watched I { c with fresh := c.fresh + 1 } :=
    { hw with
      fresh := fun p hp => Nat.lt_succ_of_lt (hw.fresh p hp)
      past := fun id p hmem => Nat.lt_succ_of_lt (hw.past id p hmem) }
  have hr : MayRun c.fresh { c with fresh := c.fresh + 1 } := by
    refine ⟨fun p hp he => ?_, fun p hmem => ?_, Nat.lt_succ_self _⟩
    · exact absurd (hw.fresh p hp) (he ▸ Nat.lt_irrefl _)
    · exact absurd (hw.past _ p hmem) (Nat.lt_irrefl _)
  refine hfresh.pause hr ⟨c.history, c.state, List.suffix_rfl, fun w h' s' hh hu hI _ => ?_⟩
  cases w with
  | ready => exact hc _ _ _ hh hu hI
  | cancelled => trivial

/-- When one that pauses goes on, the others pause on. -/
lemma resume (hw : Watched I c) {front back : List (Paused σ Q A P)} {p : Paused σ Q A P}
    (hp : c.paused = front ++ p :: back) :
    Watched I { c with paused := front ++ back } ∧
      MayRun p.id { c with paused := front ++ back } := by
  have hsub : ∀ q ∈ front ++ back, q ∈ c.paused := by
    intro q hq
    rw [hp]
    exact List.mem_append.mpr ((List.mem_append.mp hq).imp_right (List.mem_cons_of_mem p))
  have hmem : p ∈ c.paused := hp ▸ List.mem_append_right _ List.mem_cons_self
  have hperm : (c.paused.map (·.id)).Perm (p.id :: (front ++ back).map (·.id)) := by
    rw [hp, ← List.map_cons (f := fun q : Paused σ Q A P => q.id)]
    exact List.perm_middle.map _
  have hdistinct := List.nodup_cons.mp (hperm.nodup_iff.mp hw.distinct)
  refine ⟨⟨hw.holds, fun q hq => hw.guarded q (hsub q hq), hdistinct.2,
    fun q hq => hw.unreturned q (hsub q hq), fun q hq => hw.fresh q (hsub q hq), hw.past⟩, ?_⟩
  refine ⟨fun q hq he => hdistinct.1 ?_, hw.unreturned p hmem, hw.fresh p hmem⟩
  exact he ▸ List.mem_map_of_mem (f := fun q : Paused σ Q A P => q.id) hq

end Watched

/-- The requests uphold a property: every request guards it, and restores it with its first step,
and nothing else that can be noticed breaks it. -/
structure Upholds (work : R → Routine σ Q A P) (I : List (Event Q A R P) → σ → Prop) : Prop where
  notes : ∀ e h s, (∀ id r, e ≠ .begun id r) → I h s → I (e :: h) s
  begins : ∀ r, ∃ change next, work r = .step change next ∧ ∀ id h s, Unreturned id h → I h s →
    I (.begun id r :: h) (change s) ∧
      (next s).Guards I id (.begun id r :: h) (change s) fun _ _ _ => True

/-- One that goes on to its next pause or to its end keeps a crowd watched. -/
theorem watched_run {x : Routine σ Q A α} {report : α → Option P} (hup : Upholds work I)
    (hw : Watched I c) (hr : MayRun id c)
    (hx : x.Guards I id c.history c.state fun _ _ _ => True) : Watched I (run id report x c) := by
  induction x generalizing c with
  | done a =>
    unfold run
    cases report a with
    | none => exact hw
    | some p =>
      refine hw.note (hup.notes _ _ _ (by simp) hw.holds) ?_
      rintro id' p' ⟨⟩
      exact hr
  | step change next ih => exact ih c.state (hw.change hx.1) ⟨hr.awake, hr.unreturned, hr.fresh⟩ hx.2
  | ask q next _ =>
    have hp : Watched I { c with paused := ⟨id, _, .ask q next, report⟩ :: c.paused } :=
      hw.pause hr ⟨_, _, List.suffix_rfl, hx⟩
    exact hp.note (hup.notes _ _ _ (by simp) hp.holds) (by simp)
  | wait turns until_ next _ => exact hw.pause hr ⟨_, _, List.suffix_rfl, hx⟩
  | spawn child next _ ih =>
    refine ih c.fresh (hw.spawn hx.1) ⟨?_, hr.unreturned, Nat.lt_succ_of_lt hr.fresh⟩ (hx.2 c.fresh)
    exact List.forall_mem_cons.mpr ⟨(Nat.ne_of_lt hr.fresh).symm, hr.awake⟩

/-- Whatever happens keeps a crowd watched. -/
theorem Step.watched (hup : Upholds work I) (hs : Step work c c') (hw : Watched I c) :
    Watched I c' := by
  cases hs with
  | call r =>
    obtain ⟨change, next, hwork, hb⟩ := hup.begins r
    have hnew : Unreturned c.fresh c.history := fun p hmem =>
      absurd (hw.past _ p hmem) (Nat.lt_irrefl _)
    obtain ⟨hI, hg⟩ := hb c.fresh c.history c.state hnew hw.holds
    rw [Crowd.call, hwork]
    -- the property may fail between the event of the beginning and the first step
    have hfirst : Watched I { c with
        state := change c.state, fresh := c.fresh + 1
        history := .begun c.fresh r :: c.history } := by
      refine ⟨hI, fun p hp => ?_, hw.distinct, fun p hp q hmem => ?_, fun p hp => ?_,
        fun id p hmem => ?_⟩
      · obtain ⟨h, s, hh, hg⟩ := hw.guarded p hp
        exact ⟨h, s, hh.trans (List.suffix_cons _ _), hg⟩
      · exact hw.unreturned p hp q (by simpa using hmem)
      · exact Nat.lt_succ_of_lt (hw.fresh p hp)
      · exact Nat.lt_succ_of_lt (hw.past id p (by simpa using hmem))
    show Watched I (run c.fresh some (next c.state) { c with
      state := change c.state, fresh := c.fresh + 1
      history := .begun c.fresh r :: c.history })
    refine watched_run hup hfirst ⟨fun p hp he => ?_, fun p hmem => ?_, Nat.lt_succ_self _⟩ hg
    · exact absurd (hw.fresh p hp) (he ▸ Nat.lt_irrefl _)
    · exact hnew p (by simpa using hmem)
  | @answer front back id α q next report a hp =>
    obtain ⟨hres, hrun⟩ := hw.resume hp
    have hans := hres.note (e := .answered id q a) (hup.notes _ _ _ (by simp) hres.holds) (by simp)
    obtain ⟨h, s, hh, hg⟩ := hw.guarded ⟨id, α, .ask q next, report⟩ (by simp [hp])
    have hu : Unreturned id (.answered id q a :: c.history) := fun p hmem =>
      hrun.unreturned p (by simpa using hmem)
    refine watched_run hup hans ⟨hrun.awake, hu, hrun.fresh⟩ ?_
    exact hg a _ _ (hh.trans (List.suffix_cons _ _)) List.mem_cons_self hu hans.holds
  | @wake front back id α turns until_ next report w hp hu =>
    obtain ⟨hres, hrun⟩ := hw.resume hp
    obtain ⟨h, s, hh, hg⟩ := hw.guarded ⟨id, α, .wait turns until_ next, report⟩ (by simp [hp])
    exact watched_run hup hres hrun (hg w _ _ hh hrun.unreturned hres.holds hu)

/-- What all requests guard from their first step on holds in every reachable crowd. -/
theorem Reachable.watched (hup : Upholds work I) (hs : I [] s) (hr : Reachable work s c) : Watched I c := by
  induction hr with
  | refl => exact ⟨hs, nofun, List.nodup_nil, nofun, nofun, nofun⟩
  | tail _ hstep ih => exact hstep.watched hup ih

end Crowd

end SourceBundle
