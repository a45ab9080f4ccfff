/-
# Work that comes to an end

A service is deserted when nobody but the one who runs uses it.  Work that is begun in a deserted
service comes to an end, whatever turns are taken and whatever is answered, and leaves the service
deserted: plain work takes one turn for each of its questions, the load of the index waits for its
helper, a save finds nobody in front of it, and each package of a level needs two turns at most.
-/
import SourceBundle.Proofs.Service.Calm

namespace SourceBundle

open Crowd

variable {R P α β ρ : Type} {lost : List (Event Question Question.Answer R P) → Prop}
  {φ ψ χ : Index → Prop}

/-- Nobody but the one who runs uses the service, and the index is as given. -/
structure Crowd.Deserted (φ : Index → Prop) (w : Users R P) : Prop where
  paused : w.paused = []
  inflight : ∀ k, w.state.cache.inflight.get? k = none
  numbers : ∀ d ∈ w.state.delivered, d.1.2 < w.state.deliveries
  index : φ w.state.index

namespace Crowd.Deserted

variable {w : Users R P}

lemma calm (hw : w.Deserted φ) : w.Calm :=
  ⟨fun p hp => by simp [hw.paused] at hp, hw.inflight, hw.numbers⟩

lemma resting (hw : w.Deserted φ) : Resting w := hw.calm.resting

lemma withIndex (hw : w.Deserted φ) {i : Index} (hi : ψ i) :
    Deserted ψ { w with state := { w.state with index := i } } :=
  ⟨hw.paused, hw.inflight, hw.numbers, hi⟩

end Crowd.Deserted

namespace Routine

/-- Begun in a deserted service, the routine inevitably comes to its end, whatever is answered, and
the service is deserted again. -/
def Finishes (φ : Index → Prop) (x : Work α) (ψ : Index → Prop) : Prop :=
  ∀ (R P : Type) (id : Nat) (w : Users R P), w.Deserted φ →
    Brings (fun _ => False) id x w fun _ w' => w'.Deserted ψ

/-- In a calm crowd plain work inevitably comes to its end, and the crowd stays calm. -/
lemma Plain.brings {x : Work α} {post : α → Prop} (hx : x.Plain busily post)
    (hl : Final lost) {w : Users R P} (hw : w.Calm) (id : Nat) :
    Brings lost id x w fun _ w' =>
      w'.Calm ∧ w'.paused = w.paused ∧ w'.state.index = w.state.index := by
  induction x generalizing w with
  | done a => exact .done ⟨hw, rfl, rfl⟩
  | step change next ih =>
    have hn := hx.1 w.state
    refine Brings.step ((ih w.state (hx.2.2 w.state) (hw.noted hn)).imp ?_)
    rintro a w' ⟨hw', hp, hi⟩
    refine ⟨hw', hp, hi.trans ?_⟩
    show (change w.state).index = w.state.index
    rw [hn.rest]
  | ask q next ih =>
    refine Brings.ask hl ⟨.error .cancelled⟩ hw.resting fun a => Or.inr ?_
    exact ih a (hx.2.1 a) ⟨hw.waits, hw.inflight, hw.numbers⟩
  | wait turns until_ next _ => exact hx.elim
  | spawn child next _ _ => exact hx.elim

namespace Finishes

theorem of_plain {x : Work α} {post : α → Prop} (hx : x.Plain busily post) :
    x.Finishes φ φ := by
  intro R P id w hw
  refine (hx.brings (fun _ _ h => h) hw.calm id).imp ?_
  rintro a w' ⟨hw', hp, hi⟩
  exact ⟨hp.trans hw.paused, hw'.inflight, hw'.numbers, hi ▸ hw.index⟩

theorem done (a : α) : (Routine.done a : Work α).Finishes φ φ :=
  fun _ _ _ _ hw => Brings.done hw

theorem bind {x : Work α} {f : α → Work β} (hx : x.Finishes φ ψ)
    (hf : ∀ a, (f a).Finishes ψ χ) : (x.bind f).Finishes φ χ :=
  fun R P id w hw => (hx R P id w hw).bind fun a w' hw' => hf a R P id w' hw'

/-- A step that leaves what others wait for is over at once. -/
theorem step {f : Service → Service} {next : Service → Work α}
    (hc : ∀ s : Service, (f s).cache.inflight = s.cache.inflight ∧
      (f s).delivered = s.delivered ∧ (f s).deliveries = s.deliveries)
    (hi : ∀ s : Service, φ s.index → ψ (f s).index)
    (hnext : ∀ s, φ s.index → (next s).Finishes ψ χ) :
    (Routine.step f next).Finishes φ χ := by
  intro R P id w hw
  refine Brings.step (hnext w.state hw.index R P id _ ⟨hw.paused, ?_, ?_, hi _ hw.index⟩)
  · show ∀ k, (f w.state).cache.inflight.get? k = none
    rw [(hc w.state).1]
    exact hw.inflight
  · show ∀ d ∈ (f w.state).delivered, d.1.2 < (f w.state).deliveries
    rw [(hc w.state).2.1, (hc w.state).2.2]
    exact hw.numbers

theorem modify {f : Service → Service} (hc : ∀ s : Service, (f s).cache.inflight = s.cache.inflight ∧
      (f s).delivered = s.delivered ∧ (f s).deliveries = s.deliveries)
    (hi : ∀ s : Service, φ s.index → ψ (f s).index) :
    (Routine.modify f : Work Unit).Finishes φ ψ :=
  step hc hi fun _ _ => done ()

theorem gets (f : Service → α) : (Routine.gets f : Work α).Finishes φ φ :=
  step (fun _ => ⟨rfl, rfl, rfl⟩) (fun _ h => h) fun _ _ => done _

theorem put (q : Question) : (Routine.put q : Work q.Answer).Finishes φ φ :=
  fun _ _ _ _ hw => Brings.ask (fun _ _ h => h) ⟨.error .cancelled⟩ hw.resting fun _ =>
    Or.inr (.done ⟨hw.paused, hw.inflight, hw.numbers, hw.index⟩)

end Finishes

end Routine

/-! ## Tasks and runs -/

/-- Begun in a deserted service, the task inevitably comes to its end. -/
def Task.Finishes (φ : Index → Prop) (x : Task α) (ψ : Index → Prop) : Prop :=
  Routine.Finishes φ x.run ψ

/-- Begun in a deserted service and in whatever private state, the run inevitably comes to its end. -/
def Stateful.Finishes (φ : Index → Prop) (x : Stateful ρ α) : Prop :=
  ∀ t, Routine.Finishes φ (x.run t) φ

namespace Task.Finishes

theorem of_plain {x : Task α} (hx : Attempt.Plain busily x) : Task.Finishes φ x φ :=
  Routine.Finishes.of_plain hx

theorem pure (a : α) : Task.Finishes φ (Pure.pure a) φ := Routine.Finishes.done _

theorem throw (f : Fault) : Task.Finishes φ (MonadExcept.throw f : Task α) φ :=
  Routine.Finishes.done _

theorem bind {x : Task α} {f : α → Task β} (hx : Task.Finishes φ x φ)
    (hf : ∀ a, Task.Finishes φ (f a) φ) : Task.Finishes φ (x >>= f) φ := by
  refine Routine.Finishes.bind hx fun r => ?_
  cases r with
  | ok a => exact hf a
  | error e => exact Routine.Finishes.done _

theorem work {x : Work α} (hx : x.Finishes φ ψ) : Task.Finishes φ (Task.work x) ψ :=
  Routine.Finishes.bind hx fun _ => Routine.Finishes.done _

/-- After a part that does not fail comes another, with the index as the first leaves it. -/
theorem work_bind {x : Work α} {f : α → Task β} (hx : x.Finishes φ ψ)
    (hf : ∀ a, Task.Finishes ψ (f a) χ) : Task.Finishes φ (Task.work x >>= f) χ := by
  show Routine.Finishes φ (Task.work x >>= f).run χ
  rw [Attempt.run_bind]
  show Routine.Finishes φ ((x.bind fun a => .done (Except.ok a)).bind _) χ
  rw [Routine.bind_assoc]
  exact Routine.Finishes.bind hx hf

theorem handle {x : Task α} {h : Fault → Option (Task α)} (hx : Task.Finishes φ x φ)
    (hh : ∀ f y, h f = some y → Task.Finishes φ y φ) : Task.Finishes φ (x.handle h) φ := by
  refine Routine.Finishes.bind hx fun r => ?_
  cases r with
  | ok a => exact Routine.Finishes.done _
  | error f =>
    cases hy : h f with
    | none =>
      simp only [hy, Option.getD_none]
      exact Routine.Finishes.done _
    | some y =>
      simp only [hy, Option.getD_some]
      exact hh f y hy

/-- To answer the failures of the workspace comes to an end if the answers do. -/
theorem handle_workspace {x : Task α} {k : WorkspaceFault → Task α} (hx : Task.Finishes φ x φ)
    (hk : ∀ w, Task.Finishes φ (k w) φ) :
    Task.Finishes φ (x.handle fun | .workspace w => some (k w) | _ => none) φ := by
  refine handle hx fun f y hy => ?_
  split at hy
  · next w =>
    obtain rfl := Option.some.inj hy
    exact hk w
  · exact nomatch hy

end Task.Finishes

namespace Stateful.Finishes

theorem of_plain {I : ρ → ρ → Prop} {x : Stateful ρ α} (hx : Run.Plain busily I x) :
    Stateful.Finishes φ x :=
  fun t => Routine.Finishes.of_plain (hx t)

theorem pure (a : α) : Stateful.Finishes φ (Pure.pure a : Stateful ρ α) :=
  fun _ => Routine.Finishes.done _

theorem throw (f : Fault) : Stateful.Finishes φ (MonadExcept.throw f : Stateful ρ α) :=
  fun _ => Routine.Finishes.done _

theorem get : Stateful.Finishes φ (getThe ρ : Stateful ρ ρ) := fun _ => Routine.Finishes.done _

theorem modify (f : ρ → ρ) : Stateful.Finishes φ (modifyThe ρ f : Stateful ρ PUnit) :=
  fun _ => Routine.Finishes.done _

theorem bind {x : Stateful ρ α} {f : α → Stateful ρ β} (hx : Stateful.Finishes φ x)
    (hf : ∀ a, Stateful.Finishes φ (f a)) : Stateful.Finishes φ (x >>= f) := by
  intro t
  rw [Run.run_bind]
  refine Routine.Finishes.bind (hx t) ?_
  rintro ⟨e | a, u⟩
  · exact Routine.Finishes.done _
  · exact hf a u

theorem task {x : Task α} (hx : Task.Finishes φ x φ) :
    Stateful.Finishes φ (Stateful.task x : Stateful ρ α) :=
  fun _ => Routine.Finishes.bind hx fun _ => Routine.Finishes.done _

theorem work {x : Work α} (hx : x.Finishes φ φ) :
    Stateful.Finishes φ (Stateful.work x : Stateful ρ α) :=
  fun _ => Routine.Finishes.bind hx fun _ => Routine.Finishes.done _

theorem forM {f : β → Stateful ρ PUnit} (hf : ∀ b, Stateful.Finishes φ (f b)) (bs : List β) :
    Stateful.Finishes φ (bs.forM f) := by
  induction bs with
  | nil => exact pure _
  | cons b bs ih => exact bind (hf b) fun _ => ih

end Stateful.Finishes

/-! ## Fetching packages -/

lemma Cache.finishes_fetchAll {keys : List PackageKey} (hkeys : keys.Nodup) :
    Task.Finishes φ (fetchAll keys) φ := by
  intro R P id w hw
  refine (brings_fetchAll_any id hkeys hw.paused hw.inflight hw.numbers).imp ?_
  rintro r w' ⟨hp, hi, hin, hnum⟩
  exact ⟨hp, hin, hnum, hi ▸ hw.index⟩

/-! ## Loading and saving the index -/

namespace Index

lemma finishes_change {f : Index → Index} (hf : ∀ i, φ i → ψ (f i)) :
    (change f).Finishes φ ψ :=
  .modify (fun _ => ⟨rfl, rfl, rfl⟩) fun _ => hf _

/-- To load the index comes to an end. -/
theorem finishes_load : Task.Finishes AtRest load AtRest := by
  intro R P id w hw
  by_cases hloaded : w.state.index.loaded = true
  · have hreq : w.state.index.requestLoad = (.none, w.state.index) := if_pos hloaded
    refine Brings.step ?_
    simp only [hreq]
    exact .done hw
  · have hread : ∀ p : Paused Service Question Question.Answer P,
        p.AwaitsLoad { w.state with index := w.state.index.whileLoading } →
        Brings (fun _ => False) w.fresh (readRecords w.state.index.path).run
          { w with
            state := { w.state with index := w.state.index.whileLoading }
            fresh := w.fresh + 1, paused := [p] } fun r w' =>
          ∃ d : Users R P, w' = { d with paused := [p] } ∧ d.paused = [] ∧
            d.state.index = w.state.index.whileLoading ∧ d.Deserted fun _ => True := by
      intro p hp
      have hcalm : Calm ({ w with
          state := { w.state with index := w.state.index.whileLoading }
          fresh := w.fresh + 1, paused := [p] } : Users R P) := by
        refine ⟨fun q hq => ?_, hw.inflight, hw.numbers⟩
        rw [List.mem_singleton.mp hq]
        exact hp
      refine ((plain_readRecords w.state.index.path).brings (fun _ _ h => h) hcalm w.fresh).imp ?_
      rintro r w' ⟨hw', hpaused, hindex⟩
      refine ⟨{ w' with paused := [] }, ?_, rfl, hindex, rfl, hw'.inflight, hw'.numbers, trivial⟩
      rw [← show w'.paused = [p] from hpaused]
    refine (brings_load id hw.index (by simpa using hloaded) hw.paused hread).imp ?_
    rintro _ _ ⟨r, d, journal, hd, -, rfl⟩
    exact ⟨hd.paused, hd.inflight, hd.numbers, hw.index.afterLoad r⟩

lemma finishes_writeSnapshot (tickets : List Nat) (path snapshot : String) :
    Task.Finishes (SavedBy tickets) (writeSnapshot path snapshot) (SavedBy tickets) := by
  have hlog : ∀ r, Task.Finishes (SavedBy tickets) (Task.work (Work.log r)) (SavedBy tickets) :=
    fun r => .of_plain (Task.plain_work (Work.plain_log r))
  refine Task.Finishes.handle_workspace ?_ fun w => ?_
  · refine (Task.Finishes.of_plain (Workspace.plain_ensureDirectory path)).bind fun _ => ?_
    refine Task.Finishes.bind (Routine.Finishes.put _) fun _ => ?_
    refine (Task.Finishes.work (.gets _)).bind fun _ => ?_
    exact (hlog _).bind fun _ => Task.Finishes.pure _
  · refine (Task.Finishes.work (finishes_change (f := fun i => { i with dirty := true })
      fun i hi => hi.rewritten rfl)).bind fun _ => ?_
    exact (hlog _).bind fun _ => Task.Finishes.pure _

lemma SavedBy.dequeue {i : Index} {ticket : Nat} (hi : i.SavedBy [ticket]) :
    (i.dequeue ticket).AtRest := by
  refine ⟨?_, hi.loading, hi.loads⟩
  show i.savers.filter (· != ticket) = []
  rw [hi.savers]
  simp

lemma rewritten_takeSnapshot (i : Index) : i.Rewritten i.takeSnapshot.2 := by
  unfold takeSnapshot
  split <;> rfl

/-- To save the index comes to an end: nobody stands in front in the queue. -/
theorem finishes_save : Task.Finishes AtRest save AtRest := by
  intro R P id w hw
  have hsavers : w.state.index.savers ++ [w.state.index.savesBegun] = [w.state.index.savesBegun] := by
    rw [hw.index.savers]
    rfl
  have hw₁ : Deserted (SavedBy [w.state.index.savesBegun])
      { w with state := { w.state with index := w.state.index.enqueue.2 } } :=
    hw.withIndex ⟨hsavers, hw.index.loading, hw.index.loads⟩
  refine Brings.step ?_
  show Brings _ id _ { w with state := { w.state with index := w.state.index.enqueue.2 } } _
  have hticket : w.state.index.enqueue.1 = w.state.index.savesBegun := rfl
  generalize w.state.index.savesBegun = ticket at hw₁ hticket
  simp only [hticket]
  generalize ({ w with state := { w.state with index := w.state.index.enqueue.2 } } : Users R P) = w₁
    at hw₁ ⊢
  have hhead : (w₁.state.index.savers.head? == some ticket) = true := by
    rw [hw₁.index.savers]
    exact beq_self_eq_true _
  refine Brings.wait hw₁.resting hhead ?_
  refine (Routine.Finishes.step (φ := SavedBy [ticket]) (ψ := SavedBy [ticket])
    (f := fun s : Service => { s with index := s.index.takeSnapshot.2 })
    (fun _ => ⟨rfl, rfl, rfl⟩)
    (fun s hs => hs.rewritten (rewritten_takeSnapshot s.index)) fun s _ => ?_) R P id w₁ hw₁
  refine Task.Finishes.work_bind (.gets _) fun path => ?_
  refine Task.Finishes.work_bind (ψ := SavedBy [ticket]) ?_ fun written => ?_
  · split
    · exact Routine.Finishes.done _
    · exact finishes_writeSnapshot [ticket] path _
  · refine Task.Finishes.work_bind (finishes_change fun i hi => hi.dequeue) fun _ => ?_
    cases written with
    | ok b => exact Task.Finishes.pure b
    | error f => exact Task.Finishes.throw f

end Index

end SourceBundle
