/-
# Calm

A calm crowd is one in which nothing is under way that touches the packages, and in which those who
pause wait for a load of the index.  Plain work leaves a crowd calm; and while a routine loads the
index or saves it in a calm crowd, nobody else takes a turn.
-/
import SourceBundle.Proofs.Cache.Gather
import SourceBundle.Proofs.Index.Commit
import SourceBundle.Proofs.Service.Plain

namespace SourceBundle

open Crowd

variable {R P : Type} {lost : List (Event Question Question.Answer R P) → Prop}

/-- One waits for a load of the index that has not ended. -/
def Paused.AwaitsLoad (p : Paused Service Question Question.Answer P) (s : Service) : Prop :=
  ∃ turns ticket next, p.rest = .wait turns (fun s => (s.index.loadOutcome? ticket).isSome) next ∧
    s.index.loadOutcome? ticket = none

/-- No package is being fetched, and those who pause wait for loads. -/
structure Crowd.Calm (w : Users R P) : Prop where
  waits : ∀ p ∈ w.paused, p.AwaitsLoad w.state
  inflight : ∀ k, w.state.cache.inflight.get? k = none
  numbers : ∀ d ∈ w.state.delivered, d.1.2 < w.state.deliveries

namespace Crowd.Calm

variable {w : Users R P}

lemma resting (hw : w.Calm) : Resting w := by
  intro p hp
  obtain ⟨turns, ticket, next, hrest, hnone⟩ := hw.waits p hp
  exact ⟨turns, _, next, hrest, by rw [hnone]; rfl⟩

/-- What plain work does leaves a crowd calm. -/
lemma noted (hw : w.Calm) {s : Service} (h : Noted w.state s) : ({ w with state := s } : Users R P).Calm := by
  obtain ⟨-, hs⟩ := h
  have hindex : s.index = w.state.index := by rw [hs]
  refine ⟨fun p hp => ?_, ?_, ?_⟩
  · obtain ⟨turns, ticket, next, hrest, hnone⟩ := hw.waits p hp
    exact ⟨turns, ticket, next, hrest, hindex ▸ hnone⟩
  · rw [hs]
    exact hw.inflight
  · rw [hs]
    exact hw.numbers

end Crowd.Calm

/-! ## The index at rest -/

/-- Nobody loads the index, and only some save it or want to. -/
structure Index.SavedBy (tickets : List Nat) (i : Index) : Prop where
  savers : i.savers = tickets
  loading : i.loaded = true ∨ i.loading? = none
  loads : ∀ l ∈ i.loads, l.1 < i.loadsBegun

/-- Nobody loads or saves the index. -/
abbrev Index.AtRest : Index → Prop := Index.SavedBy []

lemma Index.SavedBy.rewritten {tickets : List Nat} {i j : Index} (hi : i.SavedBy tickets)
    (h : i.Rewritten j) : j.SavedBy tickets := by
  rw [h]
  exact ⟨hi.savers, hi.loading, hi.loads⟩

/-- Nobody uses the service. -/
structure Service.Idle (s : Service) : Prop where
  inflight : ∀ k, s.cache.inflight.get? k = none
  numbers : ∀ d ∈ s.delivered, d.1.2 < s.deliveries
  index : s.index.AtRest

namespace Index

/-- The index while a load is under way that nobody had begun. -/
def whileLoading (i : Index) : Index :=
  { i with loading? := some i.loadsBegun, loadsBegun := i.loadsBegun + 1 }

/-- The index after a load that has obtained some records, or has failed. -/
def afterLoad (i : Index) (ticket : Nat) : Except Fault IndexData → Index
  | .ok d => { i.finishLoad d with loads := (ticket, .ok ()) :: i.loads }
  | .error f => { i with loads := (ticket, .error f) :: i.loads, loading? := none }

lemma SavedBy.afterLoad {i : Index} (hi : i.AtRest) (r : Except Fault IndexData) :
    (i.whileLoading.afterLoad i.loadsBegun r).AtRest := by
  have hloads : ∀ o, ∀ l ∈ (i.loadsBegun, o) :: i.loads, l.1 < i.loadsBegun + 1 := by
    intro o l hl
    rcases List.mem_cons.mp hl with rfl | hl
    · exact Nat.lt_succ_self _
    · exact Nat.lt_succ_of_lt (hi.loads l hl)
  cases r with
  | ok d => exact ⟨hi.savers, Or.inl rfl, hloads _⟩
  | error f => exact ⟨hi.savers, Or.inr rfl, hloads _⟩

/-- The index when a load has ended, but those who wait for it have not learned of it. -/
def afterReading (i : Index) (ticket : Nat) : Except Fault IndexData → Index
  | .ok d => { i.finishLoad d with loads := (ticket, .ok ()) :: i.loads }
  | .error f => { i with loads := (ticket, .error f) :: i.loads }

lemma loadOutcome?_afterReading (i : Index) (ticket : Nat) (r : Except Fault IndexData) :
    (i.afterReading ticket r).loadOutcome? ticket = some (r.map fun _ => ()) := by
  cases r <;> exact List.lookup_cons_self

lemma leaveLoad_afterReading (i : Index) (hloaded : i.loaded = false) (r : Except Fault IndexData) :
    (i.whileLoading.afterReading i.loadsBegun r).leaveLoad i.loadsBegun =
      i.whileLoading.afterLoad i.loadsBegun r := by
  unfold leaveLoad
  rw [loadOutcome?_afterReading]
  cases r with
  | ok d => simp [afterReading, afterLoad, finishLoad]
  | error f => simp [afterReading, afterLoad, whileLoading, hloaded]

lemma brings_runLoad_end (id ticket : Nat) (r : Except Fault IndexData) (w : Users R P) :
    ∃ journal, Brings lost id (match r with
      | .ok d => do
        change fun i => i.finishLoad d
        let files ← Routine.gets (·.index.data.size)
        Work.log (.indexLoaded files)
        change fun i => { i with loads := (ticket, .ok ()) :: i.loads }
      | .error f => change fun i => { i with loads := (ticket, .error f) :: i.loads } : Work Unit) w
      fun _ w' => w' = { w with state := { w.state with
        index := w.state.index.afterReading ticket r, journal := journal } } := by
  cases r with
  | ok d => exact ⟨_, Brings.step (Brings.step (Brings.step (Brings.step (.done rfl))))⟩
  | error f => exact ⟨w.state.journal, Brings.step (.done rfl)⟩

/-- One who has waited for a load learns how it ended. -/
lemma brings_awaitLoad_end {ticket : Nat} {o : Except Fault Unit} {w : Users R P} (id : Nat)
    (h : w.state.index.loadOutcome? ticket = some o) :
    Brings lost id (do
      let outcome? ← Task.work (Routine.gets fun s => s.index.loadOutcome? ticket)
      Task.work (change fun i => i.leaveLoad ticket)
      match Wake.ready, outcome? with
      | .cancelled, _ => throw .cancelled
      | .ready, some (.error f) => throw f
      | .ready, _ => pure () : Task Unit).run w fun r w' =>
      r = o ∧ w' = { w with state := { w.state with index := w.state.index.leaveLoad ticket } } := by
  refine Brings.step ?_
  simp only [h]
  refine Brings.step ?_
  cases o with
  | ok u => exact .done ⟨rfl, rfl⟩
  | error f => exact .done ⟨rfl, rfl⟩

/-- A load that nobody had begun ends as the records of the file are read. -/
theorem brings_load {w : Users R P} {post : Except Fault IndexData → Users R P → Prop} (id : Nat)
    (hi : w.state.index.AtRest) (hloaded : w.state.index.loaded = false) (hw : w.paused = [])
    (hread : ∀ p : Paused Service Question Question.Answer P,
      p.AwaitsLoad { w.state with index := w.state.index.whileLoading } →
      Brings lost w.fresh (readRecords w.state.index.path).run
        { w with
          state := { w.state with index := w.state.index.whileLoading }
          fresh := w.fresh + 1, paused := [p] } fun r w' =>
        ∃ d, w' = { d with paused := [p] } ∧ d.paused = [] ∧
          d.state.index = w.state.index.whileLoading ∧ post r d) :
    Brings lost id load.run w fun r w' => ∃ r' d journal, post r' d ∧ r = r'.map (fun _ => ()) ∧
      w' = { d with state := { d.state with
        index := w.state.index.whileLoading.afterLoad w.state.index.loadsBegun r'
        journal := journal } } := by
  have hnone : w.state.index.loading? = none := by
    rcases hi.loading with h | h
    · rw [hloaded] at h
      cases h
    · exact h
  have hreq : w.state.index.requestLoad = (.begin w.state.index.loadsBegun, w.state.index.whileLoading) := by
    simp [requestLoad, whileLoading, hloaded, hnone]
  have hmissing : w.state.index.whileLoading.loadOutcome? w.state.index.loadsBegun = none := by
    refine List.lookup_eq_none_iff.mpr fun l hl => ?_
    have hlt := hi.loads l hl
    simp only [bne_iff_ne, ne_eq]
    omega
  refine Brings.step ?_
  simp only [hreq]
  refine Brings.delegate ?_ ?_ fun p hp => ?_
  · show ∀ p ∈ w.paused, _
    rw [hw]
    exact List.forall_mem_nil _
  · show (Option.isSome _) = false
    rw [hmissing]
    rfl
  · obtain ⟨next, hp⟩ := hp
    show Brings lost w.fresh (runLoad w.state.index.loadsBegun)
      { w with
        state := { w.state with index := w.state.index.whileLoading }
        fresh := w.fresh + 1, paused := p :: w.paused } _
    rw [hw]
    refine Brings.step ((hread p ⟨_, _, next, hp, hmissing⟩).bind ?_)
    rintro r w' ⟨d, rfl, hd, hindex, hpost⟩
    obtain ⟨journal, hend⟩ := @brings_runLoad_end R P lost w.fresh w.state.index.loadsBegun r
      { d with paused := [p] }
    refine hend.imp ?_
    rintro - c' rfl
    refine ⟨{ d with state := { d.state with
      index := d.state.index.afterReading w.state.index.loadsBegun r, journal := journal } },
      ?_, ?_, ?_, ?_⟩
    · rw [hd]
    · show ∀ p ∈ d.paused, _
      rw [hd]
      exact List.forall_mem_nil _
    · show Option.isSome (loadOutcome? _ _) = true
      rw [loadOutcome?_afterReading]
      rfl
    · refine (brings_awaitLoad_end id (loadOutcome?_afterReading _ _ r)).imp ?_
      rintro r' c' ⟨rfl, rfl⟩
      refine ⟨r, d, journal, hpost, rfl, ?_⟩
      simp only [hindex]
      rw [leaveLoad_afterReading _ hloaded]

end Index

end SourceBundle
