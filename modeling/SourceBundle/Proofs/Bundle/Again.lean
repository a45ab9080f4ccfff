/-
# Building again

A build that succeeds, asked for again with the same entry, comes to the same bundle, with the same
notes of the run, and leaves the same records in the index, unless one of the two builds reads a place
of the workspace that may have changed.  A build that imports a file of a package by the place to which
the package is written does so: the second time it finds the file in the workspace.
-/
import SourceBundle.Proofs.Bundle.Grounds
import SourceBundle.Proofs.Bundle.Settled
import SourceBundle.Proofs.Service.Current
import SourceBundle.Proofs.Service.Play

namespace SourceBundle

open Crowd

namespace Bundle

variable {R P : Type} {A : Grounds} {φ : Index → Prop}

/-! ## The way to the last level -/

lemma Grounds.settles_fetchAll (t : Traversal) :
    Attempt.Settles (repeatable R P A).alone (Cache.fetchAll t.newKeys) := by
  intro v
  refine ⟨some ((t.newKeys.map v.2).mapM id, v), fun n w hw hv => ?_⟩
  obtain ⟨⟨hcalm, hpermit, -⟩, hpaused⟩ := hw
  have hfetch : ∀ id (key : PackageKey) (a : Except Fault (Table String String))
      (h : List (Event Question Question.Answer R P)), a ≠ A.fetch key →
      A.Lost n (.answered id (.files key.name key.version) a :: h) :=
    fun _ _ _ _ ha => A.lost_of_unfit ha
  refine (Cache.brings_fetchAll n (A.final_lost n) hfetch t.nodup_newKeys hpaused hcalm.inflight
    hcalm.numbers).imp ?_
  rintro r w' ⟨rfl, hg⟩
  have hsupply : w.state.cache.supply A.fetch = v.2 := congrArg Prod.snd hv
  have hsame : (repeatable R P A).see w' = (repeatable R P A).see w := by
    show (w'.state.outlook, w'.state.cache.supply A.fetch) = _
    rw [hg.supply, hg.rest]
    rfl
  have hindex : w'.state.index = w.state.index := by rw [hg.rest]
  refine ⟨?_, ⟨⟨hg.paused.trans hpaused.symm, hsame⟩, hindex⟩,
    Or.inl ⟨⟨⟨?_, hg.inflight, hg.numbers⟩, ?_, trivial⟩, hg.paused⟩⟩
  · show _ = some (_, (repeatable R P A).see w')
    rw [hsame, hsupply]
    exact congrArg (fun v => some (_, v)) hv.symm
  · rw [hg.paused]
    exact List.forall_mem_nil _
  · rw [hg.rest]
    exact hpermit

lemma Grounds.settles_materialize (shelf : Nat) (node : Node) :
    Attempt.Settles (repeatable R P A).alone (materialize shelf node) := by
  intro v
  refine ⟨some (.ok (), v), fun id w hw hv => ?_⟩
  have hw₀ : Serene (· = w.state.index) w := ⟨hw.1.calm, hw.1.permit, rfl⟩
  refine (unnoticed_materialize shelf node id id w hw₀).imp ?_
  rintro r w' ⟨rfl, hw', hk⟩
  refine ⟨?_, ⟨hk, hw'.index⟩, Or.inl ⟨⟨hw'.calm, hw'.permit, trivial⟩, hk.paused.trans hw.2⟩⟩
  exact congrArg (fun v => some (_, v)) (hk.sight.trans hv).symm

lemma Grounds.settles_travel (b : Builder) (budget : Nat) (entry content : String) :
    Run.Settles (repeatable R P A).alone Traversal.StaysProper (travel b budget entry content) :=
  Bundle.settles_travel repeatable_suits.alone A.settles_fetchAll A.settles_materialize b budget entry
    content

/-! ## The index -/

/-- Nobody loads or saves the index, it is loaded or not, and it has some records. -/
structure Rests (loaded : Bool) (d : IndexData) (i : Index) : Prop where
  atRest : i.AtRest
  loaded : i.loaded = loaded
  data : i.data = d

/-- The same while one saves the index. -/
def Saving (ticket : Nat) (loaded : Bool) (d : IndexData) (i : Index) : Prop :=
  i.SavedBy [ticket] ∧ i.loaded = loaded ∧ i.data = d

variable {ticket : Nat} {loaded : Bool} {d : IndexData}

/-- To write the records of the index goes unnoticed, and does not fail. -/
lemma unnoticed_writeSnapshot (path snapshot : String) :
    Unnoticed R P A (Saving ticket loaded d) (Index.writeSnapshot path snapshot)
      fun r => ∃ b, r = .ok b := by
  have hlog : ∀ r, Unnoticed R P A (Saving ticket loaded d) (Task.work (Work.log r))
      FromWorkspace := fun r => .log nofun r
  have hwritten : Unnoticed R P A (Saving ticket loaded d) (do
      Workspace.ensureDirectory path
      Work.write path snapshot
      let files ← Task.work (Routine.gets (·.index.data.size))
      Task.work (Work.log (.indexSaved files))
      Pure.pure true) FromWorkspace := by
    refine Unnoticed.bind (.ensureDirectory path) (fun _ => ?_) fun _ h => h.retype
    refine Unnoticed.bind (Unnoticed.write path snapshot) (fun _ => ?_) fun _ h => h.retype
    refine Unnoticed.step (fun _ => rfl) (fun _ h => ⟨h, rfl⟩) fun s => ?_
    exact (hlog _).bind (fun _ => .pure nofun) fun _ h => h.retype
  refine hwritten.handle (fun f => ?_) fun r hr hnot => ?_
  · refine Unnoticed.step (fun _ => rfl) (fun s h => ⟨?_, rfl⟩) fun s => ?_
    · exact ⟨⟨h.1.savers, h.1.loading, h.1.loads⟩, h.2⟩
    · exact Unnoticed.step (fun _ => rfl) (fun _ h => ⟨h, rfl⟩) fun s => .pure ⟨_, rfl⟩
  · rcases r with f | b
    · obtain ⟨g, rfl⟩ := hr f rfl
      exact absurd rfl (hnot g)
    · exact ⟨b, rfl⟩

/-- One whose turn it is to save writes the records, and leaves the queue. -/
lemma unnoticed_writeTurn (path : String) (snapshot? : Option String) :
    Unnoticed R P A (Saving ticket loaded d) (Task.work (match snapshot? with
      | none => Pure.pure (.ok false)
      | some snapshot => (Index.writeSnapshot path snapshot).run)) fun r => ∃ b, r = .ok (.ok b) := by
  cases snapshot? with
  | none => exact .pure ⟨false, rfl⟩
  | some snapshot =>
    intro me id w hw
    refine (unnoticed_writeSnapshot path snapshot me id w hw).bind ?_
    rintro r w' ⟨⟨b, rfl⟩, h⟩
    exact .done ⟨⟨b, rfl⟩, h⟩

lemma brings_save_turn {w : Users R P} (me id : Nat)
    (hw : Serene (Saving ticket loaded d) w) :
    Brings (A.Lost me) id (do
      let snapshot? ← Task.work (Routine.modifyGet fun s =>
        let (t, i) := s.index.takeSnapshot
        (t, { s with index := i }))
      let path ← Task.work (Routine.gets (·.index.path))
      let written ← Task.work (match snapshot? with
        | none => pure (.ok false)
        | some snapshot => (Index.writeSnapshot path snapshot).run)
      Task.work (Index.change fun i => i.dequeue ticket)
      match written with
      | .ok b => pure b
      | .error f => throw f : Task Bool).run w fun r w' =>
      (∃ b, r = .ok b) ∧ Serene (Rests loaded d) w' ∧
        A.Keeps w w' := by
  have hsnapshot : w.state.index.takeSnapshot.2 =
      { w.state.index with dirty := w.state.index.takeSnapshot.2.dirty } := by
    unfold Index.takeSnapshot
    split <;> rfl
  obtain ⟨⟨hsavers, hloading, hloads⟩, hrest⟩ := hw.index
  obtain ⟨hw₁, hk₁⟩ := Serene.change (ψ := Saving ticket loaded d)
    (s := { w.state with index := w.state.index.takeSnapshot.2 }) hw rfl (by rw [hsnapshot])
    (by rw [hsnapshot]; exact ⟨⟨hsavers, hloading, hloads⟩, hrest⟩)
  refine Brings.step (Brings.step ?_)
  refine (unnoticed_writeTurn _ _ me id _ hw₁).bind ?_
  rintro _ w₂ ⟨⟨b, rfl⟩, hw₂, hk₂⟩
  obtain ⟨⟨hsavers', hloading', hloads'⟩, hrest'⟩ := hw₂.index
  have hleft : Rests loaded d (w₂.state.index.dequeue ticket) := by
    refine ⟨⟨?_, hloading', hloads'⟩, hrest'.1, hrest'.2⟩
    show w₂.state.index.savers.filter (· != ticket) = []
    rw [hsavers']
    simp
  obtain ⟨hw₃, hk₃⟩ := Serene.change (ψ := Rests loaded d)
    (s := { w₂.state with index := w₂.state.index.dequeue ticket }) hw₂ rfl rfl hleft
  refine Brings.step (.done ⟨⟨b, rfl⟩, hw₃, ?_⟩)
  exact hk₁.trans (hk₂.trans hk₃)

/-- To save the index leaves its records as they are. -/
lemma brings_save {w : Users R P} (me id : Nat) (hw : Serene (Rests loaded d) w) :
    Brings (A.Lost me) id Index.save.run w fun r w' =>
      (∃ b, r = .ok b) ∧ Serene (Rests loaded d) w' ∧
        A.Keeps w w' := by
  have hindex := hw.index
  have hqueue : Saving w.state.index.savesBegun loaded d w.state.index.enqueue.2 := by
    refine ⟨⟨?_, hindex.atRest.loading, hindex.atRest.loads⟩, hindex.loaded, hindex.data⟩
    show w.state.index.savers ++ [_] = _
    rw [hindex.atRest.savers]
    rfl
  obtain ⟨hw₁, hk₁⟩ := Serene.change (ψ := Saving w.state.index.savesBegun loaded d)
    (s := { w.state with index := w.state.index.enqueue.2 }) hw rfl rfl hqueue
  -- nobody else wants to save, so that there is nothing to wait for
  refine Brings.step (Brings.wait hw₁.calm.resting ?_ ?_)
  · show (w.state.index.enqueue.2.savers.head? == some w.state.index.savesBegun) = true
    rw [hqueue.1.savers]
    exact beq_self_eq_true _
  · refine (brings_save_turn me id hw₁).imp ?_
    rintro r w' ⟨hr, hw', hk⟩
    exact ⟨hr, hw', hk₁.trans hk⟩

/-- A check tells whether the run is current, and changes nothing. -/
lemma brings_contextIsCurrent {lost : List (Event Question Question.Answer R P) → Prop}
    {w : Users R P} (id : Nat) (hpermit : w.state.permit.checks? = none) (c : Context) :
    Brings lost id (Work.contextIsCurrent c) w fun b w' =>
      (b = true ↔ c.CurrentIn w.state) ∧ w' = w := by
  unfold Work.contextIsCurrent Work.isCurrent
  split
  · next h => exact .done ⟨by simp [Context.CurrentIn, h], rfl⟩
  · next h =>
    have hshow : w.state.permit.show.2 = w.state.permit := by rw [Permit.show, hpermit]
    refine Brings.step (.done ⟨by rw [Context.CurrentIn, h], ?_⟩)
    show { w with state := { w.state with permit := w.state.permit.show.2 } } = w
    rw [hshow]
  · next n epoch h =>
    exact Brings.step (.done ⟨by rw [Context.CurrentIn, h]; simp, rfl⟩)

lemma currentIn_of_outlook {s t : Service} (c : Context) (h : s.outlook = t.outlook) :
    c.CurrentIn s ↔ c.CurrentIn t := by
  obtain ⟨-, hg, he, hp⟩ := Outlook.mk.inj h
  rw [Context.CurrentIn, Context.CurrentIn, hg, he, hp]

/-- To load the index leaves what builds go by as it is; if it was loaded, nothing changes. -/
lemma brings_load {w : Users R P} (me id : Nat) (hw : Serene Index.AtRest w) (hp : w.paused = []) :
    Brings (A.Lost me) id Index.load.run w fun r w' =>
      (w.state.index.loaded = true → r = .ok () ∧ w' = w) ∧
        (r = .ok () → Serene Index.AtRest w' ∧ w'.state.index.loaded = true ∧ A.Keeps w w') := by
  by_cases hloaded : w.state.index.loaded = true
  · have hreq : w.state.index.requestLoad = (.none, w.state.index) := by
      rw [Index.requestLoad, if_pos hloaded]
    refine Brings.step ?_
    simp only [hreq]
    exact .done ⟨fun _ => ⟨rfl, rfl⟩, fun _ => ⟨hw, hloaded, .refl w⟩⟩
  · have hread : ∀ p : Paused Service Question Question.Answer P,
        p.AwaitsLoad { w.state with index := w.state.index.whileLoading } →
        Brings (A.Lost me) w.fresh (Index.readRecords w.state.index.path).run
          { w with
            state := { w.state with index := w.state.index.whileLoading }
            fresh := w.fresh + 1, paused := [p] } fun _ w' =>
          ∃ d, w' = { d with paused := [p] } ∧ d.paused = [] ∧
            d.state.index = w.state.index.whileLoading ∧
            (Serene (fun _ => True) d ∧ d.paused = [] ∧ A.sight d = A.sight w) := by
      intro p hwaits
      have hw₁ : Serene (· = w.state.index.whileLoading) { w with
          state := { w.state with index := w.state.index.whileLoading }
          fresh := w.fresh + 1, paused := [p] } := by
        refine ⟨⟨fun q hq => ?_, hw.calm.inflight, hw.calm.numbers⟩, hw.permit, rfl⟩
        rw [List.mem_singleton.mp hq]
        exact hwaits
      refine (unnoticed_readRecords _ me _ _ hw₁).imp ?_
      rintro r w' ⟨-, hw', hk⟩
      refine ⟨{ w' with paused := [] }, ?_, rfl, hw'.index, ⟨⟨?_, ?_, ?_⟩, hw'.permit, trivial⟩,
        rfl, hk.sight⟩
      · rw [← show w'.paused = [p] from hk.paused]
      · exact List.forall_mem_nil _
      · exact hw'.calm.inflight
      · exact hw'.calm.numbers
    refine (Index.brings_load id hw.index (by simpa using hloaded) hp hread).imp ?_
    rintro _ _ ⟨r, d, journal, ⟨hd, hdp, hsight⟩, rfl, rfl⟩
    refine ⟨fun h => absurd h hloaded, fun h => ⟨⟨⟨?_, hd.calm.inflight, hd.calm.numbers⟩, hd.permit,
      hw.index.afterLoad r⟩, ?_, hdp.trans hp.symm, hsight⟩⟩
    · show ∀ p ∈ d.paused, _
      rw [hdp]
      exact List.forall_mem_nil _
    · cases r with
      | error f => cases h
      | ok records => rfl

/-! ## The whole build -/

section Steps

variable {α : Type} {lost : List (Event Question Question.Answer R P) → Prop} {id : Nat}
  {w : Users R P}

lemma brings_work {x : Work α} {post : α → Users R P → Prop} {t : Traversal}
    (h : Brings lost id x w post) :
    Brings lost id ((Stateful.work x : Traversing α).run t) w fun p w' =>
      ∃ a, p = (.ok a, t) ∧ post a w' :=
  h.bind fun a _ hw => .done ⟨a, rfl, hw⟩

lemma brings_task {x : Task α} {post : Except Fault α → Users R P → Prop} {t : Traversal}
    (h : Brings lost id x.run w post) :
    Brings lost id ((Stateful.task x : Traversing α).run t) w fun p w' =>
      ∃ r, p = (r, t) ∧ post r w' :=
  h.bind fun r _ hw => .done ⟨r, rfl, hw⟩

end Steps

/-- What a finished build leaves of the records of the index, if it uses the index and is current. -/
def Leaves (b : Builder) (complete : Bool) (c : Context) (s : Service) (i j : Index) : Prop :=
  (b.usesIndex = true ∧ complete = true ∧ c.CurrentIn s ∧ j.data = (c.commit i).data) ∨
    (¬ (b.usesIndex = true ∧ complete = true ∧ c.CurrentIn s) ∧ j.data = i.data)

lemma brings_commit {w : Users R P} {i : Index} (me id : Nat) (c : Context)
    (hw : Serene (· = i) w) (hi : i.AtRest) :
    Brings (A.Lost me) id (commit c) w fun b w' =>
      (b = true ↔ c.CurrentIn w.state) ∧ A.Keeps w w' ∧
        Serene (Rests i.loaded (if b then c.commit i else i).data) w' := by
  refine (brings_contextIsCurrent id hw.permit c).bind ?_
  rintro b v ⟨hb, rfl⟩
  have hrest : ∀ j, i.Rewritten j → Rests i.loaded j.data j := fun j hj =>
    ⟨hi.rewritten hj, by rw [hj], rfl⟩
  cases b with
  | false =>
    obtain ⟨hw₁, hk₁⟩ := hw.change (A := A) (ψ := Rests i.loaded i.data)
      (s := { v.state with journal := .commitDiscarded c.target c.generation :: v.state.journal })
      rfl rfl (hw.index ▸ hrest i rfl)
    exact Brings.step (.done ⟨hb, hk₁, hw₁⟩)
  | true =>
    have hcommit : Rests i.loaded (c.commit i).data (c.commit v.state.index) := by
      rw [hw.index]
      exact hrest _ (c.rewritten_commit i)
    obtain ⟨hw₁, hk₁⟩ := hw.change (A := A) (ψ := Rests i.loaded (c.commit i).data)
      (s := { v.state with index := c.commit v.state.index }) rfl
      (by rw [c.rewritten_commit v.state.index]) hcommit
    exact Brings.step (.done ⟨hb, hk₁, hw₁⟩)

lemma brings_finish {w : Users R P} {i : Index} (me id : Nat) (b : Builder) (entry : String)
    (t : Traversal) (hw : Serene (· = i) w) (hi : i.AtRest) :
    Brings (A.Lost me) id ((finish b entry).run t) w fun p w' =>
      p = (.ok (), { t with context := { t.context with bundle? := some t.bundle } }) ∧
      Serene Index.AtRest w' ∧ w'.state.index.loaded = i.loaded ∧ A.Keeps w w' ∧
      Leaves b true p.2.context w.state i w'.state.index := by
  obtain ⟨hw₁, hk₁⟩ := hw.change (A := A) (ψ := (· = i))
    (s := { w.state with journal := .buildDone entry t.bundle.size t.fetched.length :: w.state.journal })
    rfl rfl hw.index
  refine Brings.step ?_
  cases hb : b.usesIndex with
  | false =>
    refine .done ⟨rfl, ⟨hw₁.calm, hw₁.permit, ?_⟩, ?_, hk₁, Or.inr ⟨by simp [hb], ?_⟩⟩
    all_goals rw [hw₁.index]
    exact hi
  | true =>
    show Brings (A.Lost me) id ((Stateful.work (commit { t.context with bundle? := some t.bundle }) >>=
      fun committed => if committed then (do let _ ← Stateful.task Index.save) else pure () :
        Traversing Unit).run { t with context := { t.context with bundle? := some t.bundle } }) _ _
    generalize ({ t.context with bundle? := some t.bundle } : Context) = c
    rw [Run.run_bind]
    refine (brings_work (brings_commit me id c hw₁ hi)).bind ?_
    rintro _ w₂ ⟨committed, rfl, hcurrent, hk₂, hw₂⟩
    cases committed with
    | false =>
      refine .done ⟨rfl, ⟨hw₂.calm, hw₂.permit, hw₂.index.atRest⟩, hw₂.index.loaded, hk₁.trans hk₂,
        Or.inr ⟨fun h => ?_, hw₂.index.data⟩⟩
      exact nomatch hcurrent.mpr h.2.2
    | true =>
      show Brings (A.Lost me) id
        ((Stateful.task Index.save >>= fun _ => pure () : Traversing Unit).run _) _ _
      rw [Run.run_bind]
      refine (brings_task (brings_save me id hw₂)).bind ?_
      rintro _ w₃ ⟨_, rfl, ⟨written, rfl⟩, hw₃, hk₃⟩
      exact .done ⟨rfl, ⟨hw₃.calm, hw₃.permit, hw₃.index.atRest⟩, hw₃.index.loaded,
        hk₁.trans (hk₂.trans hk₃), Or.inl ⟨hb, rfl, hcurrent.mp rfl, hw₃.index.data⟩⟩

lemma Leaves.of_outlook {b : Builder} {complete : Bool} {c : Context} {s t : Service} {i j : Index}
    (h : Leaves b complete c s i j) (ho : s.outlook = t.outlook) : Leaves b complete c t i j := by
  rw [Leaves, ← currentIn_of_outlook c ho]
  exact h

/-- After its last level a build comes to its end with the bundle, leaves what builds go by as it is,
and leaves the records of the index as it should. -/
lemma brings_arrive {w : Users R P} {i : Index} (me id : Nat) (b : Builder) (entry : String)
    (complete : Bool) (t : Traversal) (hw : Serene (· = i) w) (hi : i.AtRest) :
    Brings (A.Lost me) id ((arrive b entry complete).run t) w fun p w' =>
      p = (.ok t.bundle, if complete then
        { t with context := { t.context with bundle? := some t.bundle } } else t) ∧
      Serene Index.AtRest w' ∧ w'.state.index.loaded = i.loaded ∧ A.Keeps w w' ∧
      Leaves b complete p.2.context w.state i w'.state.index := by
  cases complete with
  | false =>
    refine .done ⟨rfl, ⟨hw.calm, hw.permit, ?_⟩, ?_, .refl w, Or.inr ⟨by simp, ?_⟩⟩
    all_goals rw [hw.index]
    exact hi
  | true =>
    refine (brings_finish me id b entry t hw hi).bind ?_
    rintro _ w' ⟨rfl, h⟩
    exact .done ⟨rfl, h⟩

/-- Once the index is loaded, or if it is not used, a build comes to an end that hangs only on what
builds go by. -/
theorem exists_outcome (R P : Type) (A : Grounds) (b : Builder) (budget : Nat) (entry content : String)
    (c : Context) (v : Outlook × (PackageKey → Except Fault Node)) :
    ∃ (r : Except Fault Bundle × Context) (complete : Bool), ∀ id (w : Users R P),
      Serene Index.AtRest w → w.paused = [] → A.sight w = v →
      Brings (A.Lost id) id
        ((travel b budget entry content >>= arrive b entry).run { context := c }) w
        fun p w' => (p.1, p.2.context) = r ∧ (c.Proper → r.2.Proper) ∧ Serene Index.AtRest w' ∧
          w'.state.index.loaded = w.state.index.loaded ∧ A.Keeps w w' ∧
          ((∃ f, r.1 = .error f) ∨ Leaves b complete r.2 w.state w.state.index w'.state.index) := by
  obtain ⟨r, hr⟩ := @Grounds.settles_travel R P A b budget entry content { context := c } v
  -- the way to the last level leaves the index as it is
  have htravel : ∀ n (w : Users R P), Serene Index.AtRest w → w.paused = [] → A.sight w = v →
      Brings (A.Lost n) n ((travel b budget entry content).run { context := c }) w fun p w' =>
        (∃ v', r = some (p, v')) ∧ (c.Proper → p.2.context.Proper) ∧
          Serene (· = w.state.index) w' ∧ A.Keeps w w' := by
    intro n w hw hp hv
    refine (hr n w ⟨⟨hw.calm, hw.permit, trivial⟩, hp⟩ hv).imp ?_
    rintro p w' ⟨hp', ⟨hk, hindex⟩, hstays, hw'⟩
    have hw' : (repeatable R P A).alone.holds w' := hw'.elim id fun ⟨_, _, hno⟩ => hno.elim
    exact ⟨⟨_, hp'⟩, hstays, ⟨hw'.1.calm, hw'.1.permit, hindex⟩, hk⟩
  rcases r with _ | ⟨⟨f | complete, t⟩, v'⟩
  · -- such a build is lost
    refine ⟨(.error .exhausted, c), false, fun n w hw hp hv => ?_⟩
    rw [Run.run_bind]
    refine (htravel n w hw hp hv).bind ?_
    rintro _ _ ⟨⟨_, hno⟩, -⟩
    exact nomatch hno
  · refine ⟨(.error f, t.context), false, fun n w hw hp hv => ?_⟩
    rw [Run.run_bind]
    refine (htravel n w hw hp hv).bind ?_
    rintro _ w' ⟨⟨_, ⟨⟩⟩, hproper, hw', hk⟩
    refine .done ⟨rfl, hproper, ⟨hw'.calm, hw'.permit, ?_⟩, ?_, hk, Or.inl ⟨f, rfl⟩⟩
    · rw [hw'.index]
      exact hw.index
    · rw [hw'.index]
  · refine ⟨(.ok t.bundle, if complete then { t.context with bundle? := some t.bundle } else t.context),
      complete, fun n w hw hp hv => ?_⟩
    rw [Run.run_bind]
    refine (htravel n w hw hp hv).bind ?_
    rintro _ w' ⟨⟨_, ⟨⟩⟩, hproper, hw', hk⟩
    refine (brings_arrive n n b entry complete t hw' hw.index).imp ?_
    rintro _ w'' ⟨rfl, hw'', hloaded, hk', hleaves⟩
    refine ⟨by cases complete <;> rfl, ?_, hw'', hloaded, hk.trans hk', Or.inr ?_⟩
    · cases complete with
      | false => exact hproper
      | true => exact fun hc => (hproper hc).of_records rfl
    · have hleaves := hleaves.of_outlook (congrArg Prod.fst hk.sight)
      cases complete <;> exact hleaves

/-- What a build returns when it has run by itself. -/
lemma brings_build {w : Users R P} {lost : List (Event Question Question.Answer R P) → Prop} {id : Nat}
    {b : Builder} {budget : Nat} {entry content : String} {c : Context}
    {post : Except Fault Bundle × Context → Users R P → Prop}
    (h : Brings lost id ((run b budget entry content).run { context := c }) w fun p w' =>
      post (p.1, p.2.context) w') :
    Brings lost id (build b budget entry content c) w post :=
  h.bind fun _ _ hp => .done hp

/-- The index need not be loaded for a build. -/
def Builder.Ready (b : Builder) (i : Index) : Prop := b.usesIndex = true → i.loaded = true

/-- A build that begins by itself in circumstances in which it may be repeated: it fails to load the
index, or comes to an end that hangs only on what builds go by. -/
theorem exists_outcome_build (R P : Type) (A : Grounds) (b : Builder) (budget : Nat)
    (entry content : String) (c : Context) (v : Outlook × (PackageKey → Except Fault Node)) :
    ∃ (r : Except Fault Bundle × Context) (complete : Bool), ∀ id (w : Users R P),
      Serene Index.AtRest w → w.paused = [] → A.sight w = v →
      Brings (A.Lost id) id (build b budget entry content c) w fun r' w' =>
        (¬ b.Ready w.state.index ∧ ∃ f, r'.1 = .error f) ∨
        r' = r ∧ (c.Proper → r.2.Proper) ∧ Serene Index.AtRest w' ∧ A.Keeps w w' ∧
          b.Ready w'.state.index ∧ ((∃ f, r.1 = .error f) ∨
            ∃ i, (b.Ready w.state.index → i = w.state.index) ∧
              Leaves b complete r.2 w.state i w'.state.index) := by
  obtain ⟨r, complete, hr⟩ := exists_outcome R P A b budget entry content c v
  refine ⟨r, complete, fun id w hw hp hv => brings_build ?_⟩
  cases hb : b.usesIndex with
  | false =>
    rw [run_of_not_usesIndex hb]
    refine (hr id w hw hp hv).imp ?_
    rintro p w' ⟨hpr, hproper, hw', hloaded, hk, hleaves⟩
    refine Or.inr ⟨hpr, hproper, hw', hk, fun h => ?_, hleaves.imp_right fun h => ⟨_, fun _ => rfl, h⟩⟩
    rw [hb] at h
    cases h
  | true =>
    rw [run_of_usesIndex hb, Run.run_bind]
    refine (brings_task (brings_load id id hw hp)).bind ?_
    rintro _ w₁ ⟨r₁, rfl, hloaded, hok⟩
    rcases r₁ with f | u
    · refine .done (Or.inl ⟨fun hready => ?_, f, rfl⟩)
      exact nomatch (hloaded (hready hb)).1
    · obtain ⟨hw₁, hl₁, hk₁⟩ := hok rfl
      refine (hr id w₁ hw₁ (hk₁.paused.trans hp) (hk₁.sight.trans hv)).imp ?_
      rintro p w' ⟨hpr, hproper, hw', hl', hk', hleaves⟩
      refine Or.inr ⟨hpr, hproper, hw', hk₁.trans hk', fun _ => hl'.trans hl₁,
        hleaves.imp_right fun h => ⟨_, fun hready => ?_, h.of_outlook (congrArg Prod.fst hk₁.sight)⟩⟩
      rw [(hloaded (hready hb)).2]

/-- To build again leaves the same records in the index. -/
lemma Leaves.again {b : Builder} {complete : Bool} {c : Context} {s : Service} {i j k : Index}
    (h : Leaves b complete c s i j) (hc : c.Proper) (h' : Leaves b complete c s j k) :
    k.data = j.data := by
  rcases h with ⟨hb, hcomplete, hcurrent, hdata⟩ | ⟨hnot, -⟩
  · rcases h' with ⟨-, -, -, hdata'⟩ | ⟨-, hdata'⟩
    · rw [hdata', c.commit_again hc hdata]
    · exact hdata'
  · rcases h' with ⟨hb, hcomplete, hcurrent, -⟩ | ⟨-, hdata'⟩
    · exact absurd ⟨hb, hcomplete, hcurrent⟩ hnot
    · exact hdata'

lemma proper_of_records {c : Context} (hc : c.records = ∅) : c.Proper := by
  intro file literal path h
  rw [Context.recordOf, hc] at h
  cases h

/-- Asked for twice by itself, a build that succeeds comes to the same bundle the second time, with the
same notes of the run, and leaves the same records in the index, unless an answer is not as it should be
or one of the two has read a place of the workspace that may have changed. -/
theorem build_again {s : Service} (hs : s.Idle) (hpermit : s.permit.checks? = none) (A : Grounds)
    (b : Builder) (budget : Nat) (entry content : String) {c : Context} (hc : c.records = ∅) :
    Inevitable (fun w => A.Lost 0 w.history ∨ ∃ r h, w.history = .returned 0 r :: h ∧
        ∀ bundle, r.1 = .ok bundle →
          Inevitable (fun w' => A.Lost w.fresh w'.history ∨
              ∃ h', w'.history = .returned w.fresh r :: h' ∧
                w'.state.index.data = w.state.index.data)
            (w.call (fun _ => build b budget entry content c) ()))
      (started s (build b budget entry content c)) := by
  obtain ⟨r, complete, hr⟩ := exists_outcome_build Unit (Except Fault Bundle × Context) A b budget entry
    content c (s.outlook, s.cache.supply A.fetch)
  have hcalled : ∀ w : Users Unit (Except Fault Bundle × Context), Serene Index.AtRest w →
      w.paused = [] → Serene Index.AtRest
        { w with fresh := w.fresh + 1, history := .begun w.fresh () :: w.history } := fun w hw hp =>
    ⟨⟨hw.calm.waits, hw.calm.inflight, hw.calm.numbers⟩, hw.permit, hw.index⟩
  have hstart : Serene Index.AtRest ({ state := s } : Users Unit (Except Fault Bundle × Context)) :=
    ⟨⟨List.forall_mem_nil _, hs.inflight, hs.numbers⟩, hpermit, hs.index⟩
  have hfirst := hr 0 _ (hcalled _ hstart rfl) rfl rfl _ .done some
  rw [Routine.bind_done] at hfirst
  refine hfirst.imp fun w hw => hw.imp_right ?_
  rintro ⟨r', w₁, ⟨-, f, hf⟩ | ⟨rfl, hproper, hw₁, hk₁, hready, hleaves⟩, rfl⟩
  · refine ⟨r', w₁.history, rfl, fun bundle hok => ?_⟩
    rw [hf] at hok
    cases hok
  refine ⟨r', w₁.history, rfl, fun bundle hok => ?_⟩
  have hsucceeds : ¬ ∃ f, r'.1 = .error f := by
    rintro ⟨f, hf⟩
    rw [hok] at hf
    cases hf
  obtain ⟨i, -, hleaves⟩ := hleaves.resolve_left hsucceeds
  have hsecond := hr w₁.fresh _ (hcalled _ (hw₁.of_history (.returned 0 r' :: w₁.history)) hk₁.paused)
    hk₁.paused hk₁.sight _ .done some
  rw [Routine.bind_done] at hsecond
  refine hsecond.imp fun w hw => hw.imp_right ?_
  rintro ⟨r'', w₂, ⟨hnot, -⟩ | ⟨rfl, -, -, -, -, hleaves'⟩, rfl⟩
  · exact absurd hready hnot
  obtain ⟨j, hj, hleaves'⟩ := hleaves'.resolve_left hsucceeds
  obtain rfl := hj hready
  refine ⟨w₂.history, rfl, ?_⟩
  exact (hleaves.again (hproper (proper_of_records hc)) (hleaves'.of_outlook (congrArg Prod.fst hk₁.sight)))

/-! ## A package that is imported by its place -/

/-- A registry with one package, whose packages are written to an empty workspace. -/
def lonelyWorld : Scenario.World where
  service := { settings := {}, index := { path := ".deps/index.json", loaded := true } }
  store := .memory (.ofFiles [])
  catalog := Table.empty.insert "p" (Table.empty.insert "1.0.0"
    ((Table.empty.insert "A.sol" "").insert "B.sol" ""))
  failures := []
  cues := []
  builder := ⟨0, some [], true⟩
  budget := 8

/-- The build of a source with a single import. -/
def buildLonely (literal : String) : Work (Except Fault Bundle × Context) :=
  build lonelyWorld.builder lonelyWorld.budget "m.sol" ("import \"" ++ literal ++ "\";")
    { target := "m.sol" }

lemma idle_lonelyWorld : lonelyWorld.service.Idle where
  inflight _ := rfl
  numbers := nofun
  index := ⟨rfl, Or.inl rfl, nofun⟩

/-- What a build can rely on in this world, where all below the directory of fetched things may
change. -/
def lonelyGrounds : Grounds where
  shifting path := ".deps".toList <+: path.toList
  fetch key := (Scenario.reply lonelyWorld (.files key.name key.version)).1
  versions name := (Scenario.reply lonelyWorld (.versions name)).1
  probe _ := .ok false
  read path := .error ⟨"not found", path⟩

/-- To build a source again that imports a file of the package by its name. -/
theorem build_again_lonely :
    lonelyWorld.service.Idle ∧ lonelyWorld.service.permit.checks? = none ∧
      Inevitable (fun w => lonelyGrounds.Lost 0 w.history ∨ ∃ r h, w.history = .returned 0 r :: h ∧
        ∀ bundle, r.1 = .ok bundle →
          Inevitable (fun w' => lonelyGrounds.Lost w.fresh w'.history ∨
              ∃ h', w'.history = .returned w.fresh r :: h' ∧
                w'.state.index.data = w.state.index.data)
            (w.call (fun _ => buildLonely "p/A.sol") ()))
      (started lonelyWorld.service (buildLonely "p/A.sol")) :=
  ⟨idle_lonelyWorld, rfl, build_again idle_lonelyWorld rfl lonelyGrounds _ _ _ _ rfl⟩

/-- The bundle of a build that has returned last. -/
def lastBundle? : List (Event Question Question.Answer Unit (Except Fault Bundle × Context)) →
    Option Bundle
  | .returned _ (.ok bundle, _) :: _ => some bundle
  | _ => none

/-- To build again does not always come to the same bundle: a source that imports a file of the package
by its place is bundled with all files of the package the first time, and with the imported one only
the second time. -/
theorem not_build_again_lonely :
    ¬ ∀ (world : Scenario.World) (b : Builder) (budget : Nat) (entry content : String) (c : Context)
      (ns ms : List Nat) (w w' : Crowd Service Question Question.Answer Unit _) (bundle : Bundle),
      world.service.Idle → world.service.permit.checks? = none → c.records = ∅ →
      (started world.service (build b budget entry content c)).play world ns = some w →
      lastBundle? w.history = some bundle →
      (w.call (fun _ => build b budget entry content c) ()).play world ms = some w' →
      w'.paused = [] → lastBundle? w'.history = some bundle := by
  intro hall
  have hplayed : (((started lonelyWorld.service (buildLonely ".deps/npm/p@1.0.0/A.sol")).play lonelyWorld
      [0, 0, 0, 0, 1, 0, 0, 0, 0, 0, 0, 0, 0]).bind fun w =>
        ((w.call (fun _ => buildLonely ".deps/npm/p@1.0.0/A.sol") ()).play lonelyWorld
          [0, 0, 0, 0, 0, 0, 0]).map fun w' => ((lastBundle? w.history).map Table.keys,
            (lastBundle? w'.history).map Table.keys, w'.paused.isEmpty)) =
      some (some ["m.sol", ".deps/npm/p@1.0.0/A.sol", ".deps/npm/p@1.0.0/B.sol"],
        some ["m.sol", ".deps/npm/p@1.0.0/A.sol"], true) := by
    decide +kernel
  obtain ⟨w, hw, hplayed⟩ := Option.bind_eq_some_iff.mp hplayed
  obtain ⟨w', hw', hplayed⟩ := Option.map_eq_some_iff.mp hplayed
  obtain ⟨hfirst, hrest⟩ := Prod.mk.inj hplayed
  obtain ⟨hsecond, hempty⟩ := Prod.mk.inj hrest
  obtain ⟨bundle, hbundle, hkeys⟩ := Option.map_eq_some_iff.mp hfirst
  have hsame := hall lonelyWorld _ _ _ _ _ _ _ w w' bundle idle_lonelyWorld rfl rfl hw hbundle hw'
    (List.isEmpty_iff.mp hempty)
  rw [hsame, Option.map_some, hkeys] at hsecond
  exact absurd hsecond (by decide)

end Bundle

end SourceBundle
