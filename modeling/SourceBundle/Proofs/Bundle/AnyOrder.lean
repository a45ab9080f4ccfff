/-
# Fetches in any order

The packages of a level are fetched together, and the fetches may come back in any order.  What a
build that nobody disturbs comes to does not hang on this order: not the bundle, not what the run has
noted, not the index, and not the fault when fetches fail, which is that of the first package in the
order of the keys.
-/
import SourceBundle.Proofs.Bundle.Settled

namespace SourceBundle

open Crowd

/-- Whether a question is one for the files of a package. -/
def Question.isFiles : Question → Bool
  | .files _ _ => true
  | _ => false

/-- The service without what the order of fetches leaves its mark on: the cache, the deliveries and
the journal. -/
def Service.core (s : Service) : Service :=
  { s with cache := {}, delivered := [], deliveries := 0, journal := [] }

namespace Bundle

variable {R P : Type}

/-- The questions that have been put, those for the files of packages apart, newest first. -/
def asked : List (Event Question Question.Answer R P) → List Question
  | [] => []
  | .put _ q :: h => if q.isFiles then asked h else q :: asked h
  | _ :: h => asked h

/-- How collaborators answer: each package has its files, and all other answers hang on the questions
that have been put before. -/
structure Replies where
  /-- The files of each package. -/
  fetch : PackageKey → Except Fault (Table String String)
  /-- The answer to the newest of some questions. -/
  reply : List Question → (q : Question) → q.Answer

/-- Whether an answer is the one that collaborators give. -/
def Replies.Fits (A : Replies) (h : List (Event Question Question.Answer R P)) :
    (q : Question) → q.Answer → Prop
  | .files name version, a => a = A.fetch ⟨name, version⟩
  | q, a => a = A.reply (asked h) q

/-- Some answer is not the one that collaborators give. -/
def Replies.Strays (A : Replies) : List (Event Question Question.Answer R P) → Prop
  | [] => False
  | .answered _ q a :: h => ¬ A.Fits h q a ∨ A.Strays h
  | _ :: h => A.Strays h

/-- No fetch has failed. -/
def Unfailing (h : List (Event Question Question.Answer R P)) : Prop :=
  ∀ id (key : PackageKey) f, .answered id (.files key.name key.version) (.error f) ∉ h

/-- The fault of the first package in the order of the keys of those that could not be fetched. -/
def FirstFault (f : Fault) (h : List (Event Question Question.Answer R P)) : Prop :=
  ∃ first : PackageKey, (∃ id, .answered id (.files first.name first.version) (.error f) ∈ h) ∧
    ∀ id (key : PackageKey) f', .answered id (.files key.name key.version) (.error f') ∈ h →
      first.le key = true

variable {A : Replies} {φ : Index → Prop}

lemma final_strays : Final (R := R) (P := P) A.Strays := by
  intro e h hl
  cases e with
  | answered id q a => exact Or.inr hl
  | begun id r => exact hl
  | put id q => exact hl
  | returned id p => exact hl

lemma isPlain_fits {q : Question} (hq : q.isPlain = true)
    {h : List (Event Question Question.Answer R P)} {a : q.Answer} :
    A.Fits h q a ↔ a = A.reply (asked h) q := by
  cases q with
  | files name version => cases hq
  | _ => rfl

lemma asked_put {q : Question} (hq : q.isPlain = true) (id : Nat)
    (h : List (Event Question Question.Answer R P)) : asked (.put id q :: h) = q :: asked h := by
  cases q with
  | files name version => cases hq
  | _ => rfl

/-- The circumstances in which a build runs that nobody disturbs. -/
def undisturbed (R P : Type) (A : Replies) (φ : Index → Prop) :
    Setting Service Question Question.Answer R P Fault
      (Service × (PackageKey → Except Fault Node) × List Question) where
  lost _ := A.Strays
  see w := (w.state.core, w.state.cache.supply A.fetch, asked w.history)
  holds w := w.Calm ∧ φ w.state.index ∧ Unfailing w.history
  blamed _ _ := False
  keeps w w' := w'.paused = w.paused
  final _ := final_strays
  refl _ := rfl
  trans h h' := h'.trans h

lemma core_of_noted {s t s' t' : Service} (h : s.core = t.core) (hs : Noted s s') (ht : Noted t t')
    (ho : s'.outlook = t'.outlook) : s'.core = t'.core := by
  have hpermit : s'.permit = t'.permit := congrArg Outlook.permit ho
  rw [hs.rest, ht.rest, hpermit]
  show { s.core with permit := t'.permit } = { t.core with permit := t'.permit }
  rw [h]

/-- The circumstances suit plain work. -/
lemma undisturbed_suits :
    (undisturbed R P A φ).Suits (plainly true fun _ => False) fun _ _ => False where
  rests w hw := hw.1.resting
  view w v h := by
    have hcore : w.state.core = v.state.core := congrArg Prod.fst h
    show w.state.core.outlook = v.state.core.outlook
    rw [hcore]
  change w s hw hm := by
    have hindex : s.index = w.state.index := by rw [hm.rest]
    refine ⟨⟨hw.1.noted hm, ?_, hw.2.2⟩, rfl⟩
    show φ s.index
    rw [hindex]
    exact hw.2.1
  sees w v s t _ _ h hs ht hv := by
    obtain ⟨hcore, hrest⟩ := Prod.mk.inj h
    have hcs : s.cache = w.state.cache := by rw [hs.rest]
    have hct : t.cache = v.state.cache := by rw [ht.rest]
    show (s.core, s.cache.supply A.fetch, asked w.history) =
      (t.core, t.cache.supply A.fetch, asked v.history)
    rw [core_of_noted hcore hs ht hv, hcs, hct]
    exact congrArg _ hrest
  answers v q hq := by
    obtain ⟨core, supply, qs⟩ := v
    refine ⟨A.reply (q :: qs) q, (core, supply, q :: qs), fun id w hw hv a => ?_⟩
    obtain ⟨hcore, hrest⟩ := Prod.mk.inj hv
    obtain ⟨hsupply, hasked⟩ := Prod.mk.inj hrest
    have hput : asked (.put id q :: w.history) = q :: qs := by
      rw [asked_put hq.1, hasked]
    by_cases ha : a = A.reply (q :: qs) q
    · right
      refine ⟨⟨⟨hw.1.waits, hw.1.inflight, hw.1.numbers⟩, hw.2.1, ?_⟩, rfl, Or.inl ⟨ha, ?_⟩⟩
      · intro id' key f hmem
        rcases List.mem_cons.mp hmem with he | hmem
        · cases he
          cases hq.1
        · rcases List.mem_cons.mp hmem with he | hmem
          · cases he
          · exact hw.2.2 id' key f hmem
      · show (w.state.core, w.state.cache.supply A.fetch, asked (.put id q :: w.history)) = _
        rw [hput]
        exact congrArg₂ Prod.mk hcore (congrArg₂ Prod.mk hsupply rfl)
    · refine Or.inl (Or.inl ?_)
      rw [isPlain_fits hq.1, hput]
      exact ha
  fated_change _ _ _ h := h
  fated_settles _ _ _ _ h _ := h.elim
  fated_again _ _ _ _ h := h.elim

/-! ## The fetches of a level -/

/-- The circumstances in which a build runs that nobody disturbs, when its fetches may fail. -/
def building (R P : Type) (A : Replies) : Setting Service Question Question.Answer R P Fault
    (Service × (PackageKey → Except Fault Node) × List Question) :=
  { (undisturbed R P A Index.AtRest).alone with
    blamed := fun f w => w.Calm ∧ w.state.index.AtRest ∧ w.paused = [] ∧ FirstFault f w.history }

lemma building_suits :
    (building R P A).Suits (plainly true fun _ => False) fun _ _ => False :=
  { undisturbed_suits.alone with }

lemma strays_of_fetch (id : Nat) (key : PackageKey) (a : Except Fault (Table String String))
    (h : List (Event Question Question.Answer R P)) (ha : a ≠ A.fetch key) :
    A.Strays (.answered id (.files key.name key.version) a :: h) := Or.inl ha

/-- Fetches leave no mark on the other questions. -/
lemma asked_append {news h : List (Event Question Question.Answer R P)} {c : Cache}
    {keys : List PackageKey} {es : List Cache.Errand}
    (hn : Cache.Told A.fetch c keys es news) : asked (news ++ h) = asked h := by
  have honly := hn.only
  clear hn
  induction news with
  | nil => rfl
  | cons e news ih =>
    obtain ⟨⟨id, key, -, -, rfl | rfl⟩, hrest⟩ := List.forall_mem_cons.mp honly
    · exact ih hrest
    · exact ih hrest

/-- What the history tells of a failed fetch. -/
lemma supply_of_failed {news : List (Event Question Question.Answer R P)} {c : Cache}
    {keys : List PackageKey} {es : List Cache.Errand} (hn : Cache.Told A.fetch c keys es news)
    {id : Nat} {key : PackageKey} {f : Fault}
    (hmem : .answered id (.files key.name key.version) (.error f) ∈ news) :
    key ∈ keys ∧ c.supply A.fetch key = .error f := by
  obtain ⟨id', key', hkey, hsupply, he | he⟩ := hn.only _ hmem
  · cases he
  · obtain ⟨name, version⟩ := key
    obtain ⟨name', version'⟩ := key'
    generalize hfetch : A.fetch ⟨name', version'⟩ = a at he
    cases he
    refine ⟨hkey, ?_⟩
    rw [hsupply, hfetch]
    rfl

lemma settles_fetchAll (t : Traversal) :
    Attempt.Settles (building R P A) (Cache.fetchAll t.newKeys) := by
  rintro ⟨core, supply, qs⟩
  refine ⟨some ((t.newKeys.map supply).mapM id, core, supply, qs), fun n w hw hv => ?_⟩
  obtain ⟨⟨hcalm, hrest, hunfailing⟩, hpaused⟩ := hw
  obtain ⟨hcore, hv⟩ := Prod.mk.inj hv
  obtain ⟨hsupply, hasked⟩ := Prod.mk.inj hv
  refine (Cache.brings_fetchAll n final_strays strays_of_fetch t.nodup_newKeys hpaused
    hcalm.inflight hcalm.numbers).imp ?_
  rintro r w' ⟨rfl, hg⟩
  obtain ⟨news, hh, ht⟩ := hg.history
  have hcalm' : w'.Calm := by
    refine ⟨?_, hg.inflight, hg.numbers⟩
    rw [hg.paused]
    exact List.forall_mem_nil _
  have hrest' : w'.state.index.AtRest := by
    rw [hg.rest]
    exact hrest
  have hcore' : w'.state.core = core := by
    rw [hg.rest]
    exact hcore
  refine ⟨?_, hg.paused.trans hpaused.symm, ?_⟩
  · show _ = some (_, w'.state.core, w'.state.cache.supply A.fetch, asked w'.history)
    rw [hcore', hg.supply, hsupply, hh, asked_append ht, hasked]
  · rcases @Cache.mapM_supply (w.state.cache.supply A.fetch) t.newKeys with
      ⟨nodes, -, hall⟩ | ⟨f, front, key, back, hm, hkeys, hkey, hfront⟩
    · refine Or.inl ⟨⟨hcalm', hrest', fun id key f hmem => ?_⟩, hg.paused⟩
      rw [hh] at hmem
      rcases List.mem_append.mp hmem with hmem | hmem
      · obtain ⟨hkey, hfailed⟩ := supply_of_failed ht hmem
        obtain ⟨n, hn⟩ := hall key hkey
        rw [hn] at hfailed
        cases hfailed
      · exact hunfailing id key f hmem
    · refine Or.inr ⟨f, hm, hcalm', hrest', hg.paused, key, ?_, fun id key' f' hmem => ?_⟩
      · have hmem : key ∈ t.newKeys := by
          rw [hkeys]
          exact List.mem_append_right _ List.mem_cons_self
        rcases ht.failed key hmem f hkey with ⟨e, he, -⟩ | ⟨id, hmem⟩
        · cases he
        · rw [hh]
          exact ⟨id, List.mem_append_left _ hmem⟩
      · rw [hh] at hmem
        rcases List.mem_append.mp hmem with hmem | hmem
        · obtain ⟨hkey', hfailed⟩ := supply_of_failed ht hmem
          have hsorted := t.pairwise_newKeys
          rw [hkeys] at hkey' hsorted
          rcases List.mem_append.mp hkey' with hin | hin
          · obtain ⟨n, hn⟩ := hfront key' hin
            rw [hn] at hfailed
            cases hfailed
          · rcases List.mem_cons.mp hin with rfl | hin
            · exact key'.le_self
            · exact (List.pairwise_cons.mp (List.pairwise_append.mp hsorted).2.1).1 key' hin
        · exact absurd hmem (hunfailing id key' f')

/-! ## Changes of the service -/

section Changes

variable {α : Type} {pre : Users R P → Prop}

/-- What cannot fail with a fetch is settled whether or not others can. -/
lemma settles_of_undisturbed {x : Task α}
    (h : Attempt.Settles (undisturbed R P A Index.AtRest).alone x) :
    Attempt.Settles (building R P A) x := by
  have hx : x.run.Settles (building R P A) (building R P A).holds
    (undisturbed R P A Index.AtRest).alone.After := h
  refine hx.imp (fun _ hw => hw) fun r w hw => Or.inl (hw.elim id ?_)
  rintro ⟨_, -, hno⟩
  exact hno.elim

lemma settles_work {W : Setting Service Question Question.Answer R P Fault
    (Service × (PackageKey → Except Fault Node) × List Question)} {x : Work α}
    (h : x.Settles W W.holds fun _ w => W.holds w) : Attempt.Settles W (Task.work x) :=
  h.bind fun _ => .done fun _ hw => Or.inl hw

/-- A failure of the workspace that is answered is settled if the answer is. -/
lemma settles_handle_workspace {x : Task α} {k : WorkspaceFault → Task α}
    (hx : Attempt.Settles (undisturbed R P A φ).alone x)
    (hk : ∀ f, Attempt.Settles (undisturbed R P A φ).alone (k f)) :
    Attempt.Settles (undisturbed R P A φ).alone
      (Task.handle x fun | .workspace f => some (k f) | _ => none) := by
  refine hx.tryCatch (fun _ _ h => h) fun f => ?_
  cases f with
  | workspace f => exact hk f
  | _ => exact Attempt.Settles.throw _

/-- A change that the core of the service sees is settled. -/
lemma settles_modify (φ : Index → Prop) {f : Service → Service} {post : Unit → Users R P → Prop}
    (hcore : ∀ s t, s.core = t.core → (f s).core = (f t).core)
    (hcache : ∀ s, (f s).cache = s.cache)
    (hpost : ∀ w, pre w → post () { w with state := f w.state }) :
    (Routine.modify f : Work Unit).Settles (undisturbed R P A φ) pre post := by
  refine .modify (fun w v _ _ h => ?_) fun w hw => ⟨rfl, hpost w hw⟩
  obtain ⟨hc, hrest⟩ := Prod.mk.inj h
  show ((f w.state).core, (f w.state).cache.supply A.fetch, asked w.history) =
    ((f v.state).core, (f v.state).cache.supply A.fetch, asked v.history)
  rw [hcore _ _ hc, hcache, hcache]
  exact congrArg _ hrest

/-- A change of the index is settled. -/
lemma settles_change (φ : Index → Prop) {post : Unit → Users R P → Prop} (f : Index → Index)
    (hpost : ∀ w, pre w → post () { w with state := { w.state with index := f w.state.index } }) :
    (Index.change f).Settles (undisturbed R P A φ) pre post := by
  refine settles_modify φ (fun s t h => ?_) (fun _ => rfl) hpost
  show { s.core with index := f s.core.index } = { t.core with index := f t.core.index }
  rw [h]

/-- Work that reads the service and goes on by its core is settled. -/
lemma settles_read (φ : Index → Prop) (pre' : Service → Users R P → Prop) {f : Service → Service}
    {k : Service → Work α} {post : α → Users R P → Prop} (hk : ∀ s, k s = k s.core)
    (hcore : ∀ s t, s.core = t.core → (f s).core = (f t).core)
    (hcache : ∀ s, (f s).cache = s.cache)
    (hpre : ∀ w s, pre w → w.state.core = s.core → pre' s { w with state := f w.state })
    (h : ∀ w, pre w → (k w.state).Settles (undisturbed R P A φ) (pre' w.state) post) :
    (Routine.step f k).Settles (undisturbed R P A φ) pre post := by
  refine .step pre' (fun w v _ _ hsee => ?_)
    (fun w v hw hsee => ⟨rfl, hpre w v.state hw (congrArg Prod.fst hsee)⟩) h
  obtain ⟨hc, hrest⟩ := Prod.mk.inj hsee
  refine ⟨?_, by rw [hk w.state, hk v.state, hc]⟩
  show ((f w.state).core, (f w.state).cache.supply A.fetch, asked w.history) =
    ((f v.state).core, (f v.state).cache.supply A.fetch, asked v.history)
  rw [hcore _ _ hc, hcache, hcache]
  exact congrArg _ hrest

/-- To write a package to the workspace is settled. -/
lemma settles_materialize (shelf : Nat) (node : Node) :
    Attempt.Settles (building R P A) (materialize shelf node) := by
  have hwritten : Attempt.Settles (undisturbed R P A Index.AtRest).alone (Task.work
      (Routine.modify fun s : Service =>
        { s with shelves := s.shelves.modify shelf fun keys => keys ++ [node.key] })) := by
    refine settles_work (settles_modify Index.AtRest (fun s t h => ?_) (fun _ => rfl) ?_)
    · show { s.core with shelves := s.core.shelves.modify shelf fun keys => keys ++ [node.key] } =
        { t.core with shelves := t.core.shelves.modify shelf fun keys => keys ++ [node.key] }
      rw [h]
    · rintro w ⟨⟨hcalm, hrest⟩, hpaused⟩
      exact ⟨⟨⟨hcalm.waits, hcalm.inflight, hcalm.numbers⟩, hrest⟩, hpaused⟩
  refine settles_of_undisturbed ?_
  refine settles_read Index.AtRest (fun _ => (undisturbed R P A Index.AtRest).alone.holds)
    (fun _ => rfl) (fun _ _ h => h) (fun _ => rfl) (fun _ _ hw _ => hw) fun w _ => ?_
  show Attempt.Settles (undisturbed R P A Index.AtRest).alone (ite _ _ _)
  split
  · exact Attempt.Settles.pure _
  · refine settles_handle_workspace (Attempt.Settles.bind ?_ fun _ => hwritten) fun f => ?_
    · exact .of_plain undisturbed_suits.alone (plain_writePackage node)
    · exact .of_plain undisturbed_suits.alone (Task.plain_work (Work.plain_log _))

/-- A crowd that is undisturbed stays so when the index changes and nobody waits for it. -/
lemma holds_of_index {φ ψ : Index → Prop} {w : Users R P}
    (hw : (undisturbed R P A φ).alone.holds w) {i : Index} (hi : ψ i) :
    (undisturbed R P A ψ).alone.holds { w with state := { w.state with index := i } } := by
  obtain ⟨⟨hcalm, -, hunfailing⟩, hpaused⟩ := hw
  refine ⟨⟨⟨?_, hcalm.inflight, hcalm.numbers⟩, hi, hunfailing⟩, hpaused⟩
  show ∀ p ∈ w.paused, _
  rw [hpaused]
  exact List.forall_mem_nil _

/-- To commit the records of a run is settled. -/
lemma settles_commit (c : Context) :
    (commit c).Settles (building R P A) (building R P A).holds fun _ w => (building R P A).holds w := by
  refine (building_suits.settles (Work.plain_contextIsCurrent c)).bind fun current => ?_
  refine .of_fact fun _ => ?_
  cases current with
  | false =>
    refine Routine.Settles.bind (building_suits.settles (Work.plain_log _)) fun _ => ?_
    exact .done fun _ hw => hw.2
  | true =>
    have hcommit : ∀ w, (building R P A).holds w → (building R P A).holds
        { w with state := { w.state with index := c.commit w.state.index } } := fun w hw =>
      holds_of_index hw (hw.1.2.1.rewritten (c.rewritten_commit _))
    exact (settles_change Index.AtRest c.commit hcommit).bind fun _ => .done fun _ hw => hw

lemma settles_writeSnapshot (tickets : List Nat) (path snapshot : String) :
    Attempt.Settles (undisturbed R P A (Index.SavedBy tickets)).alone
      (Index.writeSnapshot path snapshot) := by
  have hs := (@undisturbed_suits R P A (Index.SavedBy tickets)).alone
  have hlog : ∀ r, Attempt.Settles (undisturbed R P A (Index.SavedBy tickets)).alone
      (Task.work (Work.log r)) := fun r => .of_plain hs (Task.plain_work (Work.plain_log r))
  refine settles_handle_workspace ?_ fun f => ?_
  · refine Attempt.Settles.bind (.of_plain hs (Workspace.plain_ensureDirectory path)) fun _ => ?_
    refine Attempt.Settles.bind (.of_plain hs (Work.plain_write path snapshot)) fun _ => ?_
    refine settles_read (Index.SavedBy tickets)
      (fun _ => (undisturbed R P A (Index.SavedBy tickets)).alone.holds)
      (fun _ => rfl) (fun _ _ h => h) (fun _ => rfl) (fun _ _ hw _ => hw) fun w _ => ?_
    exact (hlog _).bind fun _ => Attempt.Settles.pure _
  · refine Attempt.Settles.bind (settles_work ?_) fun _ => (hlog _).bind fun _ => Attempt.Settles.pure _
    refine settles_change (Index.SavedBy tickets) _ fun w hw => ?_
    obtain ⟨hsavers, hloading, hloads⟩ := hw.1.2.1
    exact holds_of_index hw ⟨hsavers, hloading, hloads⟩

/-- One who has saved leaves the queue. -/
lemma settles_leaveQueue (ticket : Nat) (written : Except Fault Bool) :
    (do
      Task.work (Index.change fun i => i.dequeue ticket)
      match written with
      | .ok b => pure b
      | .error f => throw f : Task Bool).run.Settles (undisturbed R P A Index.AtRest)
        (undisturbed R P A (Index.SavedBy [ticket])).alone.holds
        (undisturbed R P A Index.AtRest).alone.After := by
  have hleave : ∀ w, (undisturbed R P A (Index.SavedBy [ticket])).alone.holds w →
      (undisturbed R P A Index.AtRest).alone.holds
        { w with state := { w.state with index := w.state.index.dequeue ticket } } := by
    intro w hw
    obtain ⟨hsavers, hloading, hloads⟩ := hw.1.2.1
    refine holds_of_index hw ⟨?_, hloading, hloads⟩
    show w.state.index.savers.filter (· != ticket) = []
    rw [hsavers]
    simp
  have hchange : (Task.work (Index.change fun i => i.dequeue ticket)).run.Settles
      (undisturbed R P A Index.AtRest) (undisturbed R P A (Index.SavedBy [ticket])).alone.holds
      fun r w => (∃ u, r = .ok u) ∧ (undisturbed R P A Index.AtRest).alone.holds w :=
    (settles_change Index.AtRest (fun i => i.dequeue ticket) hleave).bind fun u =>
      .done fun _ hw => ⟨⟨u, rfl⟩, hw⟩
  refine hchange.bind fun r => ?_
  refine .of_fact ?_
  rintro ⟨u, rfl⟩
  cases written with
  | ok b => exact Attempt.Settles.pure b
  | error f => exact Attempt.Settles.throw f

/-- One whose turn it is to save writes its snapshot, and leaves the queue. -/
lemma settles_writeTurn (ticket : Nat) (path : String) (snapshot? : Option String) :
    (do
      let written ← Task.work (match snapshot? with
        | none => pure (.ok false)
        | some snapshot => (Index.writeSnapshot path snapshot).run)
      Task.work (Index.change fun i => i.dequeue ticket)
      match written with
      | .ok b => pure b
      | .error f => throw f : Task Bool).run.Settles (undisturbed R P A Index.AtRest)
        (undisturbed R P A (Index.SavedBy [ticket])).alone.holds
        (undisturbed R P A Index.AtRest).alone.After := by
  have hwritten : (match snapshot? with
      | none => pure (.ok false)
      | some snapshot => (Index.writeSnapshot path snapshot).run : Work _).Settles
      (undisturbed R P A Index.AtRest) (undisturbed R P A (Index.SavedBy [ticket])).alone.holds
      fun _ => (undisturbed R P A (Index.SavedBy [ticket])).alone.holds := by
    cases snapshot? with
    | none => exact .done fun _ hw => hw
    | some snapshot =>
      have hw := settles_writeSnapshot (R := R) (P := P) (A := A) [ticket] path snapshot
      refine Routine.Settles.imp hw (fun _ hw => hw) fun r v hv => hv.elim id ?_
      rintro ⟨_, -, hno⟩
      exact hno.elim
  have hgiven : (Task.work (match snapshot? with
      | none => pure (.ok false)
      | some snapshot => (Index.writeSnapshot path snapshot).run)).run.Settles
      (undisturbed R P A Index.AtRest) (undisturbed R P A (Index.SavedBy [ticket])).alone.holds
      fun r w => (∃ written, r = .ok written) ∧
        (undisturbed R P A (Index.SavedBy [ticket])).alone.holds w :=
    hwritten.bind fun written => .done fun _ hw => ⟨⟨written, rfl⟩, hw⟩
  refine hgiven.bind fun r => ?_
  refine .of_fact ?_
  rintro ⟨written, rfl⟩
  exact settles_leaveQueue ticket written

/-- One whose turn it is to save does so, and leaves the queue. -/
lemma settles_save_turn (ticket : Nat) :
    (do
      let snapshot? ← Task.work (Routine.modifyGet fun s =>
        let (t, i) := s.index.takeSnapshot
        (t, { s with index := i }))
      let path ← Task.work (Routine.gets (·.index.path))
      let written ← Task.work (match snapshot? with
        | none => pure (.ok false)
        | some snapshot => (Index.writeSnapshot path snapshot).run)
      Task.work (Index.change fun i => i.dequeue ticket)
      match written with
      | .ok b => pure b
      | .error f => throw f : Task Bool).run.Settles (undisturbed R P A Index.AtRest)
        (undisturbed R P A (Index.SavedBy [ticket])).alone.holds
        (undisturbed R P A Index.AtRest).alone.After := by
  refine settles_read Index.AtRest
    (fun _ => (undisturbed R P A (Index.SavedBy [ticket])).alone.holds)
    (fun _ => rfl) (fun s t h => ?_) (fun _ => rfl) (fun w s hw _ => ?_) fun w _ => ?_
  · show { s.core with index := s.core.index.takeSnapshot.2 } =
      { t.core with index := t.core.index.takeSnapshot.2 }
    rw [h]
  · refine holds_of_index hw (hw.1.2.1.rewritten ?_)
    show Index.Rewritten _ (Index.takeSnapshot _).2
    unfold Index.takeSnapshot
    split <;> rfl
  refine settles_read Index.AtRest
    (fun _ => (undisturbed R P A (Index.SavedBy [ticket])).alone.holds)
    (fun _ => rfl) (fun _ _ h => h) (fun _ => rfl) (fun _ _ hw _ => hw) fun w' _ => ?_
  exact settles_writeTurn ticket w'.state.index.path w.state.index.takeSnapshot.1

/-- To save the index is settled. -/
lemma settles_save : Attempt.Settles (building R P A) Index.save := by
  refine settles_of_undisturbed ?_
  refine settles_read Index.AtRest
    (fun s => (undisturbed R P A (Index.SavedBy [s.index.savesBegun])).alone.holds)
    (fun _ => rfl) (fun s t h => ?_) (fun _ => rfl) (fun w s hw hs => ?_) fun w hw => ?_
  · show { s.core with index := s.core.index.enqueue.2 } = { t.core with index := t.core.index.enqueue.2 }
    rw [h]
  · have hticket : w.state.core.index.savesBegun = s.core.index.savesBegun := by
      rw [hs]
    obtain ⟨hsavers, hloading, hloads⟩ := hw.1.2.1
    refine holds_of_index hw ⟨?_, hloading, hloads⟩
    show w.state.index.savers ++ [w.state.core.index.savesBegun] = _
    rw [hsavers, hticket]
    rfl
  · have hticket : w.state.index.enqueue.1 = w.state.index.savesBegun := rfl
    generalize w.state.index.savesBegun = ticket at hticket
    simp only [hticket]
    -- nobody else wants to save, so that there is nothing to wait for
    refine Routine.Settles.wait ?_ fun w hw => ⟨hw.1.1.resting, ?_⟩
    · exact settles_save_turn ticket
    · show (w.state.index.savers.head? == some ticket) = true
      rw [hw.1.2.1.savers]
      exact beq_self_eq_true _

/-! ## Loading the index -/

lemma index_of_see {w : Users R P} {core : Service} {supply : PackageKey → Except Fault Node}
    {qs : List Question} (h : (undisturbed R P A Index.AtRest).see w = (core, supply, qs)) :
    w.state.index = core.index :=
  congrArg (fun v => v.1.index) h

/-- While one waits for them, the records of the index are read, and the result is settled. -/
lemma exists_reading (core : Service) (supply : PackageKey → Except Fault Node)
    (qs : List Question) (i : Index) :
    ∃ r : Option (Except Fault IndexData × Service × (PackageKey → Except Fault Node) × List Question),
      ∀ (w : Users R P) (p : Paused Service Question Question.Answer P),
        (undisturbed R P A Index.AtRest).alone.holds w →
        (undisturbed R P A Index.AtRest).see w = (core, supply, qs) →
        p.AwaitsLoad { w.state with index := i } →
        Brings A.Strays w.fresh (Index.readRecords core.index.path).run
          { w with state := { w.state with index := i }, fresh := w.fresh + 1, paused := [p] }
          fun a w' => ∃ d, w' = { d with paused := [p] } ∧ d.paused = [] ∧ d.state.index = i ∧
            r = some (a, (undisturbed R P A Index.AtRest).see d) ∧
            (undisturbed R P A fun _ => True).alone.holds d := by
  have hread : Attempt.Settles (undisturbed R P A (· = i)) (Index.readRecords core.index.path) :=
    .of_plain undisturbed_suits (Index.plain_readRecords _)
  obtain ⟨r, hr⟩ := hread ({ core with index := i }, supply, qs)
  refine ⟨r, fun w p hw hv hp => ?_⟩
  obtain ⟨⟨hcalm, -, hunfailing⟩, -⟩ := hw
  have hsee : (undisturbed R P A (· = i)).see
      { w with state := { w.state with index := i }, fresh := w.fresh + 1, paused := [p] } =
        ({ core with index := i }, supply, qs) :=
    congrArg (fun v : Service × _ × _ => ({ v.1 with index := i }, v.2)) hv
  have hholds : (undisturbed R P A (· = i)).holds
      { w with state := { w.state with index := i }, fresh := w.fresh + 1, paused := [p] } := by
    refine ⟨⟨?_, hcalm.inflight, hcalm.numbers⟩, rfl, hunfailing⟩
    intro q hq
    rw [List.mem_singleton.mp hq]
    exact hp
  refine (hr w.fresh _ hholds hsee).imp ?_
  · rintro a c ⟨ha, hk, hc⟩
    obtain ⟨hcalm', hi, hunfailing'⟩ : (undisturbed R P A (· = i)).holds c := hc.elim id (by simp [undisturbed])
    refine ⟨{ c with paused := [] }, ?_, rfl, hi, ha, ⟨⟨?_, ?_, ?_⟩, trivial, hunfailing'⟩, rfl⟩
    · rw [← show c.paused = [p] from hk]
    · exact List.forall_mem_nil _
    · exact hcalm'.inflight
    · exact hcalm'.numbers

/-- To load the index is settled. -/
lemma settles_load : Attempt.Settles (building R P A) Index.load := by
  refine settles_of_undisturbed ?_
  rintro ⟨core, supply, qs⟩
  by_cases hloaded : core.index.loaded = true
  · -- the index is there
    refine ⟨some (.ok (), core, supply, qs), fun id w hw hv => ?_⟩
    have hreq : w.state.index.requestLoad = (.none, w.state.index) := by
      rw [Index.requestLoad, if_pos]
      rw [index_of_see hv]
      exact hloaded
    refine Brings.step ?_
    simp only [hreq]
    exact .done ⟨by rw [← hv], rfl, Or.inl hw⟩
  · obtain ⟨r, hr⟩ := @exists_reading R P A core supply qs core.index.whileLoading
    refine ⟨r.map fun v => (v.1.map fun _ => (), { v.2.1 with
      index := core.index.whileLoading.afterLoad core.index.loadsBegun v.1 }, v.2.2),
      fun id w hw hv => ?_⟩
    have hindex := index_of_see hv
    obtain ⟨⟨hcalm, hrest, hunfailing⟩, hpaused⟩ := hw
    have hread := fun p hp => hr w p ⟨⟨hcalm, hrest, hunfailing⟩, hpaused⟩ hv hp
    rw [← hindex] at hread hloaded ⊢
    refine (Index.brings_load id hrest (by simpa using hloaded) hpaused hread).imp ?_
    rintro _ _ ⟨r', d, journal, ⟨rfl, ⟨hcalm', -, hunfailing'⟩, hpaused'⟩, rfl, rfl⟩
    have hkeeps : d.paused = w.paused := hpaused'.trans hpaused.symm
    refine ⟨rfl, hkeeps, Or.inl ⟨⟨⟨?_, hcalm'.inflight, hcalm'.numbers⟩, hrest.afterLoad r',
      hunfailing'⟩, hpaused'⟩⟩
    show ∀ p ∈ d.paused, _
    rw [hpaused']
    exact List.forall_mem_nil _

/-! ## The whole build -/

lemma settles_finish (b : Builder) (entry : String) :
    Run.Settles (building R P A) Traversal.StaysProper (finish b entry) := by
  have hlog := settles_log (@building_suits R P A)
  refine Run.Settles.get.bind fun t => ?_
  refine Run.Settles.bind (Run.Settles.modify fun u hp => hp.of_records rfl) fun _ => ?_
  refine (hlog _).bind fun _ => Run.Settles.get.bind fun u => ?_
  cases b.usesIndex with
  | false => exact Run.Settles.pure _
  | true =>
    have hcommit : Run.Settles (building R P A) Traversal.StaysProper
        (Stateful.work (commit u.context)) :=
      fun t => (settles_commit u.context).bind fun _ => .done fun _ hw => ⟨id, Or.inl hw⟩
    refine hcommit.bind fun committed => ?_
    cases committed with
    | false => exact Run.Settles.pure _
    | true => exact (Run.Settles.lift settles_save).bind fun _ => Run.Settles.pure _

lemma settles_run (b : Builder) (budget : Nat) (entry content : String) :
    Run.Settles (building R P A) Traversal.StaysProper (run b budget entry content) := by
  have hrest : Run.Settles (building R P A) Traversal.StaysProper
      (travel b budget entry content >>= arrive b entry) := by
    refine (settles_travel building_suits settles_fetchAll settles_materialize b budget entry
      content).bind fun complete => ?_
    cases complete with
    | false => exact Run.Settles.get.bind fun _ => Run.Settles.pure _
    | true => exact (settles_finish b entry).bind fun _ => Run.Settles.get.bind fun _ =>
        Run.Settles.pure _
  cases hb : b.usesIndex with
  | false =>
    rw [run_of_not_usesIndex hb]
    exact hrest
  | true =>
    rw [run_of_usesIndex hb]
    exact (Run.Settles.lift settles_load).bind fun _ => hrest

lemma settles_build (b : Builder) (budget : Nat) (entry content : String) (c : Context) :
    (build b budget entry content c).Settles (building R P A) (building R P A).holds
      fun r w => (building R P A).After r.1 w :=
  (settles_run b budget entry content { context := c }).bind fun _ => .done fun _ hw => hw.2

end Changes

/-- However the fetches of a build are ordered that nobody disturbs, the build inevitably comes to
the same end, and nothing is under way any more: the same bundle, or the same fault, with the same
notes of the run and the same state of the service but for the cache and the journal.  If fetches have
failed, the fault is that of the first package that could not be fetched, in the order of the keys. -/
theorem build_any_order {s : Service} (hs : s.Idle) (A : Replies) (b : Builder) (budget : Nat)
    (entry content : String) (c : Context) :
    ∃ (r : Except Fault Bundle × Context) (core : Service),
      Inevitable (fun w => A.Strays w.history ∨ ∃ h, w.history = .returned 0 r :: h ∧
          w.state.core = core ∧ w.paused = [] ∧ (∀ k, w.state.cache.inflight.get? k = none) ∧
          (Unfailing h ∨ ∃ f, r.1 = .error f ∧ FirstFault f h))
        (started s (build b budget entry content c)) := by
  obtain ⟨r, hr⟩ := @settles_build Unit (Except Fault Bundle × Context) A b budget entry content c
    (s.core, s.cache.supply A.fetch, [])
  have hholds : (building Unit (Except Fault Bundle × Context) A).holds
      { state := s, fresh := 1, history := [.begun 0 ()] } := by
    refine ⟨⟨⟨List.forall_mem_nil _, hs.inflight, hs.numbers⟩, hs.index, fun id key f hmem => ?_⟩, rfl⟩
    cases List.mem_singleton.mp hmem
  have hbrings := hr 0 _ hholds rfl _ .done some
  rw [Routine.bind_done] at hbrings
  cases r with
  | none =>
    refine ⟨(.error .exhausted, c), s, hbrings.imp fun w hw => hw.imp_right ?_⟩
    rintro ⟨a, c', ⟨hno, -⟩, -⟩
    cases hno
  | some v =>
    obtain ⟨r, core, v⟩ := v
    refine ⟨r, core, hbrings.imp fun w hw => hw.imp_right ?_⟩
    rintro ⟨a, w', ⟨ha, hk, hw'⟩, rfl⟩
    obtain ⟨rfl, hv⟩ := Prod.mk.inj (Option.some.inj ha)
    obtain ⟨rfl, -⟩ := Prod.mk.inj hv
    refine ⟨w'.history, rfl, rfl, hk, ?_, ?_⟩
    · rcases hw' with hw' | ⟨f, -, hw'⟩
      · exact hw'.1.1.inflight
      · exact hw'.1.inflight
    · rcases hw' with hw' | ⟨f, hf, hw'⟩
      · exact Or.inl hw'.1.2.2
      · exact Or.inr ⟨f, hf, hw'.2.2.2⟩

/-- A service without packages, whose index is loaded. -/
def vacantService : Service where
  settings := {}
  index := { path := ".deps/index.json", loaded := true }

lemma idle_vacantService : vacantService.Idle where
  inflight _ := rfl
  numbers := nofun
  index := ⟨rfl, Or.inl rfl, nofun⟩

/-- There are no files, every package has one version, and no package can be fetched. -/
def barrenReplies : Replies where
  fetch key := .error (.registry ⟨"not found", key.name, none⟩)
  reply _
    | .probe _ => .ok false
    | .read path => .error (.workspace ⟨"not found", path⟩)
    | .write _ _ => .ok ()
    | .mkdir _ => .ok ()
    | .versions _ => .ok ["1.0.0"]
    | .files _ _ => .error .cancelled
    | .compile _ _ _ => .error .cancelled

/-- In whatever order the two fetches fail, the build comes to the same end. -/
theorem build_any_order_barren :
    vacantService.Idle ∧ ∃ (r : Except Fault Bundle × Context) (core : Service),
      Inevitable (fun w => barrenReplies.Strays w.history ∨ ∃ h, w.history = .returned 0 r :: h ∧
          w.state.core = core ∧ w.paused = [] ∧ (∀ k, w.state.cache.inflight.get? k = none) ∧
          (Unfailing h ∨ ∃ f, r.1 = .error f ∧ FirstFault f h))
        (started vacantService
          (build ⟨0, some [], true⟩ 8 "m.sol" "import \"q/x.sol\";import \"p/x.sol\";"
            { target := "m.sol" })) :=
  ⟨idle_vacantService, build_any_order idle_vacantService _ _ _ _ _ _⟩

end Bundle

end SourceBundle
