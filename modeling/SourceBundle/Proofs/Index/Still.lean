/-
# What leaves the records of the index alone

Fetching packages, saving the index, asking for it to be loaded and traversing a level change the
service in modest ways only, and so none of their own steps touches the records of the index.  Only
the routine that a load starts, the commit of a run and a reload do.
-/
import SourceBundle.Bundle.Build
import SourceBundle.Proofs.Bundle.SameRun
import SourceBundle.Proofs.Routine.Steady

namespace SourceBundle

/-- The records of the index and the file that it is kept in are the same in two states. -/
structure Still (s t : Service) : Prop where
  data : t.index.data = s.index.data
  path : t.index.path = s.index.path

instance : IsPreorder Service Still where
  refl _ := ⟨rfl, rfl⟩
  trans _ _ _ h h' := ⟨h'.1.trans h.1, h'.2.trans h.2⟩

/-- The routines that the service starts: one that loads the index, and one that delivers a
package. -/
inductive Helper : Work Unit → Prop
  | load (ticket : Nat) : Helper (Index.runLoad ticket)
  | delivery (key : PackageKey) (delivery : Nat) : Helper (Cache.deliver key delivery)

lemma still_of_noted {s t : Service} (h : Noted s t) : Still s t := by
  rw [h.rest]
  exact ⟨rfl, rfl⟩

/-- A kind of change to which belongs what plain work does, and what routines do with the queues of
the index, with the numbers of the deliveries and with the shelves. -/
class Modest (R : Service → Service → Prop) : Prop extends IsPreorder Service R where
  noted : ∀ s t, Noted s t → R s t
  index : ∀ s i, i.data = s.index.data → i.path = s.index.path → R s { s with index := i }
  deliveries : ∀ s n, R s { s with deliveries := n }
  shelves : ∀ s l, R s { s with shelves := l }

instance : Modest Still where
  noted _ _ := still_of_noted
  index _ _ hd hp := ⟨hd, hp⟩
  deliveries _ _ := ⟨rfl, rfl⟩
  shelves _ _ := ⟨rfl, rfl⟩

variable {α ρ : Type} {R : Service → Service → Prop} {K : Work Unit → Prop}

lemma Task.steady_work {x : Work α} (hx : x.Steady R K) :
    Attempt.Steady R K (Task.work x) :=
  Routine.Steady.bind hx fun _ => trivial

lemma Stateful.steady_work {x : Work α} (hx : x.Steady R K) :
    Run.Steady R K (Stateful.work x : Stateful ρ α) :=
  fun _ => Routine.Steady.bind hx fun _ => trivial

lemma Task.steady_handle_workspace {x : Task α} {k : WorkspaceFault → Task α}
    (hx : Attempt.Steady R K x) (hk : ∀ f, Attempt.Steady R K (k f)) :
    Attempt.Steady R K (Task.handle x fun | .workspace f => some (k f) | _ => none) := by
  refine Attempt.Steady.tryCatch hx fun f => ?_
  cases f with
  | workspace f => exact hk f
  | _ => exact Attempt.Steady.throw _

section Modest

variable [Modest R]

lemma Routine.Plain.modest {x : Work α} {post : α → Prop} (h : x.Plain busily post) :
    x.Steady R K :=
  h.steady Modest.noted

lemma Attempt.Plain.modest {x : Task α} (h : Attempt.Plain busily x) : Attempt.Steady R K x :=
  Routine.Plain.modest h

lemma Run.Plain.modest {I : ρ → ρ → Prop} {x : Stateful ρ α} (h : Run.Plain busily I x) :
    Run.Steady R K x :=
  fun t => Routine.Plain.modest (h t)

lemma modest_gets (f : Service → α) : (Routine.gets f : Work α).Steady R K :=
  Routine.Steady.gets f (refl_of R)

/-! ## Fetching -/

namespace Cache

lemma modest_gather (keys : List PackageKey) : Attempt.Steady R Helper (gather keys) := by
  have hstart : ∀ keys, (startAll keys).Steady R Helper := by
    intro keys
    induction keys with
    | nil => trivial
    | cons key keys ih =>
      refine (Routine.Steady.modifyGet fun s => Modest.deliveries s _).bind fun delivery => ?_
      exact (Routine.Steady.start (.delivery key delivery)).bind fun _ => ih.bind fun _ => trivial
  refine (hstart keys).bind fun ds => (Routine.Steady.await 1 _).bind fun w => ?_
  cases w
  · exact modest_gets _
  · trivial

lemma modest_fetchAll (keys : List PackageKey) : Attempt.Steady R Helper (fetchAll keys) := by
  unfold fetchAll
  split
  · exact Attempt.Steady.pure _
  · exact (modest_gather _).bind fun _ => trivial

end Cache

/-! ## Loading and saving -/

namespace Index

lemma modest_change {f : Index → Index} (hd : ∀ i, (f i).data = i.data)
    (hp : ∀ i, (f i).path = i.path) : (change f).Steady R Helper :=
  Routine.Steady.modify fun s => Modest.index s _ (hd s.index) (hp s.index)

lemma still_requestLoad (i : Index) :
    i.requestLoad.2.data = i.data ∧ i.requestLoad.2.path = i.path := by
  unfold requestLoad
  split
  · exact ⟨rfl, rfl⟩
  · split <;> exact ⟨rfl, rfl⟩

lemma still_leaveLoad (i : Index) (ticket : Nat) :
    (i.leaveLoad ticket).data = i.data ∧ (i.leaveLoad ticket).path = i.path := by
  unfold leaveLoad
  split <;> exact ⟨rfl, rfl⟩

lemma still_takeSnapshot (i : Index) :
    i.takeSnapshot.2.data = i.data ∧ i.takeSnapshot.2.path = i.path := by
  unfold takeSnapshot
  split <;> exact ⟨rfl, rfl⟩

lemma modest_awaitLoad (ticket : Nat) : Attempt.Steady R Helper (awaitLoad ticket) := by
  refine (Task.steady_work (Routine.Steady.await 1 _)).bind fun w => ?_
  refine (Task.steady_work (modest_gets _)).bind fun outcome? => ?_
  refine (Task.steady_work (modest_change (fun i => (still_leaveLoad i ticket).1)
    fun i => (still_leaveLoad i ticket).2)).bind fun _ => ?_
  split
  · exact Attempt.Steady.throw _
  · exact Attempt.Steady.throw _
  · exact Attempt.Steady.pure _

lemma modest_load : Attempt.Steady R Helper load := by
  refine (Task.steady_work (Routine.Steady.modifyGet fun s => ?_)).bind fun role => ?_
  · exact Modest.index s _ (still_requestLoad s.index).1 (still_requestLoad s.index).2
  cases role with
  | none => exact Attempt.Steady.pure _
  | join ticket => exact modest_awaitLoad ticket
  | begin ticket =>
    exact (Task.steady_work (Routine.Steady.start (.load ticket))).bind fun _ =>
      modest_awaitLoad ticket

lemma modest_writeSnapshot (path snapshot : String) :
    Attempt.Steady R Helper (writeSnapshot path snapshot) := by
  refine Task.steady_handle_workspace ?_ fun f => ?_
  · refine (Workspace.plain_ensureDirectory path).modest.bind fun _ => ?_
    refine Attempt.Steady.bind (fun _ => trivial) fun _ => ?_
    refine (Task.steady_work (modest_gets _)).bind fun _ => ?_
    exact (Task.steady_work (Work.plain_log _).modest).bind fun _ => Attempt.Steady.pure _
  · refine (Task.steady_work (modest_change (fun _ => by rfl) fun _ => by rfl)).bind fun _ => ?_
    exact (Task.steady_work (Work.plain_log _).modest).bind fun _ => Attempt.Steady.pure _

lemma modest_save : Attempt.Steady R Helper save := by
  refine (Task.steady_work (Routine.Steady.modifyGet fun s => ?_)).bind fun ticket => ?_
  · exact Modest.index s s.index.enqueue.2 rfl rfl
  refine (Task.steady_work (Routine.Steady.await 0 _)).bind fun w => ?_
  cases w with
  | cancelled =>
    refine (Task.steady_work (modest_change (fun _ => by rfl) fun _ => by rfl)).bind fun _ => ?_
    exact Attempt.Steady.throw _
  | ready =>
    refine (Task.steady_work (Routine.Steady.modifyGet fun s => ?_)).bind fun snapshot? => ?_
    · exact Modest.index s _ (still_takeSnapshot s.index).1 (still_takeSnapshot s.index).2
    refine (Task.steady_work (modest_gets _)).bind fun path => ?_
    refine (Task.steady_work ?_).bind fun written => ?_
    · cases snapshot? with
      | none => trivial
      | some snapshot => exact modest_writeSnapshot path snapshot
    · refine (Task.steady_work (modest_change (fun _ => by rfl) fun _ => by rfl)).bind fun _ => ?_
      cases written with
      | ok b => exact Attempt.Steady.pure b
      | error f => exact Attempt.Steady.throw f

end Index

/-! ## Traversing -/

namespace Bundle

open SourceBundle.Import

lemma modest_joinPackage (shelf : Nat) (node : Node) :
    Run.Steady R Helper (joinPackage shelf node) := by
  refine Run.Steady.bind (Run.Steady.modify _) fun _ => ?_
  refine (notes_recordParent node).modest.bind fun _ => ?_
  refine (keeps_addPackage node).modest.bind fun _ => Run.Steady.lift ?_
  refine (Task.steady_work (modest_gets id)).bind fun s => ?_
  split
  · exact Attempt.Steady.pure _
  · refine Task.steady_handle_workspace ((plain_writePackage node).modest.bind fun _ => ?_) fun f => ?_
    · exact Task.steady_work (Routine.Steady.modify fun s => Modest.shelves s _)
    · exact Task.steady_work (Work.plain_log _).modest

lemma modest_completeLevel (shelf depth scanned : Nat) :
    Run.Steady R Helper (completeLevel shelf depth scanned) := by
  refine Run.Steady.get.bind fun t => (Run.Steady.lift (Cache.modest_fetchAll _)).bind fun nodes => ?_
  refine (Run.Steady.forM (modest_joinPackage shelf) nodes).bind fun _ => ?_
  refine (keeps_checkWaiting _).modest.bind fun _ => ?_
  refine (Stateful.steady_work (Work.plain_log _).modest).bind fun _ => ?_
  exact Run.Steady.get.bind fun _ => Run.Steady.pure _

/-- To traverse any number of levels leaves the index alone. -/
theorem modest_traverse (shelf : Nat) (rules : List Remapping) (entry : String)
    (budget depth : Nat) (level : List String) :
    Run.Steady R Helper (traverse shelf rules entry budget depth level) := by
  induction budget generalizing depth level with
  | zero =>
    cases level with
    | nil => exact Run.Steady.pure _
    | cons f fs => exact Run.Steady.throw _
  | succ budget ih =>
    cases level with
    | nil => exact Run.Steady.pure _
    | cons f fs =>
      refine Run.Steady.get.bind fun t => ?_
      refine (Stateful.steady_work (Work.plain_contextIsCurrent _).modest).bind fun current => ?_
      cases current with
      | false =>
        exact (Stateful.steady_work (Work.plain_log _).modest).bind fun _ => Run.Steady.pure _
      | true =>
        refine Run.Steady.bind ?_ fun next => ih (depth + 1) next
        refine (Run.Steady.modify _).bind fun _ => ?_
        refine (Run.Plain.forM (sameRun_scan rules) _).modest.bind fun _ => ?_
        exact modest_completeLevel _ _ _

/-- To prepare a traversal leaves the index alone, but for the load that it may start. -/
theorem modest_prepare (b : Builder) (entry content : String) :
    Run.Steady R Helper (prepare b entry content) := by
  unfold prepare
  split
  case' isTrue => refine (Run.Steady.lift Index.modest_load).bind fun _ => ?_
  all_goals
    refine (notes_rulesOf b).modest.bind fun rules => Run.Steady.get.bind fun t => ?_
    refine (notes_collecting (Resolve.keeps_ofWorkspace _ _)).modest.bind fun r => ?_
    exact (Run.Steady.modify _).bind fun _ => Run.Steady.pure _

end Bundle

end Modest

/-! ## Deliveries -/

lemma still_modify {f : Service → Service} (h : ∀ s, (f s).index = s.index) :
    (Routine.modify f : Work Unit).Steady Still K :=
  Routine.Steady.modify fun s => ⟨congrArg Index.data (h s), congrArg Index.path (h s)⟩

lemma Cache.still_deliver (key : PackageKey) (delivery : Nat) : (deliver key delivery).Steady Still K := by
  refine Routine.Steady.bind ?_ fun _ => still_modify fun _ => rfl
  refine (Routine.Steady.modifyGet fun s => ⟨rfl, rfl⟩).bind fun a => ?_
  cases a with
  | hit n => trivial
  | join ticket =>
    refine (Routine.Steady.await 1 _).bind fun w => ?_
    cases w
    · exact modest_gets _
    · trivial
  | fetch ticket epoch =>
    refine Routine.Steady.bind (fun _ => trivial) fun answer => ?_
    refine (still_modify fun _ => by rfl).bind fun _ => ?_
    split
    · exact (Work.plain_log _).modest.bind fun _ => trivial
    · trivial
    · exact (Work.plain_log _).modest.bind fun _ => trivial

end SourceBundle
