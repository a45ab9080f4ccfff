/-
# Undisturbed requests

A compile request for a target with empty content, in a workspace without files.  If nobody disturbs
it, it comes to its bundle while its run is current, whatever the settings are.
-/
import SourceBundle.Proofs.Compile.Outcomes
import SourceBundle.Proofs.Routine.Solo

namespace SourceBundle

/-- The answers of a workspace without files, of a registry without packages, and of a compiler to
which everything is right. -/
def bareAnswer : (q : Question) → q.Answer
  | .probe _ => .ok false
  | .read _ => .ok ""
  | .write _ _ => .ok ()
  | .mkdir _ => .ok ()
  | .versions _ => .ok []
  | .files _ _ => .ok Table.empty
  | .compile _ _ _ => .ok (.result ⟨true, [], []⟩)

/-- The terms of a routine that nobody disturbs, in a workspace without files. -/
abbrev bare : Terms Service Question Question.Answer := .solo bareAnswer

/-- The index is loaded, has no records, and nobody saves it. -/
structure Index.Idle (i : Index) : Prop where
  loaded : i.loaded = true
  data : i.data = ∅
  dirty : i.dirty = false
  savers : i.savers = []

variable {s : Service} {c : Context}

/-! ## Loading -/

lemma Work.ends_log_bare (r : LogRecord) :
    (Work.log r).Ends bare s () { s with journal := r :: s.journal } := ⟨trivial, rfl, rfl⟩

lemma Work.ends_settings_bare : Work.settings.Ends bare s s.settings s :=
  Work.ends_gets.mpr ⟨trivial, rfl, rfl⟩

/-- A check of a run that is current. -/
lemma Work.ends_check_bare (hc : c.Numbered) (hcur : c.CurrentIn s) :
    (Work.contextIsCurrent c).Ends bare s true s := by
  obtain ⟨n, epoch, hc⟩ := hc
  rw [Context.CurrentIn, hc] at hcur
  rw [Work.contextIsCurrent, hc]
  exact Work.ends_gets.mpr ⟨trivial, by simp [hcur.1, hcur.2], rfl⟩

lemma Workspace.ends_readOptional_bare (path : String) :
    Attempt.Ends bare (readOptional path) s (.ok none) s := by
  refine Task.ends_handle.mpr (Or.inl ⟨none, ?_, rfl⟩)
  exact Attempt.ends_bind_ok.mpr ⟨false, s, Work.ends_put.mpr ⟨rfl, rfl⟩, rfl, rfl⟩

namespace Resolve

lemma ends_loadRemappings_bare (l : WarningLog) :
    ∃ j, Run.Ends bare (loadRemappings none true) l s (.ok []) l { s with journal := j } := by
  refine ⟨.remappingsLoaded 0 :: s.journal, ?_⟩
  have hsettings : Run.Ends bare (Stateful.work Work.settings : Warned Settings) l s
      (.ok s.settings) l s := Stateful.ends_work.mpr ⟨_, Work.ends_settings_bare, rfl, rfl⟩
  have hread : ∀ path, Run.Ends bare (Stateful.task (Workspace.readOptional path) :
      Warned (Option String)) l s (.ok none) l s :=
    fun path => Run.ends_lift.mpr ⟨Workspace.ends_readOptional_bare path, rfl⟩
  have hlog := Work.ends_log_bare (s := s) (.remappingsLoaded 0)
  have hnone : Run.Ends bare (pure [] : Warned (List Import.Remapping)) l s (.ok []) l s :=
    Run.ends_pure.mpr ⟨rfl, rfl, rfl⟩
  refine Run.ends_bind_ok.mpr ⟨_, _, _, hsettings, ?_⟩
  refine Run.ends_bind_ok.mpr ⟨_, _, _, hsettings, ?_⟩
  refine Run.ends_bind_ok.mpr ⟨_, _, _, hread _, ?_⟩
  refine Run.ends_bind_ok.mpr ⟨_, _, _, hnone, ?_⟩
  refine Run.ends_bind_ok.mpr ⟨_, _, _, hsettings, ?_⟩
  dsimp only
  split
  case' isTrue => refine Run.ends_bind_ok.mpr ⟨_, _, _, hread _, ?_⟩
  case' isFalse => refine Run.ends_bind_ok.mpr ⟨_, _, _, Run.ends_pure.mpr ⟨rfl, rfl, rfl⟩, ?_⟩
  all_goals
    refine Run.ends_bind_ok.mpr ⟨_, _, _, hnone, ?_⟩
    refine Run.ends_bind_ok.mpr ⟨_, _, _, Stateful.ends_work.mpr ⟨_, hlog, rfl, rfl⟩, ?_⟩
    exact Run.ends_pure.mpr ⟨rfl, rfl, rfl⟩

lemma ends_ofWorkspace_bare (session : Table String String)
    (parents : Table PackageKey (Table String String)) (l : WarningLog) :
    Run.Ends bare (ofWorkspace session parents) l s
      (.ok ⟨none, ∅, l, session, parents, ∅, ∅⟩) l s := by
  have hread : ∀ path, Run.Ends bare (Stateful.task (Workspace.readOptional path) :
      Warned (Option String)) l s (.ok none) l s :=
    fun path => Run.ends_lift.mpr ⟨Workspace.ends_readOptional_bare path, rfl⟩
  have hmanifest : Run.Ends bare (loadManifest true) l s (.ok none) l s :=
    Run.ends_bind_ok.mpr ⟨_, _, _, hread _, Run.ends_pure.mpr ⟨rfl, rfl, rfl⟩⟩
  have hblocks : Run.Ends bare (loadBlocks true) l s (.ok none) l s :=
    Run.ends_bind_ok.mpr ⟨_, _, _, hread _, Run.ends_pure.mpr ⟨rfl, rfl, rfl⟩⟩
  have hdocument : Run.Ends bare (loadDocument true) l s (.ok none) l s :=
    Run.ends_bind_ok.mpr ⟨_, _, _, hread _, Run.ends_pure.mpr ⟨rfl, rfl, rfl⟩⟩
  have hlockfile : Run.Ends bare (loadLockfile true) l s (.ok none) l s :=
    Run.ends_bind_ok.mpr ⟨_, _, _, hblocks, hdocument⟩
  refine Run.ends_bind_ok.mpr ⟨_, _, _, hmanifest, ?_⟩
  refine Run.ends_bind_ok.mpr ⟨_, _, _, hlockfile, ?_⟩
  refine Run.ends_bind_ok.mpr ⟨_, _, _, Run.ends_get.mpr ⟨rfl, rfl, rfl⟩, ?_⟩
  exact Run.ends_pure.mpr ⟨rfl, rfl, rfl⟩

end Resolve

namespace Index

lemma ends_load_bare (hi : s.index.Idle) : Attempt.Ends bare load s (.ok ()) s := by
  have hrole : s.index.requestLoad = (.none, s.index) := if_pos hi.loaded
  refine Attempt.ends_bind_ok.mpr ⟨.none, s, Task.ends_work.mpr ⟨_, ⟨trivial, ?_⟩, rfl⟩, rfl, rfl⟩
  simp only [hrole]
  exact ⟨rfl, rfl⟩

/-- A commit without records leaves an idle index as it is. -/
lemma commit_idle {i : Index} (hi : i.Idle) (hc : c.records = ∅) : c.commit i = i := by
  unfold Context.commit
  induction c.committedFiles with
  | nil => rfl
  | cons f fs ih =>
    have hf : i.replace f ((c.records.get? f).getD ∅) = i := by
      refine if_pos ?_
      rw [recordsOf, hi.data, hc]
      rfl
    rw [List.foldl_cons, hf]
    exact ih

/-- To save an idle index writes nothing. -/
lemma ends_save_bare (hi : s.index.Idle) :
    ∃ i, Attempt.Ends bare save s (.ok false) { s with index := i } := by
  let i₁ : Index := { s.index with
    savers := [s.index.savesBegun], savesBegun := s.index.savesBegun + 1 }
  let s₁ : Service := { s with index := i₁ }
  refine ⟨i₁.dequeue s.index.savesBegun, ?_⟩
  have henqueue : s.index.enqueue = (s.index.savesBegun, i₁) := by
    rw [enqueue, hi.savers]
    rfl
  have htake : s₁.index.takeSnapshot = (none, i₁) := if_neg (by simp [s₁, i₁, hi.dirty])
  refine Attempt.ends_bind_ok.mpr
    ⟨s.index.savesBegun, s₁, Task.ends_work.mpr ⟨_, ⟨trivial, ?_⟩, rfl⟩, ?_⟩
  · simp only [henqueue]
    exact ⟨rfl, rfl⟩
  have hawait : (Routine.await 0 fun s' => s'.index.savers.head? == some s.index.savesBegun :
      Work Wake).Ends bare s₁ .ready s₁ := ⟨.ready, s₁, rfl, fun _ => by simp [s₁, i₁], rfl, rfl⟩
  refine Attempt.ends_bind_ok.mpr ⟨.ready, s₁, Task.ends_work.mpr ⟨_, hawait, rfl⟩, ?_⟩
  refine Attempt.ends_bind_ok.mpr ⟨none, s₁, Task.ends_work.mpr ⟨_, ⟨trivial, ?_⟩, rfl⟩, ?_⟩
  · simp only [htake]
    exact ⟨rfl, rfl⟩
  refine Attempt.ends_bind_ok.mpr
    ⟨_, s₁, Task.ends_work.mpr ⟨_, Work.ends_gets.mpr ⟨trivial, rfl, rfl⟩, rfl⟩, ?_⟩
  refine Attempt.ends_bind_ok.mpr ⟨.ok false, s₁, Task.ends_work.mpr ⟨_, ⟨rfl, rfl⟩, rfl⟩, ?_⟩
  refine Attempt.ends_bind_ok.mpr ⟨(), _, Task.ends_work.mpr ⟨_, ⟨trivial, rfl, rfl⟩, rfl⟩, ?_⟩
  exact ⟨rfl, rfl⟩

end Index

/-! ## Building -/

namespace Bundle

open SourceBundle.Import

variable {entry : String} {b : Builder} {t : Traversal} {rules : List Remapping}

lemma ends_log_bare (r : LogRecord) :
    Run.Ends bare (Stateful.work (Work.log r) : Traversing Unit) t s (.ok ()) t
      { s with journal := r :: s.journal } :=
  Stateful.ends_work.mpr ⟨_, Work.ends_log_bare r, rfl, rfl⟩

lemma ends_check_bare (hc : t.context.Numbered) (hcur : t.context.CurrentIn s) :
    Run.Ends bare (Stateful.work (Work.contextIsCurrent t.context) : Traversing Bool) t s
      (.ok true) t s :=
  Stateful.ends_work.mpr ⟨_, Work.ends_check_bare hc hcur, rfl, rfl⟩

lemma ends_get_bare : Run.Ends bare (getThe Traversal : Traversing Traversal) t s (.ok t) t s :=
  Run.ends_get.mpr ⟨rfl, rfl, rfl⟩

lemma ends_modify_bare (f : Traversal → Traversal) :
    Run.Ends bare (modifyThe Traversal f : Traversing PUnit) t s (.ok ⟨⟩) (f t) s :=
  Run.ends_modify.mpr ⟨rfl, rfl, rfl⟩

/-- Work that gives no warning leaves the traversal as it is. -/
lemma ends_collecting_bare {α : Type} {x : Resolve.Warned α} {a : α} {s' : Service}
    (hx : Run.Ends bare x t.context.warnings s (.ok a) t.context.warnings s') :
    Run.Ends bare (collecting x) t s (.ok a) t s' :=
  Run.ends_zoom.mpr ⟨_, hx, rfl⟩

/-- A workspace without files has nothing to prepare a traversal by. -/
lemma ends_prepare_bare (entry : String) (c : Context) (hb : b.remappings? = none)
    (hi : s.index.Idle) :
    ∃ j, Run.Ends bare (prepare b entry "") { context := c } s (.ok [])
      { context := c, bundle := Table.empty.insert entry "" } { s with journal := j } := by
  obtain ⟨j, hj⟩ := Resolve.ends_loadRemappings_bare (s := s) c.warnings
  refine ⟨j, ?_⟩
  have hload : Run.Ends bare (Stateful.task Index.load : Traversing Unit) { context := c } s
      (.ok ()) { context := c } s := Run.ends_lift.mpr ⟨Index.ends_load_bare hi, rfl⟩
  have hrules : Run.Ends bare (rulesOf b) { context := c } s (.ok []) { context := c }
      { s with journal := j } := by
    rw [rulesOf, hb]
    exact ends_collecting_bare hj
  have hworkspace := ends_collecting_bare (t := { context := c }) (s := { s with journal := j })
    (Resolve.ends_ofWorkspace_bare c.session c.parents c.warnings)
  unfold prepare
  split
  case' isTrue => refine Run.ends_bind_ok.mpr ⟨_, _, _, hload, ?_⟩
  all_goals
    refine Run.ends_bind_ok.mpr ⟨_, _, _, hrules, ?_⟩
    refine Run.ends_bind_ok.mpr ⟨_, _, _, ends_get_bare, ?_⟩
    refine Run.ends_bind_ok.mpr ⟨_, _, _, hworkspace, ?_⟩
    refine Run.ends_bind_ok.mpr ⟨_, _, _, ends_modify_bare _, ?_⟩
    exact Run.ends_pure.mpr ⟨rfl, rfl, rfl⟩

/-- A level that waits for no package is complete as it is. -/
lemma ends_completeLevel_bare (shelf depth scanned : Nat) (hnext : t.next = [])
    (hwaiting : t.waiting = []) :
    Run.Ends bare (completeLevel shelf depth scanned) t s (.ok []) t
      { s with journal := .levelDone depth scanned 0 :: s.journal } := by
  have hkeys : t.newKeys = [] := by
    simp [Traversal.newKeys, hwaiting, PackageKey.sort]
  refine Run.ends_bind_ok.mpr ⟨_, _, _, ends_get_bare, ?_⟩
  refine Run.ends_bind_ok.mpr ⟨[], t, s, Run.ends_lift.mpr ⟨?_, rfl⟩, ?_⟩
  · rw [hkeys]
    exact ⟨rfl, rfl⟩
  refine Run.ends_bind_ok.mpr ⟨⟨⟩, t, s, Run.ends_pure.mpr ⟨rfl, rfl, rfl⟩, ?_⟩
  refine Run.ends_bind_ok.mpr ⟨⟨⟩, t, s, ?_, ?_⟩
  · rw [hwaiting]
    exact Run.ends_pure.mpr ⟨rfl, rfl, rfl⟩
  refine Run.ends_bind_ok.mpr ⟨_, _, _, ends_log_bare _, ?_⟩
  refine Run.ends_bind_ok.mpr ⟨_, _, _, ends_get_bare, ?_⟩
  rw [hnext]
  exact Run.ends_pure.mpr ⟨rfl, rfl, rfl⟩

/-- A file without content is traversed in one level. -/
lemma ends_traverse_bare (shelf : Nat) (rules : List Remapping) (budget depth : Nat)
    (hbundle : t.bundle.get? entry = some "") (hc : t.context.Numbered) (hcur : t.context.CurrentIn s) :
    ∃ j, Run.Ends bare (traverse shelf rules entry (budget + 1) depth [entry]) t s (.ok true)
      { t with context := t.context.markScanned entry, next := [], waiting := [] }
      { s with journal := j } := by
  let u : Traversal := { t with
    context := t.context.markScanned entry, next := [], waiting := [] }
  have hscan : Run.Ends bare (scan rules entry) { t with next := [], waiting := [] } s (.ok ⟨⟩) u
      s := by
    refine Run.ends_bind_ok.mpr ⟨_, _, _, ends_modify_bare _, ?_⟩
    refine Run.ends_bind_ok.mpr ⟨_, _, _, ends_get_bare, ?_⟩
    rw [hbundle, Option.getD_some, extract_empty]
    exact Run.ends_pure.mpr ⟨rfl, rfl, rfl⟩
  have hscans : Run.Ends bare ([entry].forM (scan rules)) { t with next := [], waiting := [] } s
      (.ok ⟨⟩) u s := Run.ends_bind_ok.mpr ⟨_, _, _, hscan, Run.ends_pure.mpr ⟨rfl, rfl, rfl⟩⟩
  have hlevel : Run.Ends bare (traverseLevel shelf rules depth [entry]) t s (.ok []) u
      { s with journal := .levelDone depth 1 0 :: s.journal } := by
    refine Run.ends_bind_ok.mpr ⟨_, _, _, ends_modify_bare _, ?_⟩
    refine Run.ends_bind_ok.mpr ⟨_, _, _, hscans, ?_⟩
    exact ends_completeLevel_bare shelf depth 1 rfl rfl
  refine ⟨.levelDone depth 1 0 :: s.journal, ?_⟩
  refine Run.ends_bind_ok.mpr ⟨_, _, _, ends_get_bare, ?_⟩
  refine Run.ends_bind_ok.mpr ⟨_, _, _, ends_check_bare hc hcur, ?_⟩
  rw [if_pos rfl]
  refine Run.ends_bind_ok.mpr ⟨_, _, _, hlevel, ?_⟩
  cases budget with
  | zero => exact Run.ends_pure.mpr ⟨rfl, rfl, rfl⟩
  | succ budget => exact Run.ends_pure.mpr ⟨rfl, rfl, rfl⟩

/-- To finish the traversal of a run without records has nothing to save. -/
lemma ends_finish_bare (b : Builder) (entry : String) (hrecords : t.context.records = ∅) (hi : s.index.Idle)
    (hc : t.context.Numbered) (hcur : t.context.CurrentIn s) :
    ∃ i j, Run.Ends bare (finish b entry) t s (.ok ⟨⟩)
      { t with context := { t.context with bundle? := some t.bundle } }
      { s with index := i, journal := j } := by
  let u : Traversal := { t with context := { t.context with bundle? := some t.bundle } }
  let j := .buildDone entry t.bundle.size t.fetched.length :: s.journal
  let v : Service := { s with journal := j }
  obtain ⟨i, hsave⟩ := Index.ends_save_bare (s := v) hi
  have hcommit : Run.Ends bare (Stateful.work (commit u.context) : Traversing Bool) u v (.ok true)
      u v := by
    refine Stateful.ends_work.mpr ⟨true, ?_, rfl, rfl⟩
    refine Routine.ends_bind.mpr ⟨true, v, Work.ends_check_bare hc hcur, ?_⟩
    refine Routine.ends_bind.mpr ⟨(), v, ⟨trivial, rfl, ?_⟩, rfl, rfl⟩
    have hidle : u.context.commit s.index = s.index := Index.commit_idle hi hrecords
    show { v with index := u.context.commit s.index } = v
    rw [hidle]
  unfold finish
  by_cases hb : b.usesIndex = true
  · refine ⟨i, j, Run.ends_bind_ok.mpr ⟨_, _, _, ends_get_bare, ?_⟩⟩
    refine Run.ends_bind_ok.mpr ⟨_, _, _, ends_modify_bare _, ?_⟩
    refine Run.ends_bind_ok.mpr ⟨_, _, _, ends_log_bare _, ?_⟩
    refine Run.ends_bind_ok.mpr ⟨_, _, _, ends_get_bare, ?_⟩
    rw [if_pos hb]
    refine Run.ends_bind_ok.mpr ⟨_, _, _, hcommit, ?_⟩
    rw [if_pos rfl]
    refine Run.ends_bind_ok.mpr ⟨_, _, _, Run.ends_lift.mpr ⟨hsave, rfl⟩, ?_⟩
    exact Run.ends_pure.mpr ⟨rfl, rfl, rfl⟩
  · refine ⟨s.index, j, Run.ends_bind_ok.mpr ⟨_, _, _, ends_get_bare, ?_⟩⟩
    refine Run.ends_bind_ok.mpr ⟨_, _, _, ends_modify_bare _, ?_⟩
    refine Run.ends_bind_ok.mpr ⟨_, _, _, ends_log_bare _, ?_⟩
    refine Run.ends_bind_ok.mpr ⟨_, _, _, ends_get_bare, ?_⟩
    rw [if_neg hb]
    exact Run.ends_pure.mpr ⟨rfl, rfl, rfl⟩

/-- The bundle of a file without content is built while the run is current. -/
theorem ends_build_bare (budget : Nat) (entry : String) (hb : b.remappings? = none) (hi : s.index.Idle)
    (hrecords : c.records = ∅) (hc : c.Numbered) (hcur : c.CurrentIn s) :
    ∃ bundle c' s', (build b (budget + 1) entry "" c).Ends bare s (.ok bundle, c') s' := by
  obtain ⟨j₁, hprepare⟩ := ends_prepare_bare (s := s) entry c hb hi
  let t : Traversal := { context := c, bundle := Table.empty.insert entry "" }
  have hbundle : t.bundle.get? entry = some "" := Table.get?_insert_self _ _ _
  obtain ⟨j₂, htraverse⟩ := ends_traverse_bare (s := { s with journal := j₁ }) (t := t)
    b.shelf [] budget 0 hbundle hc hcur
  obtain ⟨i, j₃, hfinish⟩ := ends_finish_bare (s := { s with journal := j₂ })
    (t := { t with context := t.context.markScanned entry }) b entry hrecords hi hc hcur
  let t' : Traversal := { t with
    context := { t.context.markScanned entry with bundle? := some t.bundle } }
  have hrun : Run.Ends bare (run b (budget + 1) entry "") { context := c } s (.ok t.bundle) t'
      { s with index := i, journal := j₃ } := by
    refine Run.ends_bind_ok.mpr ⟨_, _, _, hprepare, ?_⟩
    refine Run.ends_bind_ok.mpr ⟨_, _, _, htraverse, ?_⟩
    rw [if_pos rfl]
    refine Run.ends_bind_ok.mpr ⟨_, _, _, hfinish, ?_⟩
    refine Run.ends_bind_ok.mpr ⟨_, _, _, ends_get_bare, ?_⟩
    exact Run.ends_pure.mpr ⟨rfl, rfl, rfl⟩
  exact ⟨_, _, _, Routine.ends_bind.mpr ⟨(.ok t.bundle, t'), _, hrun, rfl, rfl⟩⟩

end Bundle

/-! ## Compile requests -/

/-- A task whose faults are caught ends with the answer to its last question if that is none. -/
lemma Task.leads_bind_handle {T : Terms Service Question Question.Answer} {α : Type} {a : α}
    {q : Question} {x : Task α} {f : α → Task q.Result} {h : α → Fault → Option (Task q.Result)}
    {s s' s'' : Service} (hx : Attempt.Ends T x s (.ok a) s')
    (hf : (f a).run.Leads T s' (.ask q .done) s'') :
    ∃ next, (x >>= fun a => (f a).handle (h a)).run.Leads T s (.ask q next) s'' ∧
      ∀ b, next (.ok b) = .done (.ok b) := by
  obtain ⟨next, hlead, hnext⟩ : ∃ next, ((f a).handle (h a)).run.Leads T s' (.ask q next) s'' ∧
      ∀ b, next (.ok b) = .done (.ok b) := by
    rw [Task.run_handle]
    exact ⟨_, hf.bind _, fun _ => rfl⟩
  exact ⟨next, Attempt.leads_bind hx hlead, hnext⟩

namespace Compile

variable {sources bundle : Bundle} {target : String}

/-- An undisturbed request for a target with imports, but without content, comes to hand over its
bundle while its run is current. -/
theorem leads_compileBundle (budget : Nat) (hg : Import.hasGrammar target = true)
    (hsources : sources.get? target = some "") (hi : s.index.Idle) :
    ∃ bundle c s', (beginRun target s).1.SameRun c ∧ Kept (beginRun target s).2 s' ∧
      (work (budget + 1) (.compile sources target)).Leads bare s
        ((compileBundle bundle c).run.bind fun r => .done (.compiled r)) s' := by
  let c := (beginRun target s).1
  let v := (beginRun target s).2
  have hc : c.Numbered := numbered_beginRun target s
  have hcur : c.CurrentIn v := ⟨rfl, Table.get?_insert_self _ _ _⟩
  obtain ⟨bundle, c', s', hbuild⟩ := Bundle.ends_build_bare (b := currentBuilder v)
    (s := v) budget target rfl hi rfl hc hcur
  have hresolve : (resolve (budget + 1) (some "") c).Ends bare v (.ok bundle, c') s' := by
    refine Routine.ends_bind.mpr ⟨.ok "", v, ⟨rfl, rfl⟩, ?_⟩
    exact Routine.ends_bind.mpr ⟨_, v, Work.ends_gets.mpr ⟨trivial, rfl, rfl⟩, hbuild⟩
  have hobeys := obeys_resolve (S := fun _ => True) (budget + 1) (some "") c
  have hrun : c.SameRun c' := (hobeys.ends (meet_quiet bare) trivial hresolve).1
  have hkept : Kept v s' := hobeys.related (meet_quiet bare) trivial (fun _ _ h => h)
    (fun _ _ h => h ▸ refl_of Kept _) hresolve
  have hcur' : c'.CurrentIn s' :=
    (hrun.currentIn_iff s').mpr ((hc.currentIn_iff hkept).mpr hcur)
  refine ⟨bundle, c', s', hrun, hkept, .step trivial ?_⟩
  have hcheck : Attempt.Ends bare (Task.work (Work.contextIsCurrent c')) s' (.ok true) s' :=
    Task.ends_work.mpr ⟨_, Work.ends_check_bare (hrun.numbered hc) hcur', rfl⟩
  have hresolved : (compileRun (budget + 1) sources target c).run.Leads bare v
      (compileBundle bundle c').run s' := by
    rw [compileRun, if_pos hg, hsources]
    refine Attempt.leads_bind (Task.ends_work.mpr ⟨_, hresolve, rfl⟩) ?_
    exact Attempt.leads_bind hcheck .here
  exact hresolved.bind _

/-- A workspace without files, whose index has been loaded. -/
def bareService (st : Settings) : Service :=
  { settings := st, index := { path := "", loaded := true } }

lemma bareService_idle (st : Settings) : (bareService st).index.Idle := ⟨rfl, rfl, rfl, rfl⟩

/-- Such a request, the first one to a service, comes to hand over its bundle in a crowd. -/
theorem reachable_compileBundle (budget : Nat) (hg : Import.hasGrammar target = true)
    (hsources : sources.get? target = some "") (hi : s.index.Idle) :
    ∃ bundle c s' news, c.target = target ∧ s'.settings = s.settings ∧
      Crowd.Reachable (work (budget + 1)) s
        (Crowd.run 0 some ((compileBundle bundle c).run.bind fun r => .done (.compiled r))
          { state := s', fresh := 1, history := news ++ [.begun 0 (.compile sources target)] }) := by
  obtain ⟨bundle, c, s', hrun, hkept, hlead⟩ := leads_compileBundle budget hg hsources hi
  have hcall := (Crowd.reachable_start (work (budget + 1)) s).call (.compile sources target)
  obtain ⟨news, hr⟩ := hcall.of_leads hlead rfl
  exact ⟨bundle, c, s', news, hrun.target, hkept.settings, hr⟩

/-- Without a snapshot, the bundle is handed to the compiler at once. -/
lemma leads_forward (bundle : Bundle) (c : Context) (hs : s.settings.writeSnapshot = false) :
    (compileBundle bundle c).run.Leads bare s (forward bundle c).run
      { s with journal := .bundleReady c.target bundle.size :: s.journal } := by
  refine Attempt.leads_bind (Task.ends_work.mpr ⟨_, Work.ends_log_bare _, rfl⟩) ?_
  refine Attempt.leads_bind (Task.ends_work.mpr ⟨_, Work.ends_settings_bare, rfl⟩) ?_
  rw [if_neg (by simp [hs])]
  exact .here

lemma ends_ensureDirectory_bare (path : String) :
    Attempt.Ends bare (Workspace.ensureDirectory path) s (.ok ()) s := by
  unfold Workspace.ensureDirectory
  split
  · exact ⟨rfl, rfl⟩
  · refine Attempt.ends_bind_ok.mpr ⟨false, s, Work.ends_put.mpr ⟨rfl, rfl⟩, ?_⟩
    exact Work.ends_put.mpr ⟨rfl, rfl⟩

/-- To write a snapshot pauses for the workspace. -/
lemma leads_writeSnapshot (target : String) (bundle : Bundle) :
    ∃ path doc next, (writeSnapshot target bundle).run.Leads bare s (.ask (.write path doc) next) s ∧
      next (.ok ()) = .done (.ok ()) := by
  let path := s.settings.snapshotDir ++ snapshotName target ++ ".json"
  have hbody : (do
      Workspace.ensureDirectory path
      Work.write path (snapshot target bundle) : Task Unit).run.Leads bare s
        (.ask (.write path (snapshot target bundle)) .done) s :=
    Attempt.leads_bind (ends_ensureDirectory_bare path) .here
  obtain ⟨next, hlead, hnext⟩ : ∃ next, (writeSnapshot target bundle).run.Leads bare s
      (.ask (.write path (snapshot target bundle)) next) s ∧ ∀ b, next (.ok b) = .done (.ok b) :=
    Task.leads_bind_handle (Task.ends_work.mpr ⟨_, Work.ends_settings_bare, rfl⟩) hbody
  exact ⟨path, _, next, hlead, hnext ()⟩

/-- With a snapshot, the request pauses to write it, and when that is done it hands the bundle to
the compiler without any further check. -/
lemma leads_write (bundle : Bundle) (c : Context) (hs : s.settings.writeSnapshot = true) :
    ∃ path doc next, (compileBundle bundle c).run.Leads bare s (.ask (.write path doc) next)
      { s with journal := .bundleReady c.target bundle.size :: s.journal } ∧
        next (.ok ()) = (forward bundle c).run := by
  obtain ⟨path, doc, next, hlead, hnext⟩ := leads_writeSnapshot
    (s := { s with journal := .bundleReady c.target bundle.size :: s.journal }) c.target bundle
  obtain ⟨next', hlead', hnext'⟩ := Attempt.leads_bind_ask (fun _ => forward bundle c) hlead hnext
  refine ⟨path, doc, next', ?_, hnext'⟩
  refine Attempt.leads_bind (Task.ends_work.mpr ⟨_, Work.ends_log_bare _, rfl⟩) ?_
  refine Attempt.leads_bind (Task.ends_work.mpr ⟨_, Work.ends_settings_bare, rfl⟩) ?_
  rw [if_pos hs]
  exact hlead'

end Compile

end SourceBundle
