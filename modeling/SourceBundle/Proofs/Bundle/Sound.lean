/-
# Safe builds

Among honest collaborators a build meets expected faults only.  What carries the argument is that the
ranges which the traversal knows of are readable all the way: those of the workspace when they are
loaded, those of a package when it joins, and that of an import because it has no blanks.
-/
import SourceBundle.Bundle.Build
import SourceBundle.Proofs.Resolve.Sound

namespace SourceBundle.Bundle

open SourceBundle.Import SourceBundle.Text

variable {C : Surroundings} {α : Type}

/-- All ranges that a traversal knows of are readable. -/
def Traversal.Sound (t : Traversal) : Prop := t.resolver.Sound

/-- A part of a traversal has expected faults only, as long as all known ranges are readable. -/
abbrev Traversing.Safe (C : Surroundings) (x : Traversing α) (post : α → Prop) : Prop :=
  Stateful.Safe C Traversal.Sound x post

section Parts

variable {post : α → Prop}

lemma Traversal.Sound.of_resolver {t t' : Traversal} (h : t.Sound)
    (hm : t'.manifest? = t.manifest?) (hl : t'.lockfile = t.lockfile)
    (hp : t'.context.parents = t.context.parents) : t'.Sound :=
  ⟨fun m h' => h.manifest m (hm.symm.trans h'), show t'.lockfile.Readable from hl ▸ h.lockfile,
    fun key deps h' => h.parents key deps (show t.context.parents.get? key = some deps from hp ▸ h')⟩

lemma safe_modify {f : Traversal → Traversal} (hf : ∀ t : Traversal, (f t).manifest? = t.manifest? ∧
    (f t).lockfile = t.lockfile ∧ (f t).context.parents = t.context.parents) :
    Traversing.Safe C (modifyThe Traversal f) fun _ => True :=
  Run.Secures.modify fun t ht => ht.of_resolver (hf t).1 (hf t).2.1 (hf t).2.2

lemma safe_changeContext {f : Context → Context} (hf : ∀ c : Context, (f c).parents = c.parents) :
    Traversing.Safe C (changeContext f) fun _ => True :=
  safe_modify fun t => ⟨rfl, rfl, hf t.context⟩

lemma safe_collecting {x : Resolve.Warned α} (hx : Resolve.Warned.Safe C x post) :
    Traversing.Safe C (collecting x) post :=
  hx.zoom (fun _ _ => trivial) fun _ _ ht _ => ht.of_resolver rfl rfl rfl

lemma safe_choosing {x : Resolve.Choosing α} (hx : Resolve.Choosing.Safe C x post) :
    Traversing.Safe C (choosing x) post :=
  hx.zoom (fun _ ht => ht) fun _ _ _ hr => ⟨hr.manifest, hr.lockfile, hr.parents⟩

end Parts

/-! ## Locating the file of an import -/

lemma safe_addLocal (path : String) (ref : Reference) :
    Traversing.Safe C (addLocal path ref) fun _ => True := by
  refine Run.Secures.get.bind fun t _ => ?_
  split
  · exact Run.Secures.pure trivial
  · refine Run.Secures.bind (Stateful.safe_task (Task.secures_handle_workspace ?_
      (fun _ => Or.inr) fun w => Attempt.Secures.throw (Or.inl rfl))) fun content (_ : True) => ?_
    · refine ((Work.secures_probe path).widen fun _ => Fault.OfWorkspace.expected).bind fun there _ => ?_
      split
      · exact (Workspace.safe_readTwice path).imp fun _ _ => trivial
      · exact Attempt.Secures.throw (Or.inl rfl)
    · exact safe_modify fun t => ⟨rfl, rfl, rfl⟩

lemma safe_isFile (literal : String) (ref : Reference) :
    Traversing.Safe C (isFile literal ref) fun _ => True := by
  refine Run.Secures.get.bind fun t _ => ?_
  split
  · exact Run.Secures.pure trivial
  · refine Stateful.safe_handle (Stateful.safe_task
      ((Work.secures_probe literal).widen fun _ => Fault.OfWorkspace.expected)) fun f y hy => ?_
    split at hy
    · obtain rfl := Option.some.inj hy
      exact Run.Secures.throw (Or.inl rfl)
    · cases hy

lemma safe_awaitPackage (ref : Reference) {package : PackageReference}
    (hrange : ∀ range, package.version? = some range → Version.Readable range) :
    Traversing.Safe C (awaitPackage ref package) fun _ => True := by
  unfold awaitPackage
  split
  · exact Run.Secures.throw (Or.inl rfl)
  · refine Run.Secures.get.bind fun t _ => ?_
    refine (safe_choosing (Resolve.safe_resolve hrange _)).bind fun resolved _ => ?_
    refine Run.Secures.bind (safe_modify fun t => ⟨rfl, rfl, rfl⟩) fun _ _ => ?_
    exact Stateful.safe_settings.bind fun _ _ => Run.Secures.pure trivial

lemma safe_locatePackage (ref : Reference) (literal : String) :
    Traversing.Safe C (do
      let s ← Stateful.work Work.settings
      match PackageReference.parse (packageLiteral s literal) with
      | .error f =>
        collecting (Resolve.warn
          (.parseFailure ("import " ++ quoted ref.path ++ " in " ++ ref.file) f.message))
        pure none
      | .ok package =>
        let path ← awaitPackage ref package
        pure (some path)) fun _ => True := by
  refine Stateful.safe_settings.bind fun s _ => ?_
  split
  · exact (safe_collecting (Resolve.safe_warn _)).bind fun _ _ => Run.Secures.pure trivial
  · next package hparse =>
    refine Run.Secures.bind (safe_awaitPackage ref fun range hrange => ?_) fun _ _ =>
      Run.Secures.pure trivial
    exact PackageReference.readable_of_parse hparse hrange

lemma safe_locate (ref : Reference) (literal : String) :
    Traversing.Safe C (locate ref literal) fun _ => True := by
  have hlocal : ∀ path, Traversing.Safe C (do
      addLocal path ref
      pure (some path)) fun _ => True :=
    fun path => (safe_addLocal path ref).bind fun _ _ => Run.Secures.pure trivial
  unfold locate
  refine Stateful.safe_settings.bind fun s _ => ?_
  dsimp only
  split
  · exact hlocal _
  · split
    · refine (safe_isFile literal ref).bind fun found _ => ?_
      split
      · exact hlocal _
      · exact safe_locatePackage ref literal
    · refine Run.Secures.bind (Run.Secures.pure trivial) fun found (_ : True) => ?_
      split
      · exact hlocal _
      · exact safe_locatePackage ref literal

lemma parents_record (c : Context) (file literal path : String) :
    (c.record file literal path).parents = c.parents := by
  unfold Context.record
  split <;> rfl

lemma parents_noteImport (rules : List Remapping) (ref : Reference) (path : String) (c : Context) :
    (noteImport rules ref path c).parents = c.parents := by
  unfold noteImport
  dsimp only
  split
  · rw [parents_record, parents_record]
    rfl
  · rw [parents_record]
    rfl

lemma safe_followImport (rules : List Remapping) (ref : Reference) :
    Traversing.Safe C (followImport rules ref) fun _ => True := by
  refine (safe_locate _ _).bind fun path? _ => ?_
  cases path? with
  | none => exact Run.Secures.pure trivial
  | some path => exact safe_changeContext (parents_noteImport rules ref path)

lemma safe_scan (rules : List Remapping) (file : String) :
    Traversing.Safe C (scan rules file) fun _ => True := by
  refine Run.Secures.bind (safe_changeContext fun c => rfl) fun _ _ => ?_
  refine Run.Secures.get.bind fun t _ => ?_
  exact Run.Secures.forM fun ref _ => safe_followImport rules ref

/-! ## Adding packages -/

lemma safe_recordParent {node : Node} (hn : LegibleFiles node.files) :
    Traversing.Safe C (recordParent node) fun _ => True := by
  unfold recordParent
  split
  · exact Run.Secures.pure trivial
  · next content hcontent =>
    refine (Stateful.safe_task (Resolve.safe_readManifest (hn content hcontent))).bind fun r hr => ?_
    cases r with
    | error f =>
      exact Stateful.safe_settings.bind fun s _ => safe_collecting (Resolve.safe_warn _)
    | ok m =>
      dsimp only
      split
      · exact Run.Secures.pure trivial
      · refine Run.Secures.modify fun t ht => ⟨ht.manifest, ht.lockfile, fun key deps hget => ?_⟩
        by_cases hk : node.key = key
        · subst hk
          obtain rfl := Option.some.inj ((Table.get?_insert_self _ _ _).symm.trans hget)
          exact (hr m rfl).runtimeDependencies
        · exact ht.parents key deps ((Table.get?_insert_ne _ hk _).symm.trans hget)

lemma safe_notePackageFile (key : PackageKey) (path : String) :
    Traversing.Safe C (notePackageFile key path) fun _ => True := by
  refine Run.Secures.get.bind fun t _ => ?_
  refine Run.Secures.bind (safe_changeContext fun c => rfl) fun _ _ => ?_
  split
  · exact safe_collecting (Resolve.safe_warn _)
  · exact Run.Secures.pure trivial

lemma safe_addPackageFile (node : Node) (path content : String) :
    Traversing.Safe C (addPackageFile node path content) fun _ => True := by
  unfold addPackageFile
  split
  · refine Stateful.safe_settings.bind fun s _ => Run.Secures.get.bind fun t _ => ?_
    split
    · exact Run.Secures.pure trivial
    · refine (safe_notePackageFile _ _).bind fun _ _ => ?_
      refine Run.Secures.bind (safe_changeContext fun c => rfl) fun _ _ => ?_
      exact safe_modify fun t => ⟨rfl, rfl, rfl⟩
  · exact Run.Secures.pure trivial

lemma safe_addPackage (node : Node) : Traversing.Safe C (addPackage node) fun _ => True :=
  Run.Secures.forM fun f _ => safe_addPackageFile node f.1 f.2

lemma secures_writePackage (node : Node) :
    Attempt.Secures C.footing Fault.OfWorkspace (writePackage node) fun _ => True := by
  have hsettings : Work.settings.Secures C.footing fun _ => True := .gets fun _ _ => trivial
  refine Attempt.Secures.forM fun f _ => ?_
  refine (Task.secures_work hsettings).bind fun s _ => ?_
  refine (Workspace.secures_ensureDirectory _).bind fun _ _ => ?_
  exact Work.secures_write _ _

lemma safe_materialize (shelf : Nat) (node : Node) :
    Task.Safe C (materialize shelf node) fun _ => True := by
  have hget : (Routine.get : Work Service).Secures C.footing fun _ => True :=
    fun s hs => ⟨hs, hs, trivial⟩
  refine (Task.secures_work hget).bind fun s _ => ?_
  split
  · exact Attempt.Secures.pure trivial
  · refine Task.secures_handle_workspace ?_ (fun _ => Or.inl) fun w => Task.secures_log _
    refine (secures_writePackage node).bind fun _ _ => Task.secures_work ?_
    exact .modify fun s hs =>
      ⟨hs.settings, hs.index, hs.entries, hs.settled, hs.delivered, hs.loads⟩

lemma safe_joinPackage (shelf : Nat) {node : Node} (hn : LegibleFiles node.files) :
    Traversing.Safe C (joinPackage shelf node) fun _ => True := by
  refine Run.Secures.bind (safe_modify fun t => ⟨rfl, rfl, rfl⟩) fun _ _ => ?_
  refine (safe_recordParent hn).bind fun _ _ => ?_
  refine (safe_addPackage node).bind fun _ _ => ?_
  exact Stateful.safe_task (safe_materialize shelf node)

lemma safe_checkWaiting (ws : List Waiting) :
    Traversing.Safe C (checkWaiting ws) fun _ => True := by
  induction ws with
  | nil => exact Run.Secures.pure trivial
  | cons w ws ih =>
    refine Stateful.safe_settings.bind fun s _ => Run.Secures.get.bind fun t _ => ?_
    split
    · exact ih
    · exact Run.Secures.throw (Or.inl rfl)

/-! ## The levels -/

lemma safe_completeLevel (shelf depth scanned : Nat) :
    Traversing.Safe C (completeLevel shelf depth scanned) fun _ => True := by
  refine Run.Secures.get.bind fun t _ => ?_
  refine (Stateful.safe_task (Cache.safe_fetchAll t.newKeys)).bind fun nodes hnodes => ?_
  refine Run.Secures.bind (Run.Secures.forM fun n hn => safe_joinPackage shelf (hnodes n hn))
    fun _ _ => ?_
  refine (safe_checkWaiting _).bind fun _ _ => (Stateful.safe_log _).bind fun _ _ => ?_
  exact Run.Secures.get.bind fun _ _ => Run.Secures.pure trivial

lemma safe_traverseLevel (shelf : Nat) (rules : List Remapping) (depth : Nat) (level : List String) :
    Traversing.Safe C (traverseLevel shelf rules depth level) fun _ => True := by
  refine Run.Secures.bind (safe_modify fun t => ⟨rfl, rfl, rfl⟩) fun _ _ => ?_
  refine Run.Secures.bind (Run.Secures.forM fun file _ => safe_scan rules file) fun _ _ => ?_
  exact safe_completeLevel _ _ _

lemma secures_contextIsCurrent (c : Context) :
    (Work.contextIsCurrent c).Secures C.footing fun _ => True :=
  (@Work.plain_contextIsCurrent true (fun _ => False) c).secures

lemma safe_traverse (shelf : Nat) (rules : List Remapping) (entry : String)
    (budget depth : Nat) (level : List String) :
    Traversing.Safe C (traverse shelf rules entry budget depth level) fun _ => True := by
  induction budget generalizing depth level with
  | zero =>
    cases level with
    | nil => exact Run.Secures.pure trivial
    | cons file files => exact Run.Secures.throw (Or.inr (Or.inl rfl))
  | succ budget ih =>
    cases level with
    | nil => exact Run.Secures.pure trivial
    | cons file files =>
      refine Run.Secures.get.bind fun t _ => ?_
      refine (Stateful.safe_work (secures_contextIsCurrent _)).bind fun current _ => ?_
      cases current with
      | true => exact (safe_traverseLevel _ _ _ _).bind fun next _ => ih _ next
      | false => exact (Stateful.safe_log _).bind fun _ _ => Run.Secures.pure trivial

/-! ## The whole build -/

lemma secures_commit (c : Context) : (commit c).Secures C.footing fun _ => True := by
  refine (secures_contextIsCurrent c).bind fun current _ => ?_
  cases current with
  | true =>
    exact (Index.secures_change fun i => (Context.rewritten_commit c i).sameLoads).bind fun _ _ =>
      .done trivial
  | false => exact (Work.secures_log _).bind fun _ _ => .done trivial

lemma safe_finish (b : Builder) (entry : String) :
    Traversing.Safe C (finish b entry) fun _ => True := by
  refine Run.Secures.get.bind fun t _ => ?_
  refine Run.Secures.bind (safe_changeContext fun c => rfl) fun _ _ => ?_
  refine (Stateful.safe_log _).bind fun _ _ => Run.Secures.get.bind fun t' _ => ?_
  split
  · refine (Stateful.safe_work (secures_commit _)).bind fun committed _ => ?_
    split
    · exact (Stateful.safe_task Index.safe_save).bind fun _ _ => Run.Secures.pure trivial
    · exact Run.Secures.pure trivial
  · exact Run.Secures.pure trivial

lemma safe_rulesOf (b : Builder) : Traversing.Safe C (rulesOf b) fun _ => True := by
  unfold rulesOf
  split
  · exact Run.Secures.pure trivial
  · exact safe_collecting (Resolve.safe_loadRemappings true)

lemma safe_prepare (b : Builder) (entry content : String) :
    Traversing.Safe C (prepare b entry content) fun _ => True := by
  have hrest : Traversing.Safe C (do
      let rules ← rulesOf b
      let c := (← getThe Traversal).context
      let r ← collecting (Resolve.ofWorkspace c.session c.parents)
      modifyThe Traversal fun t => { t with
        manifest? := r.manifest?, lockfile := r.lockfile, bundle := Table.empty.insert entry content }
      pure rules) fun _ => True := by
    refine (safe_rulesOf b).bind fun rules _ => Run.Secures.get.bind fun t ht => ?_
    refine (safe_collecting (Resolve.safe_ofWorkspace _ ht.parents)).bind fun r hr => ?_
    refine Run.Secures.bind (Run.Secures.modify fun t ht => ?_) fun _ _ => Run.Secures.pure trivial
    exact ⟨hr.manifest, hr.lockfile, ht.parents⟩
  unfold prepare
  split
  · exact (Stateful.safe_task Index.safe_load).bind fun _ _ => hrest
  · exact hrest

/-- A build has expected faults only, whatever else happens, if the ranges that its run knows of
beforehand are readable. -/
theorem secures_build (b : Builder) (budget : Nat) (entry content : String) {c : Context}
    (hc : ∀ key deps, c.parents.get? key = some deps → Manifest.AllReadable deps) :
    (build b budget entry content c).Secures C.footing fun p =>
      Except.Within (Fault.Expected C.cancels) (fun _ => True) p.1 := by
  have hrun : Traversing.Safe C (run b budget entry content) fun _ => True := by
    refine (safe_prepare b entry content).bind fun rules _ => ?_
    refine (safe_traverse _ _ _ _ _ _).bind fun complete _ => ?_
    have hend : Traversing.Safe C (do pure (← getThe Traversal).bundle) fun _ => True :=
      Run.Secures.get.bind fun _ _ => Run.Secures.pure trivial
    split
    · exact (safe_finish b entry).bind fun _ _ => hend
    · exact hend
  exact Routine.Secures.bind (hrun { context := c } ⟨nofun, nofun, hc⟩) fun p hp => .done hp.2

end SourceBundle.Bundle
