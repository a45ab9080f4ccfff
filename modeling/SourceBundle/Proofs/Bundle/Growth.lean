/-
# Traversals only grow

Whatever a traversal does within a level, files are added to the bundle and to the next level
together, and imports that wait, edges of the graph and warnings are added to those that are there;
what the run goes by is left alone.  Every routine of a level obeys this.
-/
import SourceBundle.Bundle.Build
import SourceBundle.Proofs.Resolve.Kept
import SourceBundle.Proofs.Table

namespace SourceBundle

open SourceBundle.Import

/-- An empty file imports nothing. -/
lemma Import.extract_empty (file : String) : extract "" file = [] := by
  unfold extract
  split <;> rfl

/-! ## Growth of the state of a run -/

/-- The files that a scanned file imports. -/
def Context.importsOf (c : Context) (file : String) : List String := (c.graph.get? file).getD []

/-- Some files are scanned; what the run goes by is the same, and edges and warnings are only
added. -/
structure Context.GrowsBy (files : List String) (c c' : Context) : Prop where
  target : c'.target = c.target
  generation : c'.generation = c.generation
  standing : c'.standing = c.standing
  scanned : c'.scanned = c.scanned ++ files
  bundle? : c'.bundle? = c.bundle?
  edges : ∀ f p, p ∈ c.importsOf f → p ∈ c'.importsOf f
  warnings : c.warnings.Extends c'.warnings

/-- Growth without any scanning. -/
abbrev Context.Grows (c c' : Context) : Prop := c.GrowsBy [] c'

lemma Context.GrowsBy.trans {files files' : List String} {c c' c'' : Context}
    (h : c.GrowsBy files c') (h' : c'.GrowsBy files' c'') : c.GrowsBy (files ++ files') c'' where
  target := h'.target.trans h.target
  generation := h'.generation.trans h.generation
  standing := h'.standing.trans h.standing
  scanned := by rw [h'.scanned, h.scanned, List.append_assoc]
  bundle? := h'.bundle?.trans h.bundle?
  edges f p hp := h'.edges f p (h.edges f p hp)
  warnings := trans_of WarningLog.Extends h.warnings h'.warnings

instance : IsPreorder Context Context.Grows where
  refl _ := ⟨rfl, rfl, rfl, (List.append_nil _).symm, rfl, fun _ _ h => h,
    refl_of WarningLog.Extends _⟩
  trans _ _ _ h h' := h.trans h'

namespace Context

/-- A change of nothing but the notes on packages and records. -/
lemma Grows.of_eq {c c' : Context} (ht : c'.target = c.target) (hg : c'.generation = c.generation)
    (hs : c'.standing = c.standing) (hc : c'.scanned = c.scanned) (hb : c'.bundle? = c.bundle?)
    (he : c'.graph = c.graph) (hw : c'.warnings = c.warnings) : c.Grows c' where
  target := ht
  generation := hg
  standing := hs
  scanned := hc.trans (List.append_nil _).symm
  bundle? := hb
  edges f p hp := by simpa [importsOf, he] using hp
  warnings := hw ▸ refl_of WarningLog.Extends _

lemma mem_importsOf_addEdge {c : Context} {file path f p : String} :
    p ∈ (c.addEdge file path).importsOf f ↔ p ∈ c.importsOf f ∨ f = file ∧ p = path := by
  by_cases hf : file = f
  · subst hf
    simp only [importsOf, addEdge, Table.get?_update_self, Option.getD_some, List.contains_iff_mem]
    split <;> grind
  · have hf' : ¬ f = file := fun e => hf e.symm
    simp [importsOf, addEdge, Table.get?_update_ne _ hf, hf']

lemma grows_addEdge (c : Context) (file path : String) : c.Grows (c.addEdge file path) where
  target := rfl
  generation := rfl
  standing := rfl
  scanned := (List.append_nil _).symm
  bundle? := rfl
  edges _ _ hp := mem_importsOf_addEdge.mpr (Or.inl hp)
  warnings := refl_of WarningLog.Extends _

lemma grows_record (c : Context) (file literal path : String) :
    c.Grows (c.record file literal path) := by
  unfold record
  split
  · exact refl_of Grows c
  · exact Grows.of_eq rfl rfl rfl rfl rfl rfl rfl

lemma importsOf_markScanned (c : Context) (file f : String) :
    (c.markScanned file).importsOf f = c.importsOf f := by
  unfold importsOf markScanned Table.insertNew
  dsimp only
  split
  · rfl
  · next h =>
    by_cases hf : file = f
    · subst hf
      simp only [Table.contains, Bool.not_eq_true, Option.isSome_eq_false_iff,
        Option.isNone_iff_eq_none] at h
      simp [h]
    · rw [Table.get?_insert_ne _ hf]

/-- To mark a new file as scanned adds it to the scanned files. -/
lemma growsBy_markScanned {c : Context} {file : String} (h : file ∉ c.scanned) :
    c.GrowsBy [file] (c.markScanned file) where
  target := rfl
  generation := rfl
  standing := rfl
  scanned := by simp [markScanned, h]
  bundle? := rfl
  edges f _ hp := (c.importsOf_markScanned file f).symm ▸ hp
  warnings := refl_of WarningLog.Extends _

end Context

/-! ## Growth of a traversal -/

namespace Bundle

/-- Some files are scanned, files are added to the bundle and to the next level, and imports that
wait, edges and warnings are added. -/
structure Traversal.GrowsBy (files : List String) (t t' : Traversal) : Prop where
  context : t.context.GrowsBy files t'.context
  files : ∃ more, t'.bundle.entries = t.bundle.entries ++ more ∧
    t'.next = t.next ++ more.map Prod.fst
  waiting : t.waiting <+: t'.waiting

/-- Growth without any scanning. -/
abbrev Traversal.Grows (t t' : Traversal) : Prop := t.GrowsBy [] t'

lemma Traversal.GrowsBy.trans {files files' : List String} {t t' t'' : Traversal}
    (h : t.GrowsBy files t') (h' : t'.GrowsBy files' t'') : t.GrowsBy (files ++ files') t'' := by
  refine ⟨h.context.trans h'.context, ?_, h.waiting.trans h'.waiting⟩
  obtain ⟨more, hb, hn⟩ := h.files
  obtain ⟨more', hb', hn'⟩ := h'.files
  exact ⟨more ++ more', by simp [hb, hb'], by simp [hn, hn']⟩

instance : IsPreorder Traversal Traversal.Grows where
  refl t := ⟨refl_of Context.Grows _, ⟨[], by simp, by simp⟩, List.prefix_refl _⟩
  trans _ _ _ h h' := h.trans h'

/-- Nothing but the state of the run changes, and that grows. -/
def Traversal.Notes (t t' : Traversal) : Prop :=
  ∃ c, t.context.Grows c ∧ t' = { t with context := c }

instance : IsPreorder Traversal Traversal.Notes where
  refl t := ⟨t.context, refl_of Context.Grows _, rfl⟩
  trans := by
    rintro t _ _ ⟨c, h, rfl⟩ ⟨c', h', rfl⟩
    exact ⟨c', trans_of Context.Grows h h', rfl⟩

namespace Traversal

lemma Notes.grows {t t' : Traversal} (h : t.Notes t') : t.Grows t' := by
  obtain ⟨c, h, rfl⟩ := h
  exact ⟨h, ⟨[], by simp, by simp⟩, List.prefix_refl _⟩

lemma GrowsBy.entries {files : List String} {t t' : Traversal} (h : t.GrowsBy files t') :
    t.bundle.entries <+: t'.bundle.entries := by
  obtain ⟨more, hb, -⟩ := h.files
  exact ⟨more, hb.symm⟩

lemma GrowsBy.contains {files : List String} {t t' : Traversal} (h : t.GrowsBy files t')
    {path : String} (hp : t.bundle.contains path = true) : t'.bundle.contains path = true := by
  obtain ⟨content, hc⟩ := Option.isSome_iff_exists.mp hp
  exact Option.isSome_iff_exists.mpr ⟨content, Table.get?_of_prefix h.entries hc⟩

lemma GrowsBy.mem_keys {files : List String} {t t' : Traversal} (h : t.GrowsBy files t')
    {path : String} (hp : path ∈ t.bundle.keys) : path ∈ t'.bundle.keys :=
  Table.contains_iff.mp (h.contains (Table.contains_iff.mpr hp))

/-- A new file joins the bundle and the next level. -/
lemma grows_addFile {t : Traversal} {path : String} (h : ¬ t.bundle.contains path = true)
    (content : String) : t.Grows (t.addFile path content) where
  context := refl_of Context.Grows _
  files := ⟨[(path, content)], Table.entries_insert_new h content, rfl⟩
  waiting := List.prefix_refl _

end Traversal

variable {S : Service → Prop} {α : Type} {I : Traversal → Traversal → Prop} {busy : Bool}
  {D : String → Prop}

/-! ## Parts of a traversal -/

lemma notes_changeContext {f : Context → Context} (h : ∀ c : Context, c.Grows (f c)) :
    Run.Plain (plainly busy D) Traversal.Notes (changeContext f) :=
  Run.Plain.modify fun t => ⟨f t.context, h t.context, rfl⟩

lemma notes_collecting {x : Resolve.Warned α} (hx : Run.Plain (plainly busy D) WarningLog.Extends x) :
    Run.Plain (plainly busy D) Traversal.Notes (collecting x) :=
  hx.zoom fun t l h =>
    ⟨{ t.context with warnings := l },
      ⟨rfl, rfl, rfl, (List.append_nil _).symm, rfl, fun _ _ hp => hp, h⟩, rfl⟩

lemma keeps_choosing {x : Resolve.Choosing α} (hx : Run.Plain (plainly busy D) Resolver.Extends x) :
    Run.Plain (plainly busy D) Traversal.Grows (choosing x) :=
  hx.zoom fun _ _ h =>
    ⟨⟨rfl, rfl, rfl, (List.append_nil _).symm, rfl, fun _ _ hp => hp, h⟩, ⟨[], by simp [Traversal.withResolver],
      by simp [Traversal.withResolver]⟩, List.prefix_refl _⟩

lemma keeps_of_notes {x : Traversing α} (h : Run.Plain (plainly busy D) Traversal.Notes x) :
    Run.Plain (plainly busy D) Traversal.Grows x :=
  h.imp fun _ _ => Traversal.Notes.grows

lemma keeps_settings [IsPreorder Traversal I] :
    Run.Plain (plainly busy D) I (Stateful.work Work.settings : Traversing Settings) :=
  Stateful.plain_work Work.plain_settings

/-- What a run does after it has read its private state may depend on what that was. -/
lemma keeps_get_bind {f : Traversal → Traversing α}
    (h : ∀ t, ((f t).run t).Plain (plainly busy D) fun p => I t p.2) :
    Run.Plain (plainly busy D) I (getThe Traversal >>= f) := h

/-- A new file is added after some notes. -/
lemma grows_addFile_of_notes {t u : Traversal} {path : String}
    (h : ¬ t.bundle.contains path = true) (hu : t.Notes u) (content : String) :
    t.Grows (u.addFile path content) := by
  obtain ⟨c, hc, rfl⟩ := hu
  have h' : ¬ ({ t with context := c } : Traversal).bundle.contains path = true := h
  exact trans_of Traversal.Grows (Traversal.Notes.grows ⟨c, hc, rfl⟩) (Traversal.grows_addFile h' _)

/-! ## Locating and following imports -/

/-- A routine that adds a workspace file changes nothing but that it adds the file, and only if it
is new. -/
lemma plain_addLocal [IsPreorder Traversal I]
    (hI : ∀ (t : Traversal) path content, ¬ t.bundle.contains path = true → I t (t.addFile path content))
    (path : String) (ref : Reference) : Run.Plain (plainly busy D) I (addLocal path ref) := by
  refine keeps_get_bind fun t => ?_
  split
  · exact refl_of I t
  · next h =>
    -- that the file is new is known of the traversal that was read, so reading the file must leave
    -- all of the traversal as it is
    rw [Run.run_bind]
    refine Routine.Plain.bind (Run.Plain.lift (refl_of Eq) ?_ t) ?_
    · refine Task.plain_handle_workspace (Work.plain_probe_bind (fun there => ?_) fun _ => ?_)
        fun f => ?_
      · split
        · exact Workspace.plain_readTwice path
        · exact Attempt.Plain.throw _
      · exact Workspace.doomed_readTwice path
      · exact Attempt.Plain.throw _
    · rintro ⟨r | content, u⟩ (rfl : t = u)
      · exact refl_of I t
      · exact hI t path content h

lemma keeps_addLocal (path : String) (ref : Reference) :
    Run.Plain (plainly busy D) Traversal.Grows (addLocal path ref) :=
  plain_addLocal (fun _ _ content h => Traversal.grows_addFile h content) path ref

/-- To add a workspace file that is not in the bundle asks for it again, and reads it at once. -/
lemma doomed_addLocal {path : String} (ref : Reference) {t : Traversal}
    (h : ¬ t.bundle.contains path = true) :
    ((addLocal path ref).run t).Doomed (plainly busy D) (.probe path) := by
  have hrun : ∃ f, (addLocal path ref).run t = Routine.ask (.probe path) f ∧
      (f (.ok true)).Doomed (plainly busy D) (.probe path) := by
    unfold addLocal
    rw [Run.run_bind]
    show ∃ f, (ite _ _ _ : Traversing Unit).run t = _ ∧ _
    rw [if_neg h]
    exact ⟨_, rfl, Or.inl ⟨path, rfl, rfl⟩⟩
  obtain ⟨f, hrun, hf⟩ := hrun
  rw [hrun]
  refine Or.inr ⟨rfl, ?_⟩
  rintro _ ⟨-, rfl⟩
  exact hf

lemma isFile_of_contains {literal : String} {t : Traversal} (ref : Reference)
    (h : t.bundle.contains literal = true) :
    (isFile literal ref).run t = .done (.ok true, t) := by
  show (ite _ _ _ : Traversing Bool).run t = _
  rw [if_pos h]
  rfl

/-- Whether a file that is not in the bundle is there, is for the workspace to say. -/
lemma isFile_of_not_contains {literal : String} {t : Traversal} (ref : Reference)
    (h : ¬ t.bundle.contains literal = true) :
    ∃ next, (isFile literal ref).run t = .ask (.probe literal) next ∧
      (∀ there, next (.ok there) = .done (.ok there, t)) ∧
      ∀ e, ∃ f, next (.error e) = .done (.error f, t) := by
  refine ⟨_, congrArg (fun x : Traversing Bool => ExceptT.run x t) (if_neg h), fun _ => rfl, ?_⟩
  intro e
  cases e <;> exact ⟨_, rfl⟩

/-- What is done about an import of a file that may be in the workspace is plain, if what is found
there is added at once. -/
lemma keeps_isFile_bind [IsPreorder Traversal I] {literal : String} {ref : Reference}
    {f : Bool → Traversing α} (hf : ∀ found, Run.Plain (plainly busy D) I (f found))
    (ht : ∀ t : Traversal, ¬ t.bundle.contains literal = true →
      ((f true).run t).Doomed (plainly busy D) (.probe literal)) :
    Run.Plain (plainly busy D) I (isFile literal ref >>= f) := by
  intro t
  rw [Run.run_bind]
  by_cases hb : t.bundle.contains literal = true
  · rw [isFile_of_contains ref hb]
    exact hf true t
  · obtain ⟨next, hask, hok, herror⟩ := isFile_of_not_contains ref hb
    rw [hask]
    refine ⟨⟨rfl, nofun⟩, fun a => ?_, ?_⟩
    · cases a with
      | ok there =>
        dsimp only
        rw [hok there]
        exact hf there t
      | error e =>
        obtain ⟨g, hg⟩ := herror e
        dsimp only
        rw [hg]
        exact refl_of I t
    · rintro _ ⟨-, rfl⟩
      dsimp only
      rw [hok true]
      exact ht t hb

/-- Where nothing is fatal, to ask whether an import names a file is plain by itself. -/
lemma plain_isFile [IsPreorder Traversal I] (literal : String) (ref : Reference) :
    Run.Plain (plainly busy fun _ => False) I (isFile literal ref) := by
  refine Run.Plain.get.bind fun t => ?_
  split
  · exact Run.Plain.pure _
  · refine Stateful.plain_handle (Stateful.plain_task (Work.plain_probe _)) fun f y hf => ?_
    split at hf
    · obtain rfl := Option.some.inj hf
      exact Run.Plain.throw _
    · exact absurd hf (Option.some_ne_none _).symm

lemma keeps_awaitPackage (ref : Reference) (package : PackageReference) :
    Run.Plain (plainly busy D) Traversal.Grows (awaitPackage ref package) := by
  unfold awaitPackage
  split
  · exact Run.Plain.throw _
  · refine Run.Plain.get.bind fun t => ?_
    refine (keeps_choosing (Resolve.keeps_resolve _ _)).bind fun resolved => ?_
    refine Run.Plain.bind (Run.Plain.modify fun t => ?_) fun _ => ?_
    · exact ⟨refl_of Context.Grows _, ⟨[], by simp, by simp⟩, List.prefix_append _ _⟩
    · exact keeps_settings.bind fun _ => Run.Plain.pure _

/-- How an import that may name a workspace file is followed when it is known whether the file is
there. -/
def followFound (ref : Reference) (literal : String) (found : Bool) : Traversing (Option String) := do
  if found then
    addLocal literal ref
    pure (some literal)
  else
    let s ← Stateful.work Work.settings
    match PackageReference.parse (packageLiteral s literal) with
    | .error f =>
      collecting (Resolve.warn
        (.parseFailure ("import " ++ Text.quoted ref.path ++ " in " ++ ref.file) f.message))
      pure none
    | .ok package =>
      let path ← awaitPackage ref package
      pure (some path)

/-- To locate an import is plain if the ways to do it are: what is found in the workspace is added at
once. -/
lemma plain_locate [IsPreorder Traversal I] {ref : Reference}
    (hadd : ∀ path, Run.Plain (plainly busy D) I (addLocal path ref))
    (hwarn : ∀ source reason, Run.Plain (plainly busy D) I
      (collecting (Resolve.warn (.parseFailure source reason))))
    (hawait : ∀ package, Run.Plain (plainly busy D) I (awaitPackage ref package)) (literal : String) :
    Run.Plain (plainly busy D) I (locate ref literal) := by
  have hfound : ∀ found, Run.Plain (plainly busy D) I (followFound ref literal found) := by
    intro found
    cases found
    · refine (Stateful.plain_work Work.plain_settings).bind fun s => ?_
      split
      · exact (hwarn _ _).bind fun _ => Run.Plain.pure _
      · exact (hawait _).bind fun _ => Run.Plain.pure _
    · exact (hadd _).bind fun _ => Run.Plain.pure _
  refine (Stateful.plain_work Work.plain_settings).bind fun s => ?_
  dsimp only
  split
  · exact (hadd _).bind fun _ => Run.Plain.pure _
  · show Run.Plain _ _ ((ite _ _ _ : Traversing Bool) >>= followFound ref literal)
    split
    · exact keeps_isFile_bind hfound fun t h => (doomed_addLocal ref h).bind _
    · exact Run.Plain.bind (Run.Plain.pure _) hfound

lemma keeps_locate (ref : Reference) (literal : String) :
    Run.Plain (plainly busy D) Traversal.Grows (locate ref literal) :=
  plain_locate (fun path => keeps_addLocal path ref)
    (fun _ _ => keeps_of_notes (notes_collecting (Resolve.keeps_warn _))) (keeps_awaitPackage ref) literal

lemma grows_noteImport (rules : List Remapping) (ref : Reference) (path : String) (c : Context) :
    c.Grows (noteImport rules ref path c) := by
  have h := trans_of Context.Grows (c.grows_addEdge ref.file path)
    (Context.grows_record _ ref.file ref.path path)
  unfold noteImport
  dsimp only
  split
  · exact trans_of Context.Grows h (Context.grows_record _ _ _ _)
  · exact h

/-! ## Adding packages -/

lemma notes_recordParent (node : Node) :
    Run.Plain (plainly busy D) Traversal.Notes (recordParent node) := by
  unfold recordParent
  split
  · exact Run.Plain.pure _
  · refine (Stateful.plain_task (Resolve.plain_readManifest _)).bind fun r => ?_
    split
    · exact keeps_settings.bind fun s => notes_collecting (Resolve.keeps_warn _)
    · dsimp only
      split
      · exact Run.Plain.pure _
      · exact notes_changeContext fun c => by exact .of_eq rfl rfl rfl rfl rfl rfl rfl

lemma notes_notePackageFile (key : PackageKey) (path : String) :
    Run.Plain (plainly busy D) Traversal.Notes (notePackageFile key path) := by
  refine Run.Plain.get.bind fun t => ?_
  refine (notes_changeContext fun c => by exact .of_eq rfl rfl rfl rfl rfl rfl rfl).bind fun _ => ?_
  split
  · exact notes_collecting (Resolve.keeps_warn _)
  · exact Run.Plain.pure _

lemma keeps_addPackageFile (node : Node) (path content : String) :
    Run.Plain (plainly busy D) Traversal.Grows (addPackageFile node path content) := by
  unfold addPackageFile
  split
  · refine keeps_settings.bind fun s => keeps_get_bind fun t => ?_
    split
    · exact refl_of Traversal.Grows t
    · next h =>
      -- the notes that are made before the file is added do not touch the bundle
      rw [Run.run_bind]
      refine Routine.Plain.bind (notes_notePackageFile node.key path t) ?_
      rintro ⟨e | a, u⟩ hu
      · exact hu.grows
      · refine grows_addFile_of_notes h (trans_of Traversal.Notes hu ?_) content
        refine ⟨_, ?_, rfl⟩
        exact .of_eq rfl rfl rfl rfl rfl rfl rfl
  · exact Run.Plain.pure _

lemma keeps_addPackage (node : Node) :
    Run.Plain (plainly busy D) Traversal.Grows (addPackage node) :=
  Run.Plain.forM (fun _ => keeps_addPackageFile node _ _) _

lemma plain_writePackage (node : Node) : Attempt.Plain busily (writePackage node) := by
  refine Attempt.Plain.forM (fun e => ?_) _
  refine (Task.plain_work Work.plain_settings).bind fun s => ?_
  exact (Workspace.plain_ensureDirectory _).bind fun _ => Work.plain_write _ _

lemma lawful_materialize (shelf : Nat) (node : Node) :
    Attempt.Lawful (quiet S) (materialize shelf node) := by
  refine (Task.lawful_work (lawful_gets id)).bind fun s => ?_
  split
  · exact Attempt.Lawful.pure _
  · refine Task.lawful_handle_workspace ((plain_writePackage node).lawful.bind fun _ => ?_) fun f => ?_
    · exact Task.lawful_work (lawful_modify fun _ => ⟨rfl, rfl, rfl⟩)
    · exact Task.lawful_work (Work.lawful_log _)

lemma keeps_joinPackage (shelf : Nat) (node : Node) :
    Run.Keeps (quiet S) Traversal.Grows (joinPackage shelf node) := by
  refine Run.Keeps.bind (Run.Keeps.modify fun t => ?_) fun _ => ?_
  · exact ⟨refl_of Context.Grows _, ⟨[], by simp, by simp⟩, List.prefix_refl _⟩
  refine (keeps_of_notes (notes_recordParent node)).quiet.bind fun _ => ?_
  refine (keeps_addPackage node).quiet.bind fun _ => ?_
  exact Stateful.keeps_task (lawful_materialize shelf node)

lemma keeps_checkWaiting (ws : List Waiting) :
    Run.Plain (plainly busy D) Traversal.Grows (checkWaiting ws) := by
  induction ws with
  | nil => exact Run.Plain.pure _
  | cons w ws ih =>
    refine keeps_settings.bind fun s => Run.Plain.get.bind fun t => ?_
    split
    · exact ih
    · exact Run.Plain.throw _

/-- The traversal changes where packages are joined and where it is checked what has waited. -/
lemma keeps_completeLevel_of {I : Traversal → Traversal → Prop} [IsPreorder Traversal I] {shelf : Nat}
    (hjoin : ∀ node, Run.Keeps (quiet S) I (joinPackage shelf node))
    (hcheck : ∀ ws, Run.Keeps (quiet S) I (checkWaiting ws)) (depth scanned : Nat) :
    Run.Keeps (quiet S) I (completeLevel shelf depth scanned) := by
  refine Run.Keeps.get.bind fun t => ?_
  refine (Stateful.keeps_task (Cache.lawful_fetchAll _)).bind fun nodes => ?_
  refine (Run.Keeps.forM hjoin nodes).bind fun _ => (hcheck _).bind fun _ => ?_
  refine (Stateful.keeps_work (Work.lawful_log _)).bind fun _ => ?_
  exact Run.Keeps.get.bind fun _ => Run.Keeps.pure _

lemma keeps_completeLevel (shelf depth scanned : Nat) :
    Run.Keeps (quiet S) Traversal.Grows (completeLevel shelf depth scanned) :=
  keeps_completeLevel_of (keeps_joinPackage shelf) (fun ws => (keeps_checkWaiting ws).quiet) depth scanned

end Bundle

end SourceBundle
