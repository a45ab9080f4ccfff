/-
# What a traversal records

Only to follow an import records something: the path that it resolved to, in the graph, and for the
index under the import as it is written and, if a rule applies to it, as it is remapped.  Of several
imports of a file under one literal the last one counts.
-/
import SourceBundle.Proofs.Bundle.Course
import SourceBundle.Proofs.Bundle.SameRun
import SourceBundle.Proofs.Index.Commit

namespace SourceBundle

open SourceBundle.Import

/-! ## Single records -/

namespace Context

lemma recordOf_record (c : Context) (file literal path f l : String) :
    (c.record file literal path).recordOf f l =
      if file = f ∧ literal = l ∧ literal ≠ path then some path else c.recordOf f l := by
  unfold record
  by_cases hid : literal = path
  · simp [hid]
  · rw [if_neg hid]
    by_cases hf : file = f
    · subst hf
      by_cases hl : literal = l
      · subst hl
        simp [recordOf, hid]
      · simp [recordOf, hl, Table.get?_insert_ne _ hl]
    · simp [recordOf, hf, Table.get?_update_ne _ hf]

end Context

namespace Bundle

/-- The literals under which an import is recorded. -/
def recordedAs (rules : List Remapping) (r : Reference) : List String :=
  if (remap rules r.path).2.isSome then [r.path, (remap rules r.path).1] else [r.path]

/-- The path that is recorded for an import, if it is recorded for a file under a literal. -/
def recordedPath? (rules : List Remapping) (file literal : String) : Followed → Option String
  | (r, some path) =>
    if r.file = file ∧ literal ∈ recordedAs rules r ∧ literal ≠ path then some path else none
  | (_, none) => none

/-- The paths that are recorded for the imports of a file under a literal, in the order of the
imports. -/
def pathsRecorded (rules : List Remapping) (is : List Followed) (file literal : String) :
    List String :=
  is.filterMap (recordedPath? rules file literal)

lemma recordOf_noteImport (rules : List Remapping) (r : Reference) (path : String) (c : Context)
    (f l : String) :
    (noteImport rules r path c).recordOf f l =
      if r.file = f ∧ l ∈ recordedAs rules r ∧ l ≠ path then some path else c.recordOf f l := by
  have hedge : (c.addEdge r.file path).recordOf f l = c.recordOf f l := rfl
  unfold noteImport recordedAs
  dsimp only
  split <;> simp only [Context.recordOf_record, hedge, List.mem_cons, List.not_mem_nil, or_false] <;>
    grind

/-! ## What only books warnings and packages -/

end Bundle

/-- Nothing changes in the state of a run but the warnings and what is known of packages. -/
def Context.Books (c c' : Context) : Prop :=
  c' = { c with
    warnings := c'.warnings, bundled := c'.bundled, parents := c'.parents
    filePackages := c'.filePackages }

namespace Bundle

/-- A relation of traversals that allows to add files, to give warnings and to note what is known of
packages. -/
class Traversal.Admits (I : Traversal → Traversal → Prop) : Prop where
  file : ∀ t path content, I t (t.addFile path content)
  books : ∀ t c, t.context.Books c → I t { t with context := c }

variable {S : Service → Prop} {α : Type} {busy : Bool} {D : String → Prop}

section Parts

variable {I : Traversal → Traversal → Prop} [Traversal.Admits I]

lemma admits_collecting {x : Resolve.Warned α} {J : WarningLog → WarningLog → Prop}
    (hx : Run.Plain (plainly busy D) J x) : Run.Plain (plainly busy D) I (collecting x) :=
  hx.zoom fun t _ _ => Traversal.Admits.books t _ rfl

variable [IsPreorder Traversal I]

lemma admits_addLocal (path : String) (ref : Reference) :
    Run.Plain (plainly busy D) I (addLocal path ref) :=
  plain_addLocal (fun t path content _ => Traversal.Admits.file t path content) path ref

lemma admits_recordParent (node : Node) : Run.Plain (plainly busy D) I (recordParent node) := by
  unfold recordParent
  split
  · exact Run.Plain.pure _
  · refine (Stateful.plain_task (Resolve.plain_readManifest _)).bind fun r => ?_
    split
    · exact keeps_settings.bind fun s => admits_collecting (Resolve.keeps_warn _)
    · dsimp only
      split
      · exact Run.Plain.pure _
      · exact Run.Plain.modify fun t => Traversal.Admits.books t _ rfl

lemma admits_notePackageFile (key : PackageKey) (path : String) :
    Run.Plain (plainly busy D) I (notePackageFile key path) := by
  refine Run.Plain.get.bind fun t => ?_
  refine Run.Plain.bind (Run.Plain.modify fun t => Traversal.Admits.books t _ rfl) fun _ => ?_
  split
  · exact admits_collecting (Resolve.keeps_warn _)
  · exact Run.Plain.pure _

lemma admits_addPackageFile (node : Node) (path content : String) :
    Run.Plain (plainly busy D) I (addPackageFile node path content) := by
  unfold addPackageFile
  split
  · refine keeps_settings.bind fun s => Run.Plain.get.bind fun t => ?_
    split
    · exact Run.Plain.pure _
    · refine (admits_notePackageFile node.key path).bind fun _ => ?_
      refine Run.Plain.bind (Run.Plain.modify fun t => Traversal.Admits.books t _ rfl) fun _ => ?_
      exact Run.Plain.modify fun t => Traversal.Admits.file t _ _
  · exact Run.Plain.pure _

lemma admits_addPackage (node : Node) : Run.Plain (plainly busy D) I (addPackage node) :=
  Run.Plain.forM (fun _ => admits_addPackageFile node _ _) _

omit [Traversal.Admits I] in
lemma admits_checkWaiting (ws : List Waiting) :
    Run.Plain (plainly busy D) I (checkWaiting ws) := by
  induction ws with
  | nil => exact Run.Plain.pure _
  | cons w ws ih =>
    refine keeps_settings.bind fun s => Run.Plain.get.bind fun t => ?_
    split
    · exact ih
    · exact Run.Plain.throw _

lemma admits_rulesOf (b : Builder) : Run.Plain (plainly busy D) I (rulesOf b) :=
  plain_rulesOf (admits_collecting (J := WarningLog.Extends) (Resolve.keeps_loadRemappings _ _)) b

lemma admits_prepare
    (hI : ∀ (t : Traversal) m l bundle, I t { t with manifest? := m, lockfile := l, bundle := bundle })
    (b : Builder) (entry content : String) : Run.Keeps (quiet S) I (prepare b entry content) :=
  keeps_prepare (admits_collecting (J := WarningLog.Extends) (Resolve.keeps_loadRemappings _ _))
    (fun _ _ => admits_collecting (J := WarningLog.Extends) (Resolve.keeps_ofWorkspace _ _)) hI b entry content

end Parts

/-! ## What records nothing -/

/-- The records and the graph of the run are the same in two traversals. -/
structure Traversal.SameNotes (t t' : Traversal) : Prop where
  records : t'.context.records = t.context.records
  graph : t'.context.graph = t.context.graph

instance : IsPreorder Traversal Traversal.SameNotes where
  refl _ := ⟨rfl, rfl⟩
  trans _ _ _ h h' := ⟨h'.1.trans h.1, h'.2.trans h.2⟩

instance : Traversal.Admits Traversal.SameNotes where
  file _ _ _ := ⟨rfl, rfl⟩
  books _ _ h := ⟨(congrArg Context.records h).trans rfl, (congrArg Context.graph h).trans rfl⟩

section Parts

open Traversal (SameNotes)

lemma sameNotes_choosing {I : Resolver → Resolver → Prop} {x : Resolve.Choosing α}
    (hx : Run.Plain (plainly busy D) I x) : Run.Plain (plainly busy D) SameNotes (choosing x) :=
  hx.zoom fun _ _ _ => ⟨rfl, rfl⟩

lemma sameNotes_awaitPackage (ref : Reference) (package : PackageReference) :
    Run.Plain (plainly busy D) SameNotes (awaitPackage ref package) := by
  unfold awaitPackage
  split
  · exact Run.Plain.throw _
  · refine Run.Plain.get.bind fun t => ?_
    refine (sameNotes_choosing (Resolve.keeps_resolve _ _)).bind fun resolved => ?_
    refine Run.Plain.bind (Run.Plain.modify fun t => ⟨rfl, rfl⟩) fun _ => ?_
    exact keeps_settings.bind fun _ => Run.Plain.pure _

lemma sameNotes_locate (ref : Reference) (literal : String) :
    Run.Plain (plainly busy D) SameNotes (locate ref literal) :=
  plain_locate (fun path => admits_addLocal path ref)
    (fun _ _ => admits_collecting (Resolve.keeps_warn _)) (sameNotes_awaitPackage ref) literal

lemma sameNotes_joinPackage (shelf : Nat) (node : Node) :
    Run.Keeps (quiet S) SameNotes (joinPackage shelf node) := by
  refine Run.Keeps.bind (Run.Keeps.modify fun t => ⟨rfl, rfl⟩) fun _ => ?_
  refine (admits_recordParent node).quiet.bind fun _ => ?_
  refine (admits_addPackage node).quiet.bind fun _ => ?_
  exact Stateful.keeps_task (lawful_materialize shelf node)

lemma sameNotes_completeLevel (shelf depth scanned : Nat) :
    Run.Keeps (quiet S) SameNotes (completeLevel shelf depth scanned) :=
  keeps_completeLevel_of (sameNotes_joinPackage shelf) (fun ws => (admits_checkWaiting ws).quiet) depth scanned

lemma sameNotes_prepare (b : Builder) (entry content : String) :
    Run.Keeps (quiet S) SameNotes (prepare b entry content) :=
  admits_prepare (fun _ _ _ _ => ⟨rfl, rfl⟩) b entry content

end Parts

/-! ## The records of a course -/

variable {T : Terms Service Question Question.Answer} {rules : List Remapping} {shelf : Nat}
  {entry : String} {t t' : Traversal} {s s' : Service}

lemma Traversal.SameNotes.recordOf (h : t.SameNotes t') (file literal : String) :
    t'.context.recordOf file literal = t.context.recordOf file literal := by
  rw [Context.recordOf, h.records, Context.recordOf]

lemma Traversal.SameNotes.importsOf (h : t.SameNotes t') (file : String) :
    t'.context.importsOf file = t.context.importsOf file := by
  rw [Context.importsOf, h.graph, Context.importsOf]

lemma pathsRecorded_append (is js : List Followed) (file literal : String) :
    pathsRecorded rules (is ++ js) file literal =
      pathsRecorded rules is file literal ++ pathsRecorded rules js file literal :=
  List.filterMap_append

lemma ne_of_mem_pathsRecorded {is : List Followed} {file literal path : String}
    (h : path ∈ pathsRecorded rules is file literal) : literal ≠ path := by
  obtain ⟨⟨r, _ | p⟩, -, hi⟩ := List.mem_filterMap.mp h
  · exact nomatch hi
  · obtain ⟨hp, ⟨⟩⟩ := Option.ite_none_right_eq_some.mp hi
    exact hp.2.2

lemma getLast?_pathsRecorded_cons (r : Reference) (path : String) (is : List Followed)
    (file literal : String) :
    (pathsRecorded rules ((r, some path) :: is) file literal).getLast? =
      (pathsRecorded rules is file literal).getLast?.or
        (recordedPath? rules file literal (r, some path)) := by
  unfold pathsRecorded
  rw [List.filterMap_cons]
  split
  · next h => rw [h, Option.or_none]
  · next h =>
    rw [h, List.getLast?_cons]
    cases (List.filterMap _ is).getLast? <;> rfl

theorem Follows.recordOf {rs : List Reference} {is : List Followed}
    (h : Follows T rules rs t s is t' s') (file literal : String) :
    t'.context.recordOf file literal =
      (pathsRecorded rules is file literal).getLast?.or (t.context.recordOf file literal) := by
  induction h with
  | done => rfl
  | skipped hl _ ih =>
    rw [ih, ((sameNotes_locate _ _).ends (meet_quiet T) trivial hl).1.recordOf]
    rfl
  | @resolved r rs is t u t' s v s' path hl _ ih =>
    have hu := ((sameNotes_locate _ _).ends (meet_quiet T) trivial hl).1.recordOf file literal
    rw [ih, recordOf_noteImport, hu, getLast?_pathsRecorded_cons, Option.or_assoc, recordedPath?]
    congr 1
    split <;> rfl

theorem Scans.recordOf {files : List String} {is : List Followed}
    (h : Scans T rules files t s is t' s') (file literal : String) :
    t'.context.recordOf file literal =
      (pathsRecorded rules is file literal).getLast?.or (t.context.recordOf file literal) := by
  induction h with
  | done => rfl
  | file hf _ ih =>
    rw [ih, hf.recordOf, pathsRecorded_append, List.getLast?_append, Option.or_assoc]
    rfl

/-- In the end a run has recorded for every import of a file the last path that was recorded under
its literal. -/
theorem Course.recordOf {depth : Nat} {level : List String} {ls : List Level} {b : Bool}
    (h : Course T shelf rules entry depth level t s ls b t' s') (file literal : String) :
    t'.context.recordOf file literal =
      (pathsRecorded rules (ls.flatMap Level.imports) file literal).getLast?.or
        (t.context.recordOf file literal) := by
  induction h with
  | complete => rfl
  | stopped => rfl
  | @level depth f fs next is ls b t u w t' s v x y s' _ hscan hcomp _ ih =>
    have hw := ((sameNotes_completeLevel _ _ _).ends (meet_quiet T) trivial hcomp).1
    rw [ih, hw.recordOf, hscan.recordOf, List.flatMap_cons, pathsRecorded_append,
      List.getLast?_append, Option.or_assoc]

/-! ## The graph of a course -/

lemma importsOf_record (c : Context) (file literal path f : String) :
    (c.record file literal path).importsOf f = c.importsOf f := by
  unfold Context.record
  split <;> rfl

lemma mem_importsOf_noteImport {r : Reference} {path f p : String} {c : Context} :
    p ∈ (noteImport rules r path c).importsOf f ↔ p ∈ c.importsOf f ∨ f = r.file ∧ p = path := by
  unfold noteImport
  dsimp only
  split <;> simp only [importsOf_record, Context.mem_importsOf_addEdge]

theorem Follows.mem_importsOf {rs : List Reference} {is : List Followed} {f p : String}
    (h : Follows T rules rs t s is t' s') (hp : p ∈ t'.context.importsOf f) :
    p ∈ t.context.importsOf f ∨ ∃ r, (r, some p) ∈ is ∧ r.file = f := by
  induction h with
  | done => exact Or.inl hp
  | skipped hl _ ih =>
    have hu := ((sameNotes_locate _ _).ends (meet_quiet T) trivial hl).1.importsOf f
    rcases ih hp with h | ⟨r, hr, hf⟩
    · exact Or.inl (hu ▸ h)
    · exact Or.inr ⟨r, List.mem_cons_of_mem _ hr, hf⟩
  | resolved hl _ ih =>
    have hu := ((sameNotes_locate _ _).ends (meet_quiet T) trivial hl).1.importsOf f
    rcases ih hp with h | ⟨r, hr, hf⟩
    · rcases mem_importsOf_noteImport.mp h with h | ⟨rfl, rfl⟩
      · exact Or.inl (hu ▸ h)
      · exact Or.inr ⟨_, List.mem_cons_self, rfl⟩
    · exact Or.inr ⟨r, List.mem_cons_of_mem _ hr, hf⟩

theorem Scans.mem_importsOf {files : List String} {is : List Followed} {f p : String}
    (h : Scans T rules files t s is t' s') (hp : p ∈ t'.context.importsOf f) :
    p ∈ t.context.importsOf f ∨ ∃ r, (r, some p) ∈ is ∧ r.file = f := by
  induction h with
  | done => exact Or.inl hp
  | file hf _ ih =>
    rcases ih hp with h | ⟨r, hr, hrf⟩
    · rcases hf.mem_importsOf h with h | ⟨r, hr, hrf⟩
      · exact Or.inl (Context.importsOf_markScanned _ _ f ▸ h)
      · exact Or.inr ⟨r, List.mem_append_left _ hr, hrf⟩
    · exact Or.inr ⟨r, List.mem_append_right _ hr, hrf⟩

/-- An edge of the graph that was not there before leads to the path that an import of the file
resolved to. -/
theorem Course.mem_importsOf {depth : Nat} {level : List String} {ls : List Level} {b : Bool}
    {f p : String} (h : Course T shelf rules entry depth level t s ls b t' s')
    (hp : p ∈ t'.context.importsOf f) :
    p ∈ t.context.importsOf f ∨ ∃ r, (r, some p) ∈ ls.flatMap Level.imports ∧ r.file = f := by
  induction h with
  | complete => exact Or.inl hp
  | stopped => exact Or.inl hp
  | level _ hscan hcomp _ ih =>
    have hw := ((sameNotes_completeLevel _ _ _).ends (meet_quiet T) trivial hcomp).1.importsOf f
    rw [List.flatMap_cons]
    rcases ih hp with h | ⟨r, hr, hrf⟩
    · rcases hscan.mem_importsOf (hw ▸ h) with h | ⟨r, hr, hrf⟩
      · exact Or.inl h
      · exact Or.inr ⟨r, List.mem_append_left _ hr, hrf⟩
    · exact Or.inr ⟨r, List.mem_append_right _ hr, hrf⟩

end Bundle

end SourceBundle
