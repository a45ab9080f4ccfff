/-
# Warnings are only added

The choice of versions and the loading of declarations are plain work.  Whatever they do to the
warnings of a run, none is taken back, and one that is given stays given, if not in its own words
then in those of the warning that was there with its key.  None of these warnings is about a file that
is bundled twice.
-/
import SourceBundle.Proofs.Service.Kept
import SourceBundle.Resolve.Chain

namespace SourceBundle

/-- The second log goes on from the first. -/
def WarningLog.Extends (l l' : WarningLog) : Prop := l.given <+: l'.given

instance : IsPreorder WarningLog WarningLog.Extends where
  refl l := List.prefix_refl l.given
  trans _ _ _ h h' := List.IsPrefix.trans h h'

/-- A warning is about a file of a package that is bundled from two versions of it. -/
def Warning.isDuplicate : Warning → Bool
  | duplicateFile _ _ _ _ => true
  | _ => false

/-- A relation of logs that allows to give warnings, other than of files that are bundled twice. -/
class WarningLog.Admits (J : WarningLog → WarningLog → Prop) : Prop where
  add : ∀ l w, Warning.isDuplicate w = false → J l (l.add w)

/-- The warnings of the second resolver go on from those of the first. -/
def Resolver.Extends (r r' : Resolver) : Prop := r.warnings.Extends r'.warnings

instance : IsPreorder Resolver Resolver.Extends where
  refl r := refl_of WarningLog.Extends r.warnings
  trans _ _ _ h h' := trans_of WarningLog.Extends h h'

/-- A relation of resolvers that allows to give warnings, other than of files that are bundled twice, and
to remember published versions and the versions chosen for ranges that imports ask for. -/
class Resolver.Admits (I : Resolver → Resolver → Prop) : Prop where
  warnings : ∀ r w, Warning.isDuplicate w = false → I r { r with warnings := r.warnings.add w }
  published : ∀ r p, I r { r with published := p }
  pins : ∀ r p, I r { r with pins := p }

lemma WarningLog.extends_add (l : WarningLog) (w : Warning) : l.Extends (l.add w) := by
  unfold WarningLog.Extends add
  split
  · exact List.prefix_refl _
  · exact List.prefix_append _ _

instance : WarningLog.Admits WarningLog.Extends where
  add l w _ := l.extends_add w

instance : Resolver.Admits Resolver.Extends where
  warnings r w _ := r.warnings.extends_add w
  published r _ := refl_of WarningLog.Extends r.warnings
  pins r _ := refl_of WarningLog.Extends r.warnings

lemma WarningLog.knows_add (l : WarningLog) (w : Warning) : (l.add w).knows w = true := by
  unfold add
  split
  · assumption
  · simp [knows]

/-- Only a warning of an unreadable file has the key of one, and it is about the same file. -/
lemma Warning.eq_parseFailure_of_key {w : Warning} {source reason : String}
    (h : w.key = (parseFailure source reason).key) : ∃ reason', w = parseFailure source reason' := by
  -- The other keys differ from it in their first letters.
  have h5 : w.key.toList.take 5 = ("parse:" ++ source).toList.take 5 :=
    congrArg (fun s : String => s.toList.take 5) h
  cases w with
  | parseFailure source' reason' =>
    have hs : "parse:" ++ source' = "parse:" ++ source := h
    exact ⟨reason', by rw [(String.append_right_inj _).mp hs]⟩
  | invalidLockEntry package declared pinned =>
    change (s!"lock:{package}:{declared}:{pinned}").toList.take 5 = _ at h5
    simp [toString, String.toList_append] at h5
  | duplicateFile package path previous requested =>
    change (if previous ≤ requested then s!"dup:{package}:{path}:{previous}:{requested}"
      else s!"dup:{package}:{path}:{requested}:{previous}").toList.take 5 = _ at h5
    split at h5 <;> simp [toString, String.toList_append] at h5
  | unresolvedManifestRange package range reason =>
    change (s!"range:{package}:{range}").toList.take 5 = _ at h5
    simp [toString, String.toList_append] at h5
  | unresolvedParentRange parent package range reason =>
    change (s!"parent-range:{parent}:{package}:{range}").toList.take 5 = _ at h5
    simp [toString, String.toList_append] at h5
  | parentConflict package requirements =>
    let joined := "|".intercalate (ranges requirements)
    change (s!"multi-parent:{package}:{joined}").toList.take 5 = _ at h5
    simp [toString, String.toList_append] at h5

lemma WarningLog.mem_of_knows {l : WarningLog} {source reason : String}
    (h : l.knows (.parseFailure source reason) = true) :
    ∃ reason', .parseFailure source reason' ∈ l.given := by
  simp only [knows, List.any_eq_true, beq_iff_eq] at h
  obtain ⟨g, hg, hk⟩ := h
  obtain ⟨reason', rfl⟩ := Warning.eq_parseFailure_of_key hk
  exact ⟨reason', hg⟩

namespace Resolve

open WarningLog (Extends)

variable {busy : Bool} {D : String → Prop}

/-! ## Collecting warnings -/

/-- To give a warning adds it to the log. -/
lemma adds_warn (w : Warning) : Run.Plain (plainly busy D) (fun l l' => l' = l.add w) (warn w) := by
  intro l
  show Routine.Plain (plainly busy D)
    ((if !l.knows w then (do set (l.add w); Stateful.work (Work.log (.warned w)) : Warned Unit)
      else pure ()).run l) _
  split
  · show Routine.Plain _ ((Work.log (.warned w)).bind fun a => .done (Except.ok a, l.add w)) _
    exact Routine.Plain.bind (Work.plain_log _) fun _ _ => rfl
  · next h =>
    have hknown : l.knows w = true := by simpa using h
    exact (if_pos hknown).symm

/-- After a warning has been given, the log knows it. -/
lemma knows_warn (w : Warning) :
    Run.Plain (plainly busy D) (fun l l' => l.Extends l' ∧ l'.knows w = true) (warn w) := by
  refine (adds_warn w).imp fun l l' h => ?_
  subst h
  exact ⟨l.extends_add w, l.knows_add w⟩

lemma keeps_warn (w : Warning) : Run.Plain (plainly busy D) Extends (warn w) :=
  (knows_warn w).imp fun _ _ h => h.1

lemma plain_readRules (origin : String) (ls : List String) :
    (readRules origin ls).Plain (plainly busy D) fun _ => True :=
  (Work.plain_logAll _).bind fun _ _ => trivial

lemma plain_readManifest (content : String) :
    Attempt.Plain (plainly busy D) (readManifest content) := by
  unfold readManifest
  split
  · exact (Task.plain_work (Work.plain_log _)).bind fun _ => Attempt.Plain.pure _
  · exact Attempt.Plain.throw _
  · exact Attempt.Plain.pure _

section Loading

variable {J : WarningLog → WarningLog → Prop} [IsPreorder WarningLog J] [WarningLog.Admits J]

omit [IsPreorder WarningLog J] in
lemma admits_warn {w : Warning} (hw : w.isDuplicate = false) :
    Run.Plain (plainly busy D) J (warn w) :=
  (adds_warn w).imp fun l _ h => h ▸ WarningLog.Admits.add l w hw

omit [WarningLog.Admits J] in
/-- Reading a file that may be missing, within work that collects warnings. -/
lemma keeps_readOptional (path : String) :
    Run.Plain (plainly busy D) J
      (Stateful.task (Workspace.readOptional path) : Warned (Option String)) :=
  Stateful.plain_task (Workspace.plain_readOptional path)

omit [WarningLog.Admits J] in
lemma keeps_log (r : LogRecord) :
    Run.Plain (plainly busy D) J (Stateful.work (Work.log r) : Warned Unit) :=
  Stateful.plain_work (Work.plain_log r)

lemma keeps_loadRemappings (use? : Option Bool) (collect : Bool) :
    Run.Plain (plainly busy D) J (loadRemappings use? collect) := by
  unfold loadRemappings
  refine (Stateful.plain_work Work.plain_settings).bind fun s => ?_
  refine (Stateful.plain_work Work.plain_settings).bind fun _ => ?_
  refine (keeps_readOptional _).bind fun content? => ?_
  cases content?
  case' none => refine (Run.Plain.pure _).bind fun rules => ?_
  case' some content => refine (Stateful.plain_work (plain_readRules _ _)).bind fun rules => ?_
  all_goals
    refine (Stateful.plain_work Work.plain_settings).bind fun _ => ?_
    cases use?.getD s.useFileConfiguration
    case' false => refine (Run.Plain.pure _).bind fun content? => ?_
    case' true => refine (keeps_readOptional _).bind fun content? => ?_
    all_goals
      cases content?
      case none =>
        exact (Run.Plain.pure _).bind fun more => (keeps_log _).bind fun _ => Run.Plain.pure _
      case some config =>
        refine (Stateful.plain_outcome _).bind fun r => ?_
        split
        case h_1 =>
          refine (Stateful.plain_work (plain_readRules _ _)).bind fun more => ?_
          exact (keeps_log _).bind fun _ => Run.Plain.pure _
        case h_2 =>
          split
          case' isTrue => refine (admits_warn rfl).bind fun _ => ?_
          case' isFalse => refine (keeps_log _).bind fun _ => ?_
          all_goals
            exact (Run.Plain.pure _).bind fun more => (keeps_log _).bind fun _ => Run.Plain.pure _

lemma keeps_loadManifest (collect : Bool) :
    Run.Plain (plainly busy D) J (loadManifest collect) := by
  refine (keeps_readOptional _).bind fun content? => ?_
  cases content? with
  | none => exact Run.Plain.pure _
  | some content =>
    refine (Stateful.plain_task (plain_readManifest content)).bind fun r => ?_
    split
    · exact Run.Plain.pure _
    · split
      · exact (admits_warn rfl).bind fun _ => Run.Plain.pure _
      · exact Run.Plain.pure _

lemma keeps_loadBlocks (collect : Bool) : Run.Plain (plainly busy D) J (loadBlocks collect) := by
  refine (keeps_readOptional _).bind fun content? => ?_
  cases content? with
  | none => exact Run.Plain.pure _
  | some content =>
    refine (keeps_log _).bind fun _ => ?_
    split
    · exact Run.Plain.pure _
    · split
      · exact (admits_warn rfl).bind fun _ => Run.Plain.pure _
      · exact Run.Plain.pure _

lemma keeps_loadDocument (collect : Bool) :
    Run.Plain (plainly busy D) J (loadDocument collect) := by
  refine (keeps_readOptional _).bind fun content? => ?_
  cases content? with
  | none => exact Run.Plain.pure _
  | some content =>
    dsimp only
    split
    · exact (keeps_log _).bind fun _ => Run.Plain.pure _
    · exact Run.Plain.throw _
    · split
      · exact (admits_warn rfl).bind fun _ => Run.Plain.pure _
      · exact Run.Plain.pure _

lemma keeps_loadLockfile (collect : Bool) :
    Run.Plain (plainly busy D) J (loadLockfile collect) := by
  refine (keeps_loadBlocks collect).bind fun lock? => ?_
  cases lock? with
  | none => exact keeps_loadDocument collect
  | some lock => exact Run.Plain.pure _

lemma keeps_ofWorkspace (session : Table String String)
    (parents : Table PackageKey (Table String String)) :
    Run.Plain (plainly busy D) J (ofWorkspace session parents) := by
  refine (keeps_loadManifest true).bind fun _ => (keeps_loadLockfile true).bind fun _ => ?_
  exact Run.Plain.get.bind fun _ => Run.Plain.pure _

end Loading

/-! ## Choosing a version -/

-- The lemmas hold whatever counts as an exact version, and nothing should try to evaluate it.
attribute [local irreducible] Version.isExact

section Choosing

variable {I : Resolver → Resolver → Prop} [IsPreorder Resolver I] [Resolver.Admits I]

omit [IsPreorder Resolver I] in
lemma admits_warnHere {w : Warning} (hw : w.isDuplicate = false) :
    Run.Plain (plainly busy D) I (warnHere w) :=
  (adds_warn w).zoom fun r _ h => h ▸ Resolver.Admits.warnings r w hw

lemma admits_publishedVersions (ref : Import.PackageReference) :
    Run.Plain (plainly busy D) I (publishedVersions ref) := by
  refine Run.Plain.get.bind fun r => ?_
  split
  · exact Run.Plain.pure _
  · refine Run.Plain.bind ?_ fun versions => ?_
    · refine Stateful.plain_handle (Stateful.plain_task (Work.plain_versions _)) fun f y hf => ?_
      split at hf
      · obtain rfl := Option.some.inj hf
        exact Run.Plain.throw _
      · exact nomatch hf
    · refine Run.Plain.bind (Run.Plain.modify fun r => ?_) fun _ => Run.Plain.pure _
      exact Resolver.Admits.published r _

lemma admits_pick (ref : Import.PackageReference) (range : String) :
    Run.Plain (plainly busy D) I (pick ref range) := by
  refine (admits_publishedVersions ref).bind fun versions => ?_
  split
  · exact Run.Plain.pure _
  · exact Run.Plain.throw _

/-- To choose a version for a range that an import asks for decides nothing for other imports. -/
lemma admits_resolvePin (ref : Import.PackageReference) (range : String) :
    Run.Plain (plainly busy D) I (resolvePin ref range) := by
  unfold resolvePin
  split
  · exact Run.Plain.pure _
  · refine Run.Plain.get.bind fun r => ?_
    split
    · exact Run.Plain.pure _
    · refine (admits_pick ref range).bind fun choice => ?_
      split
      · exact Run.Plain.throw _
      · refine Run.Plain.bind (Run.Plain.modify fun r => ?_) fun _ => Run.Plain.pure _
        exact Resolver.Admits.pins r _

lemma admits_validEntries (name : String) (es : List LockEntry) :
    Run.Plain (plainly busy D) I (validEntries name es) := by
  induction es with
  | nil => exact Run.Plain.pure _
  | cons e es ih =>
    unfold validEntries
    split
    · exact Run.Plain.throw _
    · exact ih.bind fun _ => Run.Plain.pure _
    · exact (admits_warnHere rfl).bind fun _ => ih

lemma admits_fromLockfile (ref : Import.PackageReference) :
    Run.Plain (plainly busy D) I (fromLockfile ref) := by
  refine Run.Plain.get.bind fun r => (admits_validEntries _ _).bind fun es => ?_
  cases es with
  | nil => exact Run.Plain.pure _
  | cons e es => exact Run.Plain.pure _

lemma admits_fromRange (ref : Import.PackageReference) (range : String) (source : VersionSource)
    (detail : String) {warning : String → Warning}
    (hwarning : ∀ reason, (warning reason).isDuplicate = false) :
    Run.Plain (plainly busy D) I (fromRange ref range source detail warning) := by
  unfold fromRange
  split
  · exact Run.Plain.pure _
  · refine (admits_pick ref range).bind fun choice => ?_
    split
    · exact Run.Plain.pure _
    · exact (admits_warnHere (hwarning _)).bind fun _ => Run.Plain.pure _

lemma admits_fromManifest (ref : Import.PackageReference) :
    Run.Plain (plainly busy D) I (fromManifest ref) := by
  refine Run.Plain.get.bind fun r => ?_
  split
  · exact Run.Plain.pure _
  · exact admits_fromRange _ _ _ _ fun _ => rfl

lemma admits_fromParent (ref : Import.PackageReference) (parent? : Option PackageKey) :
    Run.Plain (plainly busy D) I (fromParent ref parent?) := by
  refine Run.Plain.get.bind fun r => ?_
  split
  · exact Run.Plain.pure _
  · split
    · exact Run.Plain.pure _
    · split
      · exact Run.Plain.pure _
      · exact admits_fromRange _ _ _ _ fun _ => rfl

lemma admits_fromRegistry (ref : Import.PackageReference) :
    Run.Plain (plainly busy D) I (fromRegistry ref) := by
  refine (admits_publishedVersions ref).bind fun versions => ?_
  split
  · exact Run.Plain.pure _
  · exact Run.Plain.throw _

lemma admits_checkConflicts (name : String) :
    Run.Plain (plainly busy D) I (checkConflicts name) := by
  refine Run.Plain.get.bind fun r => ?_
  dsimp only
  split
  · exact admits_warnHere rfl
  · exact Run.Plain.pure _

omit [Resolver.Admits I] in
/-- Some steps decide nothing for other imports if none of them does. -/
lemma admits_steps {steps : List (Choosing (Option ResolvedVersion))} {last : Choosing ResolvedVersion}
    (hsteps : ∀ step ∈ steps, Run.Plain (plainly busy D) I step)
    (hlast : Run.Plain (plainly busy D) I last) : Run.Plain (plainly busy D) I (firstOf steps last) := by
  induction steps with
  | nil => exact hlast
  | cons step steps ih =>
    refine (hsteps step List.mem_cons_self).bind fun v? => ?_
    cases v? with
    | some v => exact Run.Plain.pure _
    | none => exact ih fun step' hstep' => hsteps step' (List.mem_cons_of_mem step hstep')

/-- The steps by which the version of a package that is not pinned is chosen decide nothing for other
imports yet. -/
lemma admits_firstOf (ref : Import.PackageReference) (parent? : Option PackageKey) :
    Run.Plain (plainly busy D) I
      (firstOf [fromLockfile ref, fromManifest ref, fromParent ref parent?] (fromRegistry ref)) := by
  refine admits_steps (fun step hstep => ?_) (admits_fromRegistry ref)
  simp only [List.mem_cons, List.not_mem_nil, or_false] at hstep
  rcases hstep with rfl | rfl | rfl
  · exact admits_fromLockfile ref
  · exact admits_fromManifest ref
  · exact admits_fromParent ref parent?

lemma admits_resolveUnpinned (hI : ∀ r session, I r { r with session := session })
    (ref : Import.PackageReference) (parent? : Option PackageKey) :
    Run.Plain (plainly busy D) I (resolveUnpinned ref parent?) := by
  refine (admits_checkConflicts _).bind fun _ => Run.Plain.get.bind fun r => ?_
  split
  · exact Run.Plain.pure _
  · refine (admits_firstOf ref parent?).bind fun v => ?_
    refine Run.Plain.bind (Run.Plain.modify fun r => hI r _) fun _ => ?_
    exact (Stateful.plain_work (Work.plain_log _)).bind fun _ => Run.Plain.pure _

/-- To choose a version does only what a relation admits, if versions may also be kept. -/
lemma admits_resolve (hI : ∀ r session, I r { r with session := session })
    (ref : Import.PackageReference) (parent? : Option PackageKey) :
    Run.Plain (plainly busy D) I (resolve ref parent?) := by
  unfold resolve
  split
  · next range _ =>
    split
    · exact admits_resolveUnpinned hI ref parent?
    · exact admits_resolvePin ref range
  · exact admits_resolveUnpinned hI ref parent?

end Choosing

/-- To choose a version takes back no warning. -/
lemma keeps_resolve (ref : Import.PackageReference) (parent? : Option PackageKey) :
    Run.Plain (plainly busy D) Resolver.Extends (resolve ref parent?) :=
  admits_resolve (fun r _ => refl_of Extends r.warnings) ref parent?

end Resolve

end SourceBundle
