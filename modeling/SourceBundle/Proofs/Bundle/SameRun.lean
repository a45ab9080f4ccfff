/-
# Builds keep to their run

A build obeys the law of the work below the requests, and however it ends, the context that it
leaves belongs to the run that it was begun for.
-/
import SourceBundle.Proofs.Bundle.Growth
import SourceBundle.Proofs.Service.Current

namespace SourceBundle

open SourceBundle.Import

/-- Two contexts belong to the same run. -/
structure Context.SameRun (c c' : Context) : Prop where
  target : c'.target = c.target
  generation : c'.generation = c.generation
  standing : c'.standing = c.standing

instance : IsPreorder Context Context.SameRun where
  refl _ := ⟨rfl, rfl, rfl⟩
  trans _ _ _ h h' :=
    ⟨h'.target.trans h.target, h'.generation.trans h.generation, h'.standing.trans h.standing⟩

lemma Context.GrowsBy.sameRun {files : List String} {c c' : Context} (h : c.GrowsBy files c') :
    c.SameRun c' :=
  ⟨h.target, h.generation, h.standing⟩

lemma Context.SameRun.currentIn_iff {c c' : Context} (h : c.SameRun c') (s : Service) :
    c'.CurrentIn s ↔ c.CurrentIn s :=
  Context.currentIn_congr h.target h.standing s

namespace Bundle

/-- Two traversals belong to the same run. -/
def Traversal.SameRun (t t' : Traversal) : Prop := t.context.SameRun t'.context

instance : IsPreorder Traversal Traversal.SameRun where
  refl t := refl_of Context.SameRun t.context
  trans _ _ _ h h' := trans_of Context.SameRun h h'

variable {S : Service → Prop} {α : Type} {busy : Bool} {D : String → Prop}

lemma sameRun_of_keeps {x : Traversing α} (h : Run.Keeps (quiet S) Traversal.Grows x) :
    Run.Keeps (quiet S) Traversal.SameRun x :=
  Run.Keeps.of_obeys h fun _ _ _ hg => hg.context.sameRun

lemma keeps_followImport (rules : List Remapping) (r : Reference) :
    Run.Plain (plainly busy D) Traversal.Grows (followImport rules r) := by
  refine (keeps_locate _ _).bind fun path? => ?_
  cases path? with
  | none => exact Run.Plain.pure _
  | some path => exact keeps_of_notes (notes_changeContext (grows_noteImport rules r path))

lemma sameRun_scan (rules : List Remapping) (file : String) :
    Run.Plain (plainly busy D) Traversal.SameRun (scan rules file) := by
  refine Run.Plain.bind (Run.Plain.modify fun t => ⟨rfl, rfl, rfl⟩) fun _ => ?_
  refine Run.Plain.get.bind fun t => ?_
  exact Run.Plain.forM (fun r => (keeps_followImport rules r).imp fun _ _ h => h.context.sameRun) _

lemma sameRun_log (r : LogRecord) :
    Run.Keeps (quiet S) Traversal.SameRun (Stateful.work (Work.log r) : Traversing Unit) :=
  Stateful.keeps_work (Work.lawful_log r)

lemma sameRun_traverse (shelf : Nat) (rules : List Remapping) (entry : String)
    (budget depth : Nat) (level : List String) :
    Run.Keeps (quiet S) Traversal.SameRun (traverse shelf rules entry budget depth level) := by
  induction budget generalizing depth level with
  | zero =>
    cases level with
    | nil => exact Run.Keeps.pure _
    | cons f fs => exact Run.Keeps.throw _
  | succ budget ih =>
    cases level with
    | nil => exact Run.Keeps.pure _
    | cons f fs =>
      refine Run.Keeps.get.bind fun t => ?_
      refine (Stateful.keeps_work (Work.lawful_contextIsCurrent _)).bind fun current => ?_
      cases current with
      | false => exact (sameRun_log _).bind fun _ => Run.Keeps.pure _
      | true =>
        refine Run.Keeps.bind ?_ fun next => ih (depth + 1) next
        refine Run.Keeps.bind (Run.Keeps.modify fun t => ⟨rfl, rfl, rfl⟩) fun _ => ?_
        refine (Run.Plain.forM (sameRun_scan rules) _).quiet.bind fun _ => ?_
        exact sameRun_of_keeps (keeps_completeLevel _ _ _)

lemma lawful_commit (c : Context) : (commit c).Lawful (quiet S) := by
  refine (Work.lawful_contextIsCurrent c).bind fun current => ?_
  cases current
  · exact (Work.lawful_log _).bind fun _ => trivial
  · exact (Index.lawful_change _).bind fun _ => trivial

lemma sameRun_finish (b : Builder) (entry : String) :
    Run.Keeps (quiet S) Traversal.SameRun (finish b entry) := by
  refine Run.Keeps.get.bind fun t => ?_
  refine Run.Keeps.bind (Run.Keeps.modify fun t => ⟨rfl, rfl, rfl⟩) fun _ => ?_
  refine (sameRun_log _).bind fun _ => Run.Keeps.get.bind fun t => ?_
  split
  · refine (Stateful.keeps_work (lawful_commit _)).bind fun committed => ?_
    split
    · exact (Stateful.keeps_task Index.lawful_save).bind fun _ => Run.Keeps.pure _
    · exact Run.Keeps.pure _
  · exact Run.Keeps.pure _

section Prepare

variable {I : Traversal → Traversal → Prop} [IsPreorder Traversal I]

lemma plain_rulesOf
    (hload : Run.Plain (plainly busy D) I (collecting (Resolve.loadRemappings none true)))
    (b : Builder) : Run.Plain (plainly busy D) I (rulesOf b) := by
  unfold rulesOf
  split
  · exact Run.Plain.pure _
  · exact hload

/-- To prepare a traversal does no more than to load what the builder goes by, and to begin with the entry
as the only file. -/
lemma keeps_prepare
    (hload : Run.Plain busily I (collecting (Resolve.loadRemappings none true)))
    (hdeclared : ∀ session parents,
      Run.Plain busily I (collecting (Resolve.ofWorkspace session parents)))
    (hI : ∀ (t : Traversal) m l bundle, I t { t with manifest? := m, lockfile := l, bundle := bundle })
    (b : Builder) (entry content : String) : Run.Keeps (quiet S) I (prepare b entry content) := by
  unfold prepare
  split
  case' isTrue => refine (Stateful.keeps_task Index.lawful_load).bind fun _ => ?_
  all_goals
    refine (plain_rulesOf hload b).quiet.bind fun rules => Run.Keeps.get.bind fun t => ?_
    refine (hdeclared _ _).quiet.bind fun r => ?_
    exact Run.Keeps.bind (Run.Keeps.modify fun t => hI t _ _ _) fun _ => Run.Keeps.pure _

end Prepare

lemma notes_rulesOf (b : Builder) : Run.Plain (plainly busy D) Traversal.Notes (rulesOf b) :=
  plain_rulesOf (notes_collecting (Resolve.keeps_loadRemappings _ _)) b

lemma sameRun_prepare (b : Builder) (entry content : String) :
    Run.Keeps (quiet S) Traversal.SameRun (prepare b entry content) := by
  have hcollect : ∀ {α : Type} {x : Resolve.Warned α}, Run.Plain busily WarningLog.Extends x →
      Run.Plain busily Traversal.SameRun (collecting x) :=
    fun hx => hx.zoom fun t l _ => ⟨rfl, rfl, rfl⟩
  exact keeps_prepare (hcollect (Resolve.keeps_loadRemappings _ _))
    (fun _ _ => hcollect (Resolve.keeps_ofWorkspace _ _)) (fun _ _ _ _ => ⟨rfl, rfl, rfl⟩) b entry content

lemma sameRun_run (b : Builder) (budget : Nat) (entry content : String) :
    Run.Keeps (quiet S) Traversal.SameRun (run b budget entry content) := by
  refine (sameRun_prepare b entry content).bind fun rules => ?_
  refine (sameRun_traverse _ _ _ _ _ _).bind fun complete => ?_
  split
  case' isTrue => refine (sameRun_finish b entry).bind fun _ => ?_
  all_goals exact Run.Keeps.get.bind fun t => Run.Keeps.pure _

/-- A build obeys the law of the work below the requests, and keeps to its run. -/
theorem obeys_build (b : Builder) (budget : Nat) (entry content : String) (c : Context) :
    (build b budget entry content c).Obeys (quiet S) fun p => c.SameRun p.2 :=
  Routine.Obeys.bind (sameRun_run b budget entry content _) fun _ h => h

end Bundle

end SourceBundle
