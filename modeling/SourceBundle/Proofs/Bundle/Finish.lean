/-
# Builds and compile requests come to an end

Begun in a deserted service, a build comes to an end whatever is answered, and so does a compile
request.  Whether the index is loaded and saved on the way makes no difference: nobody else stands
in front.
-/
import SourceBundle.Proofs.Bundle.Settled
import SourceBundle.Proofs.Compile.Requests
import SourceBundle.Proofs.Service.Finish

namespace SourceBundle

open SourceBundle.Import

namespace Bundle

variable {φ : Index → Prop}

lemma finishes_contextIsCurrent (c : Context) : (Work.contextIsCurrent c).Finishes φ φ :=
  .of_plain (Work.plain_contextIsCurrent c)

lemma finishes_log (r : LogRecord) : (Work.log r).Finishes φ φ :=
  .of_plain (Work.plain_log r)

/-! ## The parts of a build -/

lemma finishes_of_sameNotes {α : Type} {x : Traversing α}
    (hx : Run.Plain busily Traversal.SameNotes x) : Stateful.Finishes φ x := .of_plain hx

lemma finishes_materialize (shelf : Nat) (node : Node) :
    Task.Finishes φ (materialize shelf node) φ := by
  refine Task.Finishes.work_bind (Routine.Finishes.gets id) fun s => ?_
  split
  · exact Task.Finishes.pure _
  · refine Task.Finishes.handle_workspace ?_ fun w => Task.Finishes.work (finishes_log _)
    refine Task.Finishes.bind (.of_plain (plain_writePackage node)) fun _ => ?_
    exact Task.Finishes.work (.modify (fun _ => ⟨rfl, rfl, rfl⟩) fun _ h => h)

lemma finishes_joinPackage (shelf : Nat) (node : Node) :
    Stateful.Finishes φ (joinPackage shelf node) := by
  refine Stateful.Finishes.bind (Stateful.Finishes.modify _) fun _ => ?_
  refine (finishes_of_sameNotes (admits_recordParent node)).bind fun _ => ?_
  refine (finishes_of_sameNotes (admits_addPackage node)).bind fun _ => ?_
  exact Stateful.Finishes.task (finishes_materialize shelf node)

lemma finishes_completeLevel (shelf depth scanned : Nat) :
    Stateful.Finishes φ (completeLevel shelf depth scanned) := by
  refine Stateful.Finishes.get.bind fun t => ?_
  refine (Stateful.Finishes.task (Cache.finishes_fetchAll t.nodup_newKeys)).bind fun nodes => ?_
  refine (Stateful.Finishes.forM (finishes_joinPackage shelf) nodes).bind fun _ => ?_
  refine (finishes_of_sameNotes (admits_checkWaiting _)).bind fun _ => ?_
  refine (Stateful.Finishes.work (finishes_log _)).bind fun _ => ?_
  exact Stateful.Finishes.get.bind fun _ => Stateful.Finishes.pure _

lemma finishes_traverseLevel (shelf : Nat) (rules : List Remapping) (depth : Nat)
    (level : List String) : Stateful.Finishes φ (traverseLevel shelf rules depth level) := by
  refine Stateful.Finishes.bind (Stateful.Finishes.modify _) fun _ => ?_
  refine Stateful.Finishes.bind (Stateful.Finishes.forM (fun file =>
    .of_plain (proper_scan rules file)) level) fun _ => ?_
  exact finishes_completeLevel _ _ _

theorem finishes_traverse (shelf : Nat) (rules : List Remapping) (entry : String)
    (budget depth : Nat) (level : List String) :
    Stateful.Finishes φ (traverse shelf rules entry budget depth level) := by
  induction budget generalizing depth level with
  | zero =>
    cases level with
    | nil => exact Stateful.Finishes.pure _
    | cons file files => exact Stateful.Finishes.throw _
  | succ budget ih =>
    cases level with
    | nil => exact Stateful.Finishes.pure _
    | cons file files =>
      refine Stateful.Finishes.get.bind fun t => ?_
      refine (Stateful.Finishes.work (finishes_contextIsCurrent _)).bind fun current => ?_
      cases current with
      | true => exact (finishes_traverseLevel _ _ _ _).bind fun next => ih _ next
      | false => exact (Stateful.Finishes.work (finishes_log _)).bind fun _ => Stateful.Finishes.pure _

lemma finishes_setOut (b : Builder) (entry content : String) :
    Stateful.Finishes φ (setOut b entry content) := by
  refine (finishes_of_sameNotes (admits_rulesOf b)).bind fun rules => ?_
  refine Stateful.Finishes.get.bind fun t => ?_
  refine (finishes_of_sameNotes
    (admits_collecting (J := WarningLog.Extends) (Resolve.keeps_ofWorkspace _ _))).bind fun r => ?_
  exact Stateful.Finishes.bind (Stateful.Finishes.modify _) fun _ => Stateful.Finishes.pure _

/-! ## The whole build -/

lemma finishes_commit (c : Context) : (commit c).Finishes Index.AtRest Index.AtRest := by
  refine (finishes_contextIsCurrent c).bind fun current => ?_
  cases current with
  | true =>
    refine Routine.Finishes.bind (Index.finishes_change fun i hi => ?_) fun _ => .done true
    exact Index.SavedBy.rewritten hi (c.rewritten_commit i)
  | false => exact (finishes_log _).bind fun _ => .done false

lemma finishes_finish (b : Builder) (entry : String) :
    Stateful.Finishes Index.AtRest (finish b entry) := by
  refine Stateful.Finishes.get.bind fun t => ?_
  refine Stateful.Finishes.bind (Stateful.Finishes.modify _) fun _ => ?_
  refine (Stateful.Finishes.work (finishes_log _)).bind fun _ => Stateful.Finishes.get.bind fun t => ?_
  split
  · refine (Stateful.Finishes.work (finishes_commit _)).bind fun committed => ?_
    split
    · exact (Stateful.Finishes.task Index.finishes_save).bind fun _ => Stateful.Finishes.pure _
    · exact Stateful.Finishes.pure _
  · exact Stateful.Finishes.pure _

/-- A build comes to an end. -/
theorem finishes_build (b : Builder) (budget : Nat) (entry content : String) (c : Context) :
    (build b budget entry content c).Finishes Index.AtRest Index.AtRest := by
  have hprepare : Stateful.Finishes Index.AtRest (prepare b entry content) := by
    cases hb : b.usesIndex with
    | true =>
      rw [prepare_of_usesIndex hb]
      exact (Stateful.Finishes.task Index.finishes_load).bind fun _ => finishes_setOut b entry content
    | false =>
      rw [prepare_of_not_usesIndex hb]
      exact finishes_setOut b entry content
  have hend : Stateful.Finishes (ρ := Traversal) Index.AtRest
      (do pure (← getThe Traversal).bundle) :=
    Stateful.Finishes.get.bind fun _ => Stateful.Finishes.pure _
  have hrun : Stateful.Finishes Index.AtRest (run b budget entry content) := by
    refine hprepare.bind fun rules => (finishes_traverse _ _ _ _ _ _).bind fun complete => ?_
    split
    · exact (finishes_finish b entry).bind fun _ => hend
    · exact hend
  exact (hrun { context := c }).bind fun _ => .done _

end Bundle

end SourceBundle
