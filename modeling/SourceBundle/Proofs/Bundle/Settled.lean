/-
# Settled traversals

Between the load of the index and the commit of the records a build asks for packages and writes
them to the workspace; the rest of its work is plain.  So what a traversal comes to is settled where
what these come to is settled and the circumstances suit plain work.
-/
import SourceBundle.Proofs.Bundle.Records
import SourceBundle.Proofs.Routine.Settle
import SourceBundle.Proofs.Service.Calm
import SourceBundle.Proofs.Sort

namespace SourceBundle

open SourceBundle.Import

namespace Context

lemma Proper.of_records {c c' : Context} (h : c.Proper) (hr : c'.records = c.records) :
    c'.Proper := by
  intro file literal path hp
  rw [recordOf, hr] at hp
  exact h file literal path hp

end Context

namespace Bundle

/-- If no import was recorded as resolved to itself, none is. -/
def Traversal.StaysProper (t t' : Traversal) : Prop := t.context.Proper → t'.context.Proper

instance : IsPreorder Traversal Traversal.StaysProper where
  refl _ h := h
  trans _ _ _ h h' hp := h' (h hp)

lemma Traversal.SameNotes.staysProper {t t' : Traversal} (h : t.SameNotes t') : t.StaysProper t' :=
  fun hp => hp.of_records h.records

lemma proper_noteImport {c : Context} (hc : c.Proper) (rules : List Remapping) (r : Reference)
    (path : String) : (noteImport rules r path c).Proper := by
  intro file literal path' hp
  rw [recordOf_noteImport] at hp
  split at hp
  · next h =>
    obtain rfl := Option.some.inj hp
    exact h.2.2
  · exact hc file literal path' hp

/-! ## The packages of a level -/

namespace Traversal

lemma nodup_newKeys (t : Traversal) : t.newKeys.Nodup :=
  (PackageKey.perm_sort _).nodup_iff.mpr (nodup_eraseDups _)

lemma pairwise_newKeys (t : Traversal) : t.newKeys.Pairwise fun a b => a.le b = true :=
  PackageKey.pairwise_sort _

end Traversal

/-! ## The parts of a traversal -/

section Parts

open Traversal (StaysProper)

variable {R P V : Type} {W : Setting Service Question Question.Answer R P Fault V} {busy : Bool}
  {D : String → Prop} {fated : Question → Users R P → Prop}

lemma proper_followImport (rules : List Remapping) (r : Reference) :
    Run.Plain (plainly busy D) StaysProper (followImport rules r) := by
  refine ((sameNotes_locate _ _).imp fun _ _ h => h.staysProper).bind fun path? => ?_
  cases path? with
  | none => exact Run.Plain.pure _
  | some path => exact Run.Plain.modify fun t hp => proper_noteImport hp rules r path

lemma proper_scan (rules : List Remapping) (file : String) :
    Run.Plain (plainly busy D) StaysProper (scan rules file) := by
  refine Run.Plain.bind (Run.Plain.modify fun t hp => hp.of_records rfl) fun _ => ?_
  refine Run.Plain.get.bind fun t => ?_
  exact Run.Plain.forM (fun r => proper_followImport rules r) _

lemma settles_of_sameNotes {α : Type} {x : Traversing α} (hs : W.Suits (plainly busy D) fated)
    (hx : Run.Plain (plainly busy D) Traversal.SameNotes x) : Run.Settles W StaysProper x :=
  .of_plain hs (hx.imp fun _ _ h => h.staysProper)

lemma settles_log (hs : W.Suits (plainly busy D) fated) (r : LogRecord) :
    Run.Settles W StaysProper (Stateful.work (Work.log r) : Traversing Unit) :=
  .of_plain hs (Stateful.plain_work (Work.plain_log r))

lemma settles_joinPackage (hs : W.Suits (plainly busy D) fated)
    (hwrite : ∀ shelf node, Attempt.Settles W (materialize shelf node)) (shelf : Nat) (node : Node) :
    Run.Settles W StaysProper (joinPackage shelf node) := by
  have hnote : ∀ t : Traversal, t.StaysProper { t with fetched := t.fetched ++ [node.key] } :=
    fun _ hp => hp
  refine Run.Settles.bind (Run.Settles.modify hnote) fun _ => ?_
  refine (settles_of_sameNotes hs (admits_recordParent node)).bind fun _ => ?_
  refine Run.Settles.bind ?_ fun _ => Run.Settles.lift (hwrite shelf node)
  exact settles_of_sameNotes hs (admits_addPackage node)

lemma settles_completeLevel (hs : W.Suits (plainly busy D) fated)
    (hfetch : ∀ t : Traversal, Attempt.Settles W (Cache.fetchAll t.newKeys))
    (hwrite : ∀ shelf node, Attempt.Settles W (materialize shelf node)) (shelf depth scanned : Nat) :
    Run.Settles W StaysProper (completeLevel shelf depth scanned) := by
  refine Run.Settles.get.bind fun t => ?_
  refine (Run.Settles.lift (hfetch t)).bind fun nodes => ?_
  refine (Run.Settles.forM (settles_joinPackage hs hwrite shelf) nodes).bind fun _ => ?_
  refine (settles_of_sameNotes hs (admits_checkWaiting _)).bind fun _ => ?_
  refine (settles_log hs _).bind fun _ => ?_
  exact Run.Settles.get.bind fun _ => Run.Settles.pure _

lemma settles_traverseLevel (hs : W.Suits (plainly busy D) fated)
    (hfetch : ∀ t : Traversal, Attempt.Settles W (Cache.fetchAll t.newKeys))
    (hwrite : ∀ shelf node, Attempt.Settles W (materialize shelf node)) (shelf : Nat)
    (rules : List Remapping) (depth : Nat) (level : List String) :
    Run.Settles W StaysProper (traverseLevel shelf rules depth level) := by
  have hclear : ∀ t : Traversal, t.StaysProper { t with next := [], waiting := [] } := fun _ hp => hp
  refine Run.Settles.bind (Run.Settles.modify hclear) fun _ => ?_
  refine Run.Settles.bind (.of_plain hs (Run.Plain.forM (proper_scan rules) level)) fun _ => ?_
  exact settles_completeLevel hs hfetch hwrite _ _ _

theorem settles_traverse (hs : W.Suits (plainly busy D) fated)
    (hfetch : ∀ t : Traversal, Attempt.Settles W (Cache.fetchAll t.newKeys))
    (hwrite : ∀ shelf node, Attempt.Settles W (materialize shelf node)) (shelf : Nat)
    (rules : List Remapping) (entry : String) (budget depth : Nat) (level : List String) :
    Run.Settles W StaysProper (traverse shelf rules entry budget depth level) := by
  induction budget generalizing depth level with
  | zero =>
    cases level with
    | nil => exact Run.Settles.pure _
    | cons f fs => exact Run.Settles.throw _
  | succ budget ih =>
    cases level with
    | nil => exact Run.Settles.pure _
    | cons f fs =>
      refine Run.Settles.get.bind fun t => ?_
      refine Run.Settles.bind
        (.of_plain hs (Stateful.plain_work (Work.plain_contextIsCurrent _))) fun current => ?_
      cases current with
      | false => exact (settles_log hs _).bind fun _ => Run.Settles.pure _
      | true =>
        exact (settles_traverseLevel hs hfetch hwrite _ _ _ _).bind fun next => ih (depth + 1) next

/-! ## Setting out -/

/-- The preparation of a traversal without the load of the index. -/
def setOut (b : Builder) (entry content : String) : Traversing (List Remapping) := do
  let rules ← rulesOf b
  let c := (← getThe Traversal).context
  let r ← collecting (Resolve.ofWorkspace c.session c.parents)
  modifyThe Traversal fun t => { t with
    manifest? := r.manifest?, lockfile := r.lockfile, bundle := Table.empty.insert entry content }
  pure rules

lemma prepare_of_usesIndex {b : Builder} (hb : b.usesIndex = true) (entry content : String) :
    prepare b entry content = Stateful.task Index.load >>= fun _ => setOut b entry content := by
  unfold prepare
  rw [if_pos hb]
  rfl

lemma prepare_of_not_usesIndex {b : Builder} (hb : b.usesIndex = false) (entry content : String) :
    prepare b entry content = setOut b entry content := by
  unfold prepare
  rw [if_neg (by simp [hb])]
  rfl

lemma settles_setOut (hs : W.Suits (plainly busy D) fated) (b : Builder) (entry content : String) :
    Run.Settles W StaysProper (setOut b entry content) := by
  refine (settles_of_sameNotes hs (admits_rulesOf b)).bind fun rules => ?_
  refine Run.Settles.get.bind fun t => ?_
  refine (settles_of_sameNotes hs
    (admits_collecting (J := WarningLog.Extends) (Resolve.keeps_ofWorkspace _ _))).bind fun r => ?_
  have hset : ∀ t : Traversal, t.StaysProper { t with
      manifest? := r.manifest?, lockfile := r.lockfile
      bundle := Table.empty.insert entry content } := fun _ hp => hp
  exact Run.Settles.bind (Run.Settles.modify hset) fun _ => Run.Settles.pure _

/-! ## The stages of a build -/

/-- A build from its setting out to its last level. -/
def travel (b : Builder) (budget : Nat) (entry content : String) : Traversing Bool := do
  let rules ← setOut b entry content
  traverse b.shelf rules entry budget 0 [entry]

/-- What a build does after its last level. -/
def arrive (b : Builder) (entry : String) (complete : Bool) : Traversing Bundle := do
  if complete then finish b entry
  pure (← getThe Traversal).bundle

lemma run_of_usesIndex {b : Builder} (hb : b.usesIndex = true) (budget : Nat)
    (entry content : String) :
    run b budget entry content =
      Stateful.task Index.load >>= fun _ => travel b budget entry content >>= arrive b entry := by
  unfold run travel
  rw [prepare_of_usesIndex hb]
  simp only [bind_assoc]
  rfl

lemma run_of_not_usesIndex {b : Builder} (hb : b.usesIndex = false) (budget : Nat)
    (entry content : String) :
    run b budget entry content = travel b budget entry content >>= arrive b entry := by
  unfold run travel
  rw [prepare_of_not_usesIndex hb]
  simp only [bind_assoc]
  rfl

lemma settles_travel (hs : W.Suits (plainly busy D) fated)
    (hfetch : ∀ t : Traversal, Attempt.Settles W (Cache.fetchAll t.newKeys))
    (hwrite : ∀ shelf node, Attempt.Settles W (materialize shelf node)) (b : Builder)
    (budget : Nat) (entry content : String) :
    Run.Settles W StaysProper (travel b budget entry content) :=
  (settles_setOut hs b entry content).bind fun rules =>
    settles_traverse hs hfetch hwrite b.shelf rules entry budget 0 [entry]

end Parts

/-- A crowd in which a build is asked for from a service that nobody uses. -/
def started {P : Type} (s : Service) (x : Work P) : Crowd Service Question Question.Answer Unit P :=
  ({ state := s } : Crowd Service Question Question.Answer Unit P).call (fun _ => x) ()

end Bundle

end SourceBundle
