/-
# The passes of a traversal

A traversal goes through its levels one by one.  A pass through a level scans its files, fetches the
packages that their imports wait for, adds these packages and checks that the imports have found their
files; it leaves the files that were found for the next level.  Every traversal, also one that fails,
makes some passes and then halts: because no file is left, because its run is no longer current,
because a level fails, or because its budget is spent.
-/
import SourceBundle.Proofs.Bundle.Course

namespace SourceBundle.Bundle

open SourceBundle.Import

/-- What is to be told of a pass through a level. -/
structure Passage where
  /-- The files of the level. -/
  files : List String
  /-- The imports of the files. -/
  imports : List Followed
  /-- The traversal when the files have been scanned. -/
  scanned : Traversal
  /-- The packages that were fetched. -/
  nodes : List Node

namespace Passage

/-- The level, with its imports. -/
def level (p : Passage) : Level := ⟨p.files, p.imports⟩

/-- The packages that were requested. -/
def requested (p : Passage) : List PackageKey := p.scanned.newKeys

end Passage

/-- A pass through a level by a run that is current. -/
inductive Pass (T : Terms Service Question Question.Answer) (shelf : Nat) (rules : List Remapping)
    (depth : Nat) (p : Passage) (t : Traversal) (s : Service) : Traversal → Service → Prop
  | mk {w : Traversal} {v x y z s' : Service} :
      (Work.contextIsCurrent t.context).Ends T s true v →
      Scans T rules p.files { t with next := [], waiting := [] } v p.imports p.scanned x →
      Attempt.Ends T (Cache.fetchAll p.requested) x (.ok p.nodes) y →
      Run.Ends T (p.nodes.forM (joinPackage shelf)) p.scanned y (.ok ()) w z →
      Run.Ends T (checkWaiting p.scanned.waiting) w z (.ok ()) w z →
      (Work.log (.levelDone depth p.files.length p.nodes.length)).Ends T z () s' →
      Pass T shelf rules depth p t s w s'

/-- Some passes are made one after the other, each through the level that the one before has left. -/
inductive Passes (T : Terms Service Question Question.Answer) (shelf : Nat)
    (rules : List Remapping) :
    Nat → List String → Traversal → Service → List Passage → List String → Traversal → Service → Prop
  | done {depth : Nat} {level : List String} {t : Traversal} {s : Service} :
      Passes T shelf rules depth level t s [] level t s
  | pass {depth : Nat} {p : Passage} {ps : List Passage} {level' : List String}
      {t w t' : Traversal} {s y s' : Service} :
      p.files ≠ [] → Pass T shelf rules depth p t s w y →
      Passes T shelf rules (depth + 1) w.next w y ps level' t' s' →
      Passes T shelf rules depth p.files t s (p :: ps) level' t' s'

/-- How a traversal halts at a level, other than for its budget: no file is left, the run is no longer
current, or the level fails. -/
inductive Halts (T : Terms Service Question Question.Answer) (shelf : Nat) (rules : List Remapping)
    (entry : String) (depth : Nat) (t : Traversal) (s : Service) :
    List String → Except Fault Bool → Traversal → Service → Prop
  | complete : Halts T shelf rules entry depth t s [] (.ok true) t s
  | stopped {level : List String} {v s' : Service} :
      level ≠ [] → (Work.contextIsCurrent t.context).Ends T s false v →
      (Work.log (.buildStopped entry)).Ends T v () s' →
      Halts T shelf rules entry depth t s level (.ok false) t s'
  | failed {level : List String} {f : Fault} {t' : Traversal} {v s' : Service} :
      level ≠ [] → (Work.contextIsCurrent t.context).Ends T s true v →
      Run.Ends T (traverseLevel shelf rules depth level) t v (.error f) t' s' →
      Halts T shelf rules entry depth t s level (.error f) t' s'

variable {T : Terms Service Question Question.Answer} {rules : List Remapping} {shelf : Nat}
  {entry : String} {t t' u w : Traversal} {s s' : Service}

/-! ## Every traversal makes passes -/

/-- The check of a level changes nothing. -/
lemma eq_of_checkWaiting {ws : List Waiting} {r : Except Fault Unit}
    (h : Run.Ends T (checkWaiting ws) t s r t' s') : t' = t ∧ s' = s := by
  induction ws with
  | nil => exact (Run.ends_pure.mp h).2
  | cons w ws ih =>
    rcases Run.ends_bind.mp h with ⟨f, hf, -⟩ | ⟨st, u, v, hst, h₁⟩
    · obtain ⟨_, -, hf, -⟩ := Stateful.ends_work.mp hf
      exact nomatch hf
    · obtain ⟨-, -, rfl, rfl⟩ := Stateful.ends_settings.mp hst
      rcases Run.ends_bind.mp h₁ with ⟨f, hf, -⟩ | ⟨_, u, v, hg, h₂⟩
      · exact nomatch (Run.ends_get.mp hf).1
      · obtain ⟨⟨⟩, rfl, rfl⟩ := Run.ends_get.mp hg
        split at h₂
        · exact ih h₂
        · exact (Run.ends_throw.mp h₂).2

/-- A level that is gone through is a pass. -/
theorem exists_pass {depth : Nat} {level next : List String} {v : Service}
    (hcur : (Work.contextIsCurrent t.context).Ends T s true v)
    (h : Run.Ends T (traverseLevel shelf rules depth level) t v (.ok next) w s') :
    ∃ p : Passage, p.files = level ∧ next = w.next ∧ Pass T shelf rules depth p t s w s' := by
  obtain ⟨_, _, _, hm, h₁⟩ := Run.ends_bind_ok.mp h
  obtain ⟨-, rfl, rfl⟩ := Run.ends_modify.mp hm
  obtain ⟨_, u, x, hs, h₂⟩ := Run.ends_bind_ok.mp h₁
  obtain ⟨is, his⟩ := exists_scans hs
  obtain ⟨_, _, _, hg, h₃⟩ := Run.ends_bind_ok.mp h₂
  obtain ⟨⟨⟩, rfl, rfl⟩ := Run.ends_get.mp hg
  obtain ⟨nodes, _, y, hf, h₄⟩ := Run.ends_bind_ok.mp h₃
  obtain ⟨hfetch, rfl⟩ := Run.ends_lift.mp hf
  obtain ⟨_, w', z, hj, h₅⟩ := Run.ends_bind_ok.mp h₄
  obtain ⟨_, _, _, hc, h₆⟩ := Run.ends_bind_ok.mp h₅
  obtain ⟨rfl, rfl⟩ := eq_of_checkWaiting hc
  obtain ⟨_, _, _, hl, h₇⟩ := Run.ends_bind_ok.mp h₆
  obtain ⟨_, hlog, -, rfl⟩ := Stateful.ends_work.mp hl
  obtain ⟨_, _, _, hg', h₈⟩ := Run.ends_bind_ok.mp h₇
  obtain ⟨⟨⟩, rfl, rfl⟩ := Run.ends_get.mp hg'
  obtain ⟨⟨⟩, rfl, rfl⟩ := Run.ends_pure.mp h₈
  exact ⟨⟨level, is, _, nodes⟩, rfl, rfl, .mk hcur his hfetch hj hc hlog⟩

/-- Every traversal makes passes, not more than its budget allows, and then halts; for its budget only
when that is spent and files are left. -/
theorem exists_passes {budget depth : Nat} {level : List String} {r : Except Fault Bool}
    (h : Run.Ends T (traverse shelf rules entry budget depth level) t s r t' s') :
    ∃ ps level' u v, Passes T shelf rules depth level t s ps level' u v ∧ ps.length ≤ budget ∧
      (Halts T shelf rules entry (depth + ps.length) u v level' r t' s' ∨
        ps.length = budget ∧ level' ≠ [] ∧ r = .error .exhausted ∧ t' = u ∧ s' = v) := by
  induction budget generalizing depth level t s with
  | zero =>
    cases level with
    | nil =>
      obtain ⟨rfl, rfl, rfl⟩ := Run.ends_pure.mp h
      exact ⟨[], [], _, _, .done, Nat.le_refl 0, Or.inl .complete⟩
    | cons f fs =>
      obtain ⟨rfl, rfl, rfl⟩ := Run.ends_throw.mp h
      exact ⟨[], _, _, _, .done, Nat.le_refl 0, Or.inr ⟨rfl, List.cons_ne_nil f fs, rfl, rfl, rfl⟩⟩
  | succ budget ih =>
    cases level with
    | nil =>
      obtain ⟨rfl, rfl, rfl⟩ := Run.ends_pure.mp h
      exact ⟨[], [], _, _, .done, Nat.zero_le _, Or.inl .complete⟩
    | cons f fs =>
      have hne := List.cons_ne_nil f fs
      rcases Run.ends_bind.mp h with ⟨e, hg, -⟩ | ⟨_, _, _, hg, h₁⟩
      · exact nomatch (Run.ends_get.mp hg).1
      obtain ⟨⟨⟩, rfl, rfl⟩ := Run.ends_get.mp hg
      rcases Run.ends_bind.mp h₁ with ⟨e, hc, -⟩ | ⟨current, _, v, hc, h₂⟩
      · obtain ⟨_, -, he, -⟩ := Stateful.ends_work.mp hc
        exact nomatch he
      obtain ⟨_, hcur, ⟨⟩, rfl⟩ := Stateful.ends_work.mp hc
      cases current with
      | false =>
        rcases Run.ends_bind.mp h₂ with ⟨e, hl, -⟩ | ⟨_, _, _, hl, h₃⟩
        · obtain ⟨_, -, he, -⟩ := Stateful.ends_work.mp hl
          exact nomatch he
        obtain ⟨_, hlog, -, rfl⟩ := Stateful.ends_work.mp hl
        obtain ⟨rfl, rfl, rfl⟩ := Run.ends_pure.mp h₃
        exact ⟨[], _, _, _, .done, Nat.zero_le _, Or.inl (.stopped hne hcur hlog)⟩
      | true =>
        rcases Run.ends_bind.mp h₂ with ⟨e, hl, rfl⟩ | ⟨next, w, y, hl, h₃⟩
        · exact ⟨[], _, _, _, .done, Nat.zero_le _, Or.inl (.failed hne hcur hl)⟩
        · obtain ⟨p, hp, rfl, hpass⟩ := exists_pass hcur hl
          obtain ⟨ps, level', u, v', hps, hlen, hend⟩ := ih h₃
          rw [← hp]
          refine ⟨p :: ps, level', u, v', .pass (hp ▸ hne) hpass hps, Nat.succ_le_succ hlen, ?_⟩
          rw [List.length_cons, ← Nat.add_assoc, Nat.add_right_comm]
          rcases hend with hend | ⟨rfl, hend⟩
          · exact Or.inl hend
          · exact Or.inr ⟨rfl, hend⟩

/-! ## Passes make up a course -/

/-- What a pass does after the files have been scanned completes the level. -/
lemma Pass.completes {depth : Nat} {p : Passage} (h : Pass T shelf rules depth p t s w s') :
    ∃ v x, (Work.contextIsCurrent t.context).Ends T s true v ∧
      Scans T rules p.files { t with next := [], waiting := [] } v p.imports p.scanned x ∧
      Run.Ends T (completeLevel shelf depth p.files.length) p.scanned x (.ok w.next) w s' := by
  obtain ⟨hcur, hscan, hfetch, hjoin, hcheck, hlog⟩ := h
  refine ⟨_, _, hcur, hscan, Run.ends_bind_ok.mpr ⟨_, _, _, Run.ends_get.mpr ⟨rfl, rfl, rfl⟩, ?_⟩⟩
  refine Run.ends_bind_ok.mpr ⟨_, _, _, Run.ends_lift.mpr ⟨hfetch, rfl⟩, ?_⟩
  refine Run.ends_bind_ok.mpr ⟨_, _, _, hjoin, Run.ends_bind_ok.mpr ⟨_, _, _, hcheck, ?_⟩⟩
  refine Run.ends_bind_ok.mpr ⟨_, _, _, Stateful.ends_work.mpr ⟨_, hlog, rfl, rfl⟩, ?_⟩
  exact Run.ends_bind_ok.mpr ⟨_, _, _, Run.ends_get.mpr ⟨rfl, rfl, rfl⟩, Run.ends_pure.mpr ⟨rfl, rfl, rfl⟩⟩

/-- Passes that leave no files, or come to where the run is no longer current, are a course. -/
theorem Passes.course {depth : Nat} {level level' : List String} {ps : List Passage} {b : Bool}
    {v : Service} (h : Passes T shelf rules depth level t s ps level' u v)
    (hend : Halts T shelf rules entry (depth + ps.length) u v level' (.ok b) t' s') :
    Course T shelf rules entry depth level t s (ps.map Passage.level) b t' s' := by
  induction h with
  | @done depth level t s =>
    cases hend with
    | complete => exact .complete
    | stopped hne hcur hlog =>
      obtain ⟨f, fs, rfl⟩ := List.exists_cons_of_ne_nil hne
      exact .stopped hcur hlog
  | @pass depth p ps level' t w u s y v hne hpass _ ih =>
    obtain ⟨x, z, hcur, hscan, hcomp⟩ := hpass.completes
    rw [List.length_cons, Nat.add_comm ps.length, ← Nat.add_assoc] at hend
    obtain ⟨f, fs, hfiles⟩ := List.exists_cons_of_ne_nil hne
    have hlevel : p.level = ⟨f :: fs, p.imports⟩ := congrArg (Level.mk · p.imports) hfiles
    rw [List.map_cons, hlevel, hfiles]
    rw [hfiles] at hscan hcomp
    exact .level hcur hscan hcomp (ih hend)

end SourceBundle.Bundle
