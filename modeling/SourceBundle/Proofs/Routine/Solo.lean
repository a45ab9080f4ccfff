/-
# Undisturbed walks

Nothing keeps the others in a crowd from doing nothing.  So what a routine can come to while nobody
disturbs it and every question gets a fixed answer, it can come to in a crowd.
-/
import SourceBundle.Proofs.Routine.Crowd

namespace SourceBundle

variable {σ Q : Type} {A : Q → Type} {R P α : Type} {reply : (q : Q) → A q}

/-- The terms of a routine that nobody disturbs and that starts no other: the others change nothing,
and the answers are fixed. -/
def Terms.solo (reply : (q : Q) → A q) : Terms σ Q A where
  own _ _ := True
  others s t := t = s
  answer q a := a = reply q
  number _ := False

namespace Crowd

variable {work : R → Routine σ Q A P} {c : Crowd σ Q A R P} {id : Nat} {report : α → Option P}
  {x y : Routine σ Q A α} {s t : σ}

/-- An undisturbed walk of a routine in a crowd changes nothing but the state, and adds to the
history. -/
theorem Reachable.of_leads (h : x.Leads (.solo reply) t y s) {s₀ : σ}
    (hr : Reachable work s₀ (run id report x c)) (hc : c.state = t) :
    ∃ news, Reachable work s₀
      (run id report y { c with state := s, history := news ++ c.history }) := by
  induction h generalizing c with
  | here => exact ⟨[], hc ▸ hr⟩
  | @step change next _ _ _ _ _ ih =>
    subst hc
    exact ih (c := { c with state := change c.state }) hr rfl
  | @ask q a next _ _ _ _ ha ho _ ih =>
    -- the routine has just joined those that pause, and stands before them
    subst ha ho
    obtain ⟨news, hr⟩ := ih (hr.answer (reply q) (List.nil_append _).symm) hc
    refine ⟨news ++ [.answered id q (reply q), .put id q], ?_⟩
    simpa [run] using hr
  | @wait turns until_ wake next _ _ _ _ ho hu _ ih =>
    subst ho hc
    exact ih (hr.wake wake (List.nil_append _).symm hu) rfl
  | spawn hn => exact hn.elim

end Crowd

end SourceBundle
