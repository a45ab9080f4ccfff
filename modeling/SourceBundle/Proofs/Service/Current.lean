/-
# Which runs are current

A check tells whether the run is current in the state in which it is made, and changes nothing but
the permit that it shows.
-/
import SourceBundle.Proofs.Service.Kept

namespace SourceBundle

/-- The run is current. -/
def Context.CurrentIn (c : Context) (s : Service) : Prop :=
  match c.standing with
  | .always => True
  | .permitted => s.permit.show.1 = true
  | .generation n epoch => s.epoch = epoch ∧ s.generations.get? c.target = some n

lemma Context.currentIn_congr {c c' : Context} (ht : c'.target = c.target)
    (hs : c'.standing = c.standing) (s : Service) : c'.CurrentIn s ↔ c.CurrentIn s := by
  rw [CurrentIn, CurrentIn, ht, hs]

variable {T : Terms Service Question Question.Answer} {s s' : Service} {c : Context} {b : Bool}

/-- A check tells whether the run is current. -/
theorem Work.current_iff_of_ends (h : (Work.contextIsCurrent c).Ends T s b s') :
    b = true ↔ c.CurrentIn s := by
  unfold contextIsCurrent isCurrent at h
  split at h
  · next hc =>
    obtain ⟨rfl, -⟩ := h
    rw [Context.CurrentIn, hc]
    simp
  · next hc =>
    obtain ⟨-, rfl, -⟩ := h
    rw [Context.CurrentIn, hc]
  · next n epoch hc =>
    obtain ⟨-, rfl, -⟩ := Work.ends_gets.mp h
    rw [Context.CurrentIn, hc]
    simp

/-- A check of a run that hangs on its generation changes nothing. -/
theorem Work.eq_of_ends_contextIsCurrent {n epoch : Nat} (hc : c.standing = .generation n epoch)
    (h : (Work.contextIsCurrent c).Ends T s b s') : s' = s := by
  rw [contextIsCurrent, hc] at h
  exact (Work.ends_gets.mp h).2.2

end SourceBundle
