/-
# Direct routines

Some routines change nothing and always come to the same result, as long as the states that they find and
the answers that they get are of one kind.  They wait for nothing and start no others, so that they come to
their result in every company.
-/
import SourceBundle.Proofs.Service.Plain

namespace SourceBundle

variable {σ Q : Type} {A : Q → Type} {ε ρ τ α β : Type} {S : σ → Prop} {ans : (q : Q) → A q → Prop}

/-- In states of a kind, and if it gets answers of a kind, the routine comes to a result without a change: it
asks nothing to which there is no such answer, waits for nothing and starts no other routine. -/
def Routine.ComesTo (S : σ → Prop) (ans : (q : Q) → A q → Prop) {α : Type} :
    Routine σ Q A α → α → Prop
  | .done b, a => b = a
  | .step change next, a => ∀ s, S s → change s = s ∧ (next s).ComesTo S ans a
  | .ask q next, a => (∃ b, ans q b) ∧ ∀ b, ans q b → (next b).ComesTo S ans a
  | .wait _ _ _, _ => False
  | .spawn _ _, _ => False

theorem Routine.ComesTo.bind {x : Routine σ Q A α} {f : α → Routine σ Q A β} {a : α} {b : β}
    (hx : x.ComesTo S ans a) (hf : (f a).ComesTo S ans b) : (x.bind f).ComesTo S ans b := by
  induction x with
  | done c =>
    obtain rfl := hx
    exact hf
  | step change next ih => exact fun s hs => ⟨(hx s hs).1, ih s (hx s hs).2 hf⟩
  | ask q next ih => exact ⟨hx.1, fun c hc => ih c (hx.2 c hc) hf⟩
  | wait turns until_ next _ => exact hx.elim
  | spawn child next _ _ => exact hx.elim

/-- A walk through a routine that asks nothing is the one to which the routine comes. -/
theorem Routine.ComesTo.eq_of_ends {T : Terms σ Q A} {x : Routine σ Q A α} {a b : α} {s t : σ}
    (h : x.ComesTo S (fun _ _ => False) a) (hs : S s) (hx : x.Ends T s b t) : b = a ∧ t = s := by
  induction x generalizing s with
  | done c => exact ⟨hx.1.symm.trans h, hx.2.symm⟩
  | step change next ih =>
    obtain ⟨hsame, hnext⟩ := h s hs
    obtain ⟨-, hrest⟩ := hx
    rw [hsame] at hrest
    exact ih s hnext hs hrest
  | ask q next _ =>
    obtain ⟨⟨_, hno⟩, -⟩ := h
    exact hno.elim
  | wait turns until_ next _ => exact h.elim
  | spawn child next _ _ => exact h.elim

/-- The run, begun with a private state, comes to a result and a private state without a change of what it
shares. -/
def Run.ComesTo (S : σ → Prop) (ans : (q : Q) → A q → Prop) (x : Run σ Q A ε ρ α) (t : ρ)
    (out : Except ε α) (t' : ρ) : Prop :=
  (x.run t).ComesTo S ans (out, t')

namespace Run.ComesTo

variable {t t' t'' : ρ} {out : Except ε β}

theorem pure (a : α) (t : ρ) : Run.ComesTo S ans (Pure.pure a : Run σ Q A ε ρ α) t (.ok a) t := rfl

theorem get (t : ρ) : Run.ComesTo S ans (getThe ρ : Run σ Q A ε ρ ρ) t (.ok t) t := rfl

theorem modify (f : ρ → ρ) (t : ρ) :
    Run.ComesTo S ans (modifyThe ρ f : Run σ Q A ε ρ PUnit) t (.ok ⟨⟩) (f t) := rfl

theorem bind {x : Run σ Q A ε ρ α} {f : α → Run σ Q A ε ρ β} {a : α}
    (hx : Run.ComesTo S ans x t (.ok a) t') (hf : Run.ComesTo S ans (f a) t' out t'') :
    Run.ComesTo S ans (x >>= f) t out t'' := by
  unfold Run.ComesTo
  rw [run_bind]
  exact Routine.ComesTo.bind hx hf

theorem zoom {view : ρ → τ} {set : τ → ρ → ρ} {x : Run σ Q A ε τ β} {u : τ}
    (hx : Run.ComesTo S ans x (view t) out u) : Run.ComesTo S ans (Run.zoom view set x) t out (set u t) :=
  Routine.ComesTo.bind hx rfl

theorem eq_of_ends {T : Terms σ Q A} {x : Run σ Q A ε ρ β} {r : Except ε β} {u : ρ} {s s' : σ}
    (h : Run.ComesTo S (fun _ _ => False) x t out t') (hs : S s) (hx : Run.Ends T x t s r u s') :
    r = out ∧ u = t' ∧ s' = s := by
  obtain ⟨hend, hstate⟩ := Routine.ComesTo.eq_of_ends h hs hx
  obtain ⟨hout, hprivate⟩ := Prod.mk.inj hend
  exact ⟨hout, hprivate, hstate⟩

end Run.ComesTo

/-- To read the settings comes to those that all states share. -/
lemma Stateful.comesTo_settings {S : Service → Prop} {ans : (q : Question) → q.Answer → Prop}
    {st : Settings} (hS : ∀ s, S s → s.settings = st) (t : ρ) :
    Run.ComesTo S ans (Stateful.work Work.settings : Stateful ρ Settings) t (.ok st) t :=
  fun s hs => ⟨rfl, congrArg (fun st => (Except.ok st, t)) (hS s hs)⟩

end SourceBundle
