/-
# The changes that a routine makes

A routine is steady if all of its own changes are of one kind and all routines that it starts are of
another.  What those do is not asked here.
-/
import SourceBundle.Proofs.Routine.Alone
import SourceBundle.Proofs.Routine.Plain

namespace SourceBundle

namespace Routine

variable {σ Q β : Type} {A : Q → Type} {α δ : Type} {T : Terms σ Q A} {R R' : σ → σ → Prop}
  {K K' : Routine σ Q A Unit → Prop}

/-- All changes that the routine makes itself are of one kind, and so are the routines that it
starts. -/
def Steady (R : σ → σ → Prop) (K : Routine σ Q A Unit → Prop) {α : Type} : Routine σ Q A α → Prop
  | .done _ => True
  | .step change next => ∀ s, R s (change s) ∧ (next s).Steady R K
  | .ask _ next => ∀ a, (next a).Steady R K
  | .wait _ _ next => ∀ w, (next w).Steady R K
  | .spawn child next => K child ∧ ∀ n, (next n).Steady R K

namespace Steady

theorem imp {x : Routine σ Q A α} (h : x.Steady R K) (hR : ∀ s t, R s t → R' s t)
    (hK : ∀ child, K child → K' child) : x.Steady R' K' := by
  induction x with
  | done a => trivial
  | step change next ih => exact fun s => ⟨hR _ _ (h s).1, ih s (h s).2⟩
  | ask q next ih => exact fun a => ih a (h a)
  | wait turns until_ next ih => exact fun w => ih w (h w)
  | spawn child next _ ih => exact ⟨hK child h.1, fun n => ih n (h.2 n)⟩

theorem and {x : Routine σ Q A α} (h : x.Steady R K) (h' : x.Steady R' K') :
    x.Steady (fun s t => R s t ∧ R' s t) fun child => K child ∧ K' child := by
  induction x with
  | done a => trivial
  | step change next ih => exact fun s => ⟨⟨(h s).1, (h' s).1⟩, ih s (h s).2 (h' s).2⟩
  | ask q next ih => exact fun a => ih a (h a) (h' a)
  | wait turns until_ next ih => exact fun w => ih w (h w) (h' w)
  | spawn child next _ ih => exact ⟨⟨h.1, h'.1⟩, fun n => ih n (h.2 n) (h'.2 n)⟩

theorem bind {x : Routine σ Q A α} {f : α → Routine σ Q A δ} (hx : x.Steady R K)
    (hf : ∀ a, (f a).Steady R K) : (x.bind f).Steady R K := by
  induction x with
  | done a => exact hf a
  | step change next ih => exact fun s => ⟨(hx s).1, ih s (hx s).2 hf⟩
  | ask q next ih => exact fun a => ih a (hx a) hf
  | wait turns until_ next ih => exact fun w => ih w (hx w) hf
  | spawn child next _ ih => exact ⟨hx.1, fun n => ih n (hx.2 n) hf⟩

theorem modify {f : σ → σ} (h : ∀ s, R s (f s)) :
    (Routine.modify f : Routine σ Q A Unit).Steady R K :=
  fun s => ⟨h s, trivial⟩

theorem modifyGet {f : σ → α × σ} (h : ∀ s, R s (f s).2) :
    (Routine.modifyGet f : Routine σ Q A α).Steady R K :=
  fun s => ⟨h s, trivial⟩

theorem gets (f : σ → α) (h : ∀ s, R s s) : (Routine.gets f : Routine σ Q A α).Steady R K :=
  fun s => ⟨h s, trivial⟩

theorem await (turns : Nat) (until_ : σ → Bool) :
    (Routine.await turns until_ : Routine σ Q A Wake).Steady R K :=
  fun _ => trivial

theorem start {child : Routine σ Q A Unit} (h : K child) :
    (Routine.start child : Routine σ Q A Nat).Steady R K :=
  ⟨h, fun _ => trivial⟩

/-- If the others change nothing in another way, the states before and after a walk through a
steady routine are related. -/
theorem ends [IsPreorder σ R] {x : Routine σ Q A α} {s t : σ} {a : α} (h : x.Steady R K)
    (ho : ∀ s t, T.others s t → R s t) (hx : x.Ends T s a t) : R s t := by
  induction x generalizing s with
  | done b =>
    obtain ⟨-, rfl⟩ := hx
    exact refl_of R s
  | step change next ih => exact trans_of R (h s).1 (ih s (h s).2 hx.2)
  | ask q next ih =>
    obtain ⟨b, s', -, hs', hx⟩ := hx
    exact trans_of R (ho _ _ hs') (ih b (h b) hx)
  | wait turns until_ next ih =>
    obtain ⟨w, s', hs', -, hx⟩ := hx
    exact trans_of R (ho _ _ hs') (ih w (h w) hx)
  | spawn child next _ ih =>
    obtain ⟨n, -, hx⟩ := hx
    exact ih n (h.2 n) hx

/-- The states before and after a steady routine that runs alone are related. -/
theorem alone [IsPreorder σ R] {reply : (q : Q) → A q} {x : Routine σ Q A α} {s t : σ} {a : α}
    (h : x.Steady R K) (hx : x.alone reply s = some (a, t)) : R s t := by
  induction x generalizing s with
  | done b =>
    obtain ⟨-, rfl⟩ := Prod.mk.inj (Option.some.inj hx)
    exact refl_of R s
  | step change next ih => exact trans_of R (h s).1 (ih s (h s).2 hx)
  | ask q next ih => exact ih _ (h _) hx
  | wait turns until_ next ih => exact ih _ (h _) (Option.ite_none_right_eq_some.mp hx).2
  | spawn child next _ _ => exact nomatch hx

end Steady

/-- A routine that obeys a law without any demand on states and answers is steady. -/
theorem Obeys.steady {L : Law σ Q A} {x : Routine σ Q A α} {post : α → Prop} (h : x.Obeys L post)
    (hs : ∀ s, L.state s) (ha : ∀ q a, L.answer q a) :
    x.Steady L.change fun child => child.Lawful L.forHelpers := by
  induction x with
  | done a => trivial
  | step change next ih => exact fun s => ⟨(h s (hs s)).1, ih s (h s (hs s)).2⟩
  | ask q next ih => exact fun a => ih a (h.2 a (ha q a))
  | wait turns until_ next ih => exact fun w => ih w (h w)
  | spawn child next _ ih => exact ⟨h.1, fun n => ih n (h.2 n)⟩

/-- A plain routine is steady if its manner allows only changes of the kind. -/
theorem Plain.steady {m : Manner σ Q A β} {x : Routine σ Q A α} {post : α → Prop}
    (h : x.Plain m post) (hR : ∀ s t, m.change s t → R s t) : x.Steady R K := by
  induction x with
  | done a => trivial
  | step change next ih => exact fun s => ⟨hR _ _ (h.1 s), ih s (h.2.2 s)⟩
  | ask q next ih => exact fun a => ih a (h.2.1 a)
  | wait turns until_ next _ => exact h.elim
  | spawn child next _ _ => exact h.elim

end Routine

/-! ## Routines that fail and keep notes -/

variable {σ Q : Type} {A : Q → Type} {ε ρ α δ : Type} {R : σ → σ → Prop}
  {K : Routine σ Q A Unit → Prop}

/-- All changes that the attempt makes itself are of one kind, and so are the routines that it
starts. -/
def Attempt.Steady (R : σ → σ → Prop) (K : Routine σ Q A Unit → Prop) (x : Attempt σ Q A ε α) : Prop :=
  x.run.Steady R K

namespace Attempt.Steady

theorem pure (a : α) : Attempt.Steady R K (Pure.pure a : Attempt σ Q A ε α) := trivial

theorem throw (e : ε) : Attempt.Steady R K (MonadExcept.throw e : Attempt σ Q A ε α) := trivial

theorem bind {x : Attempt σ Q A ε α} {f : α → Attempt σ Q A ε δ} (hx : Attempt.Steady R K x)
    (hf : ∀ a, Attempt.Steady R K (f a)) : Attempt.Steady R K (x >>= f) := by
  refine Routine.Steady.bind hx fun r => ?_
  cases r with
  | ok a => exact hf a
  | error e => trivial

theorem tryCatch {x : Attempt σ Q A ε α} {h : ε → Attempt σ Q A ε α} (hx : Attempt.Steady R K x)
    (hh : ∀ e, Attempt.Steady R K (h e)) : Attempt.Steady R K (MonadExcept.tryCatch x h) := by
  refine Routine.Steady.bind hx fun r => ?_
  cases r with
  | ok a => trivial
  | error e => exact hh e

end Attempt.Steady

/-- All changes that the run makes itself are of one kind, and so are the routines that it starts. -/
def Run.Steady (R : σ → σ → Prop) (K : Routine σ Q A Unit → Prop) (x : Run σ Q A ε ρ α) : Prop :=
  ∀ t, (x.run t).Steady R K

namespace Run.Steady

theorem pure (a : α) : Run.Steady R K (Pure.pure a : Run σ Q A ε ρ α) := fun _ => trivial

theorem throw (e : ε) : Run.Steady R K (MonadExcept.throw e : Run σ Q A ε ρ α) := fun _ => trivial

theorem get : Run.Steady R K (getThe ρ : Run σ Q A ε ρ ρ) := fun _ => trivial

theorem modify (f : ρ → ρ) : Run.Steady R K (modifyThe ρ f : Run σ Q A ε ρ PUnit) := fun _ => trivial

theorem lift {x : Attempt σ Q A ε α} (hx : Attempt.Steady R K x) :
    Run.Steady R K (Run.lift x : Run σ Q A ε ρ α) :=
  fun _ => Routine.Steady.bind hx fun _ => trivial

theorem bind {x : Run σ Q A ε ρ α} {f : α → Run σ Q A ε ρ δ} (hx : Run.Steady R K x)
    (hf : ∀ a, Run.Steady R K (f a)) : Run.Steady R K (x >>= f) := by
  intro t
  rw [run_bind]
  refine Routine.Steady.bind (hx t) ?_
  rintro ⟨r | a, u⟩
  · trivial
  · exact hf a u

theorem forM {f : δ → Run σ Q A ε ρ PUnit} (hf : ∀ b, Run.Steady R K (f b)) (bs : List δ) :
    Run.Steady R K (bs.forM f) := by
  induction bs with
  | nil => exact pure _
  | cons b bs ih => exact bind (hf b) fun _ => ih

end Run.Steady

end SourceBundle
