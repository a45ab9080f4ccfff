/-
# Plain routines

Most routines run straight on: they wait for nothing and start no others, and what they do next
hangs only on a part of the state and on the answers that they get.  A manner says what this part
is, how the state may be changed and what may be asked.  It may also call some answers fatal: after
such an answer a routine asks nothing but a question that settles it.  That a routine works in a
manner is read off its tree; such a routine obeys every law that allows as much, and two runs of it
that find the same view and get the same answers do the same.
-/
import SourceBundle.Proofs.Routine.Layers

namespace SourceBundle

/-- A manner in which a routine does its work. -/
structure Manner (σ Q : Type) (A : Q → Type) (β : Type) where
  /-- What of the state the routine goes by. -/
  view : σ → β
  /-- How it may change the state. -/
  change : σ → σ → Prop
  /-- What it may ask. -/
  question : Q → Prop
  /-- Which answers are fatal. -/
  fatal : (q : Q) → A q → Prop
  /-- Which questions settle a fatal answer to a question. -/
  settles : Q → Q → Prop

namespace Routine

variable {σ Q β : Type} {A : Q → Type} {α δ : Type} {m : Manner σ Q A β}

/-- After a fatal answer to a question: the routine asks a question that settles it, or the same one
again, and after a fatal answer it goes on in this way. -/
def Doomed (m : Manner σ Q A β) (q : Q) {α : Type} : Routine σ Q A α → Prop
  | .done _ => False
  | .step change next =>
    (∀ s, m.change s (change s)) ∧ ∀ s, (next s).Doomed m q
  | .ask q' next => m.settles q q' ∨ (q' = q ∧ ∀ a, m.fatal q' a → (next a).Doomed m q)
  | .wait _ _ _ => False
  | .spawn _ _ => False

theorem Doomed.bind {q : Q} {x : Routine σ Q A α} (h : x.Doomed m q) (f : α → Routine σ Q A δ) :
    (x.bind f).Doomed m q := by
  induction x with
  | done a => exact h.elim
  | step change next ih => exact ⟨h.1, fun s => ih s (h.2 s) f⟩
  | ask q' next ih => exact h.imp_right fun h => ⟨h.1, fun a ha => ih a (h.2 a ha) f⟩
  | wait turns until_ next _ => exact h.elim
  | spawn child next _ _ => exact h.elim

/-- The routine works in a manner, and its result has a property. -/
def Plain (m : Manner σ Q A β) {α : Type} : Routine σ Q A α → (α → Prop) → Prop
  | .done a, post => post a
  | .step change next, post =>
    (∀ s, m.change s (change s)) ∧
      (∀ s t, m.view s = m.view t → m.view (change s) = m.view (change t) ∧ next s = next t) ∧
      ∀ s, (next s).Plain m post
  | .ask q next, post => m.question q ∧ (∀ a, (next a).Plain m post) ∧
    ∀ a, m.fatal q a → (next a).Doomed m q
  | .wait _ _ _, _ => False
  | .spawn _ _, _ => False

namespace Plain

theorem bind {x : Routine σ Q A α} {f : α → Routine σ Q A δ} {mid : α → Prop} {post : δ → Prop}
    (hx : x.Plain m mid) (hf : ∀ a, mid a → (f a).Plain m post) : (x.bind f).Plain m post := by
  induction x with
  | done a => exact hf a hx
  | step change next ih =>
    refine ⟨hx.1, fun s t h => ?_, fun s => ih s (hx.2.2 s) hf⟩
    obtain ⟨hv, hn⟩ := hx.2.1 s t h
    exact ⟨hv, congrArg (fun y => Routine.bind y f) hn⟩
  | ask q next ih =>
    exact ⟨hx.1, fun a => ih a (hx.2.1 a) hf, fun a ha => (hx.2.2 a ha).bind f⟩
  | wait turns until_ next _ => exact hx.elim
  | spawn child next _ _ => exact hx.elim

theorem imp {x : Routine σ Q A α} {post post' : α → Prop} (h : x.Plain m post)
    (hp : ∀ a, post a → post' a) : x.Plain m post' := by
  have hdone : (x.bind done).Plain m post' := h.bind hp
  rwa [bind_done] at hdone

theorem modify {f : σ → σ} (hc : ∀ s, m.change s (f s))
    (hv : ∀ s t, m.view s = m.view t → m.view (f s) = m.view (f t)) :
    (Routine.modify f : Routine σ Q A Unit).Plain m fun _ => True :=
  ⟨hc, fun s t h => ⟨hv s t h, rfl⟩, fun _ => trivial⟩

theorem modifyGet {f : σ → α × σ} (hc : ∀ s, m.change s (f s).2)
    (hv : ∀ s t, m.view s = m.view t → m.view (f s).2 = m.view (f t).2 ∧ (f s).1 = (f t).1) :
    (Routine.modifyGet f : Routine σ Q A α).Plain m fun _ => True :=
  ⟨hc, fun s t h => ⟨(hv s t h).1, congrArg Routine.done (hv s t h).2⟩, fun _ => trivial⟩

theorem gets {f : σ → α} (hc : ∀ s, m.change s s)
    (hv : ∀ s t, m.view s = m.view t → f s = f t) :
    (Routine.gets f : Routine σ Q A α).Plain m fun _ => True :=
  ⟨hc, fun s t h => ⟨h, congrArg Routine.done (hv s t h)⟩, fun _ => trivial⟩

/-- A routine that works in a manner obeys every law that allows as much. -/
theorem obeys {L : Law σ Q A} {x : Routine σ Q A α} {post : α → Prop} (h : x.Plain m post)
    (hc : ∀ s t, m.change s t → L.change s t) (hq : ∀ q, m.question q → L.question q) :
    x.Obeys L post := by
  induction x with
  | done a => exact h
  | step change next ih => exact fun s _ => ⟨hc _ _ (h.1 s), ih s (h.2.2 s)⟩
  | ask q next ih => exact ⟨hq q h.1, fun a _ => ih a (h.2.1 a)⟩
  | wait turns until_ next _ => exact h.elim
  | spawn child next _ _ => exact h.elim

end Plain

end Routine

variable {σ Q β : Type} {A : Q → Type} {ε ρ τ α δ : Type} {m : Manner σ Q A β}

/-! ## Routines that may fail -/

/-- The attempt works in a manner. -/
def Attempt.Plain (m : Manner σ Q A β) (x : Attempt σ Q A ε α) : Prop := x.run.Plain m fun _ => True

namespace Attempt.Plain

theorem pure (a : α) : Attempt.Plain m (Pure.pure a : Attempt σ Q A ε α) := trivial

theorem throw (e : ε) : Attempt.Plain m (MonadExcept.throw e : Attempt σ Q A ε α) := trivial

theorem bind {x : Attempt σ Q A ε α} {f : α → Attempt σ Q A ε δ} (hx : Attempt.Plain m x)
    (hf : ∀ a, Attempt.Plain m (f a)) : Attempt.Plain m (x >>= f) := by
  refine Routine.Plain.bind hx fun r _ => ?_
  cases r with
  | ok a => exact hf a
  | error e => trivial

theorem tryCatch {x : Attempt σ Q A ε α} {h : ε → Attempt σ Q A ε α} (hx : Attempt.Plain m x)
    (hh : ∀ e, Attempt.Plain m (h e)) : Attempt.Plain m (MonadExcept.tryCatch x h) := by
  refine Routine.Plain.bind hx fun r _ => ?_
  cases r with
  | ok a => trivial
  | error e => exact hh e

theorem forM {f : δ → Attempt σ Q A ε PUnit} (hf : ∀ b, Attempt.Plain m (f b)) (bs : List δ) :
    Attempt.Plain m (bs.forM f) := by
  induction bs with
  | nil => exact pure _
  | cons b bs ih => exact bind (hf b) fun _ => ih

end Attempt.Plain

/-! ## Routines with a private state -/

/-- The run works in a manner, and its private states at the beginning and at the end are related
as given, whatever its result. -/
def Run.Plain (m : Manner σ Q A β) (I : ρ → ρ → Prop) (x : Run σ Q A ε ρ α) : Prop :=
  ∀ t, (x.run t).Plain m fun p => I t p.2

namespace Run.Plain

variable {I J : ρ → ρ → Prop} {x : Run σ Q A ε ρ α}

theorem imp (h : Run.Plain m I x) (hI : ∀ t t', I t t' → J t t') : Run.Plain m J x :=
  fun t => (h t).imp fun p => hI t p.2

theorem keeps {L : Law σ Q A} (h : Run.Plain m I x) (hc : ∀ s t, m.change s t → L.change s t)
    (hq : ∀ q, m.question q → L.question q) : Run.Keeps L I x :=
  fun t => (h t).obeys hc hq

theorem modify {f : ρ → ρ} (h : ∀ t, I t (f t)) :
    Run.Plain m I (modifyThe ρ f : Run σ Q A ε ρ PUnit) := fun t => h t

theorem lift {x : Attempt σ Q A ε α} (h : ∀ t, I t t) (hx : Attempt.Plain m x) :
    Run.Plain m I (Run.lift x : Run σ Q A ε ρ α) :=
  fun t => Routine.Plain.bind hx fun _ _ => h t

theorem zoom {K : τ → τ → Prop} {view : ρ → τ} {set : τ → ρ → ρ} {x : Run σ Q A ε τ α}
    (hx : Run.Plain m K x) (h : ∀ t u, K (view t) u → I t (set u t)) :
    Run.Plain m I (Run.zoom view set x) :=
  fun t => Routine.Plain.bind (hx (view t)) fun p hp => h t p.2 hp

variable [IsPreorder ρ I]

theorem pure (a : α) : Run.Plain m I (Pure.pure a : Run σ Q A ε ρ α) := fun t => refl_of I t

theorem throw (e : ε) : Run.Plain m I (MonadExcept.throw e : Run σ Q A ε ρ α) :=
  fun t => refl_of I t

theorem get : Run.Plain m I (getThe ρ : Run σ Q A ε ρ ρ) := fun t => refl_of I t

theorem bind {f : α → Run σ Q A ε ρ δ} (hx : Run.Plain m I x) (hf : ∀ a, Run.Plain m I (f a)) :
    Run.Plain m I (x >>= f) := by
  intro t
  rw [run_bind]
  refine Routine.Plain.bind (hx t) ?_
  rintro ⟨r | a, u⟩ hu
  · exact hu
  · exact (hf a u).imp fun p hp => trans_of I hu hp

theorem tryCatch {h : ε → Run σ Q A ε ρ α} (hx : Run.Plain m I x)
    (hh : ∀ e, Run.Plain m I (h e)) : Run.Plain m I (MonadExcept.tryCatch x h) := by
  intro t
  rw [run_tryCatch]
  refine Routine.Plain.bind (hx t) ?_
  rintro ⟨r | a, u⟩ hu
  · exact (hh r u).imp fun p hp => trans_of I hu hp
  · exact hu

theorem forM {f : δ → Run σ Q A ε ρ PUnit} (hf : ∀ b, Run.Plain m I (f b)) (bs : List δ) :
    Run.Plain m I (bs.forM f) := by
  induction bs with
  | nil => exact pure _
  | cons b bs ih => exact bind (hf b) fun _ => ih

end Run.Plain

end SourceBundle
