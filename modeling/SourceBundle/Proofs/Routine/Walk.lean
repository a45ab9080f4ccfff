/-
# Walks through a routine

A routine is a tree, and a run of it beside others is a walk through this tree: whenever it pauses,
the others may change the state and the collaborators give some answer.  This module defines what a
walk can end with and which questions it can put, under given terms on the changes and the answers,
and shows how walks are composed from those of the parts.
-/
import SourceBundle.Routine.Basic
import Mathlib.Tactic.Common

namespace SourceBundle

/-- The terms on which a routine runs. -/
structure Terms (σ Q : Type) (A : Q → Type) where
  /-- How the routine itself may change the state. -/
  own : σ → σ → Prop
  /-- How the others may change it while the routine pauses. -/
  others : σ → σ → Prop
  /-- Which answers a question may get. -/
  answer : (q : Q) → A q → Prop
  /-- Which numbers the routines that it starts may get. -/
  number : Nat → Prop

/-- The first terms allow nothing that the second ones do not. -/
structure Terms.Within {σ Q : Type} {A : Q → Type} (T T' : Terms σ Q A) : Prop where
  own : ∀ s t, T.own s t → T'.own s t
  others : ∀ s t, T.others s t → T'.others s t
  answer : ∀ q a, T.answer q a → T'.answer q a
  number : ∀ n, T.number n → T'.number n

namespace Routine

variable {σ Q : Type} {A : Q → Type} {α β : Type} {T : Terms σ Q A}

/-- The routine, begun in a state, can end with a result and leave another state. -/
def Ends (T : Terms σ Q A) {α : Type} : Routine σ Q A α → σ → α → σ → Prop
  | .done a, s, b, t => a = b ∧ s = t
  | .step change next, s, b, t => T.own s (change s) ∧ (next s).Ends T (change s) b t
  | .ask q next, s, b, t => ∃ a s', T.answer q a ∧ T.others s s' ∧ (next a).Ends T s' b t
  | .wait _ until_ next, s, b, t =>
    ∃ w s', T.others s s' ∧ (w = .ready → until_ s' = true) ∧ (next w).Ends T s' b t
  | .spawn _ next, s, b, t => ∃ n, T.number n ∧ (next n).Ends T s b t

/-- The routine, begun in a state, can come to put a question in another state. -/
def Puts (T : Terms σ Q A) {α : Type} : Routine σ Q A α → σ → Q → σ → Prop
  | .done _, _, _, _ => False
  | .step change next, s, q, t => T.own s (change s) ∧ (next s).Puts T (change s) q t
  | .ask p next, s, q, t =>
    (p = q ∧ s = t) ∨ ∃ a s', T.answer p a ∧ T.others s s' ∧ (next a).Puts T s' q t
  | .wait _ until_ next, s, q, t =>
    ∃ w s', T.others s s' ∧ (w = .ready → until_ s' = true) ∧ (next w).Puts T s' q t
  | .spawn _ next, s, q, t => ∃ n, T.number n ∧ (next n).Puts T s q t

/-! ## Walks through the parts -/

@[simp] lemma ends_done {a b : α} {s t : σ} :
    (done a : Routine σ Q A α).Ends T s b t ↔ a = b ∧ s = t := Iff.rfl

@[simp] lemma puts_done {a : α} {s t : σ} {q : Q} :
    ¬ (done a : Routine σ Q A α).Puts T s q t := id

/-- A walk through two routines in a row passes from the end of the first to the second. -/
theorem ends_bind {x : Routine σ Q A α} {f : α → Routine σ Q A β} {s t : σ} {b : β} :
    (x.bind f).Ends T s b t ↔ ∃ a s', x.Ends T s a s' ∧ (f a).Ends T s' b t := by
  induction x generalizing s with
  | done a =>
    constructor
    · intro h
      exact ⟨a, s, ⟨rfl, rfl⟩, h⟩
    · rintro ⟨_, _, ⟨rfl, rfl⟩, h⟩
      exact h
  | step change next ih => simp [bind, Ends, ih]; grind
  | ask q next ih => simp [bind, Ends, ih]; grind
  | wait turns until_ next ih => simp [bind, Ends, ih]; grind
  | spawn child next _ ih => simp [bind, Ends, ih]; grind

/-- A question that two routines in a row put is put by the first, or by the second after the end
of the first. -/
theorem puts_bind {x : Routine σ Q A α} {f : α → Routine σ Q A β} {s t : σ} {q : Q} :
    (x.bind f).Puts T s q t ↔ x.Puts T s q t ∨ ∃ a s', x.Ends T s a s' ∧ (f a).Puts T s' q t := by
  induction x generalizing s with
  | done a =>
    constructor
    · intro h
      exact Or.inr ⟨a, s, ⟨rfl, rfl⟩, h⟩
    · rintro (h | ⟨_, _, ⟨rfl, rfl⟩, h⟩)
      · exact h.elim
      · exact h
  | step change next ih => simp [bind, Puts, Ends, ih]; grind
  | ask p next ih => simp [bind, Puts, Ends, ih]; grind
  | wait turns until_ next ih => simp [bind, Puts, Ends, ih]; grind
  | spawn child next _ ih => simp [bind, Puts, Ends, ih]; grind

/-! ## Parts of a walk -/

/-- A walk through the routine, begun in a state, can come to the point where another routine is
what is left of it. -/
inductive Leads (T : Terms σ Q A) {α : Type} :
    Routine σ Q A α → σ → Routine σ Q A α → σ → Prop
  | here {x : Routine σ Q A α} {s : σ} : Leads T x s x s
  | step {change : σ → σ} {next : σ → Routine σ Q A α} {y : Routine σ Q A α} {s t : σ} :
      T.own s (change s) → Leads T (next s) (change s) y t → Leads T (.step change next) s y t
  | ask {q : Q} {a : A q} {next : A q → Routine σ Q A α} {y : Routine σ Q A α} {s s' t : σ} :
      T.answer q a → T.others s s' → Leads T (next a) s' y t → Leads T (.ask q next) s y t
  | wait {turns : Nat} {until_ : σ → Bool} {w : Wake} {next : Wake → Routine σ Q A α}
      {y : Routine σ Q A α} {s s' t : σ} :
      T.others s s' → (w = .ready → until_ s' = true) → Leads T (next w) s' y t →
        Leads T (.wait turns until_ next) s y t
  | spawn {child : Routine σ Q A Unit} {n : Nat} {next : Nat → Routine σ Q A α}
      {y : Routine σ Q A α} {s t : σ} :
      T.number n → Leads T (next n) s y t → Leads T (.spawn child next) s y t

namespace Leads

variable {T' : Terms σ Q A} {x y z : Routine σ Q A α} {s t u : σ}

theorem trans (h : Leads T x s y t) (h' : Leads T y t z u) : Leads T x s z u := by
  induction h with
  | here => exact h'
  | step ho _ ih => exact .step ho (ih h')
  | ask ha ho _ ih => exact .ask ha ho (ih h')
  | wait ho hu _ ih => exact .wait ho hu (ih h')
  | spawn hn _ ih => exact .spawn hn (ih h')

theorem mono (h : Leads T x s y t) (hT : T.Within T') : Leads T' x s y t := by
  induction h with
  | here => exact .here
  | step ho _ ih => exact .step (hT.own _ _ ho) ih
  | ask ha ho _ ih => exact .ask (hT.answer _ _ ha) (hT.others _ _ ho) ih
  | wait ho hu _ ih => exact .wait (hT.others _ _ ho) hu ih
  | spawn hn _ ih => exact .spawn (hT.number _ hn) ih

theorem bind (h : Leads T x s y t) (f : α → Routine σ Q A β) :
    Leads T (x.bind f) s (y.bind f) t := by
  induction h with
  | here => exact .here
  | step ho _ ih => exact .step ho ih
  | ask ha ho _ ih => exact .ask ha ho ih
  | wait ho hu _ ih => exact .wait ho hu ih
  | spawn hn _ ih => exact .spawn hn ih

/-- What the rest of a walk ends with, the whole walk ends with. -/
theorem ends {a : α} (h : Leads T x s y t) (hy : y.Ends T t a u) : x.Ends T s a u := by
  induction h with
  | here => exact hy
  | step ho _ ih => exact ⟨ho, ih hy⟩
  | ask ha ho _ ih => exact ⟨_, _, ha, ho, ih hy⟩
  | wait ho hu _ ih => exact ⟨_, _, ho, hu, ih hy⟩
  | spawn hn _ ih => exact ⟨_, hn, ih hy⟩

/-- What the rest of a walk asks, the whole walk asks. -/
theorem puts {q : Q} (h : Leads T x s y t) (hy : y.Puts T t q u) : x.Puts T s q u := by
  induction h with
  | here => exact hy
  | step ho _ ih => exact ⟨ho, ih hy⟩
  | ask ha ho _ ih => exact Or.inr ⟨_, _, ha, ho, ih hy⟩
  | wait ho hu _ ih => exact ⟨_, _, ho, hu, ih hy⟩
  | spawn hn _ ih => exact ⟨_, hn, ih hy⟩

/-- A walk that ends leads to its end. -/
theorem of_ends {a : α} (h : x.Ends T s a t) : Leads T x s (.done a) t := by
  induction x generalizing s with
  | done b =>
    obtain ⟨rfl, rfl⟩ := h
    exact .here
  | step change next ih => exact .step h.1 (ih s h.2)
  | ask q next ih =>
    obtain ⟨a, s', ha, ho, h⟩ := h
    exact .ask ha ho (ih a h)
  | wait turns until_ next ih =>
    obtain ⟨w, s', ho, hu, h⟩ := h
    exact .wait ho hu (ih w h)
  | spawn child next _ ih =>
    obtain ⟨n, hn, h⟩ := h
    exact .spawn hn (ih n h)

/-- After the end of a first routine a walk goes on with the second. -/
theorem bind_of_ends {a : α} {f : α → Routine σ Q A β} {w : Routine σ Q A β}
    (h : x.Ends T s a t) (hf : Leads T (f a) t w u) : Leads T (x.bind f) s w u :=
  ((of_ends h).bind f).trans hf

end Leads

/-- On terms that allow more a routine ends in the same ways, and maybe in others. -/
theorem ends_mono {T' : Terms σ Q A} {x : Routine σ Q A α} {s t : σ} {a : α} (h : x.Ends T s a t)
    (hT : T.Within T') : x.Ends T' s a t :=
  ((Leads.of_ends h).mono hT).ends ⟨rfl, rfl⟩

end Routine

end SourceBundle
