/-
# Routines that can be interrupted

A routine computes on a state that it shares with other routines.  Between two pauses it runs
undisturbed; it pauses when it asks a collaborator for something, when it waits for the state to
reach a condition, and while it waits it can be cancelled.  It can also start other routines, which
run beside it.

A routine is a tree of such actions, so that every way of interleaving several of them, with every
answer of the collaborators, is a walk through their trees.
-/

namespace SourceBundle

/-- How a pause ends. -/
inductive Wake
  /-- What was waited for has come about. -/
  | ready
  /-- The routine is cancelled. -/
  | cancelled
deriving DecidableEq, Repr

/-- A routine on a shared state `σ` that may put questions `q` with answers `A q`. -/
inductive Routine (σ Q : Type) (A : Q → Type) : Type → Type 1
  /-- The routine is finished. -/
  | done {α : Type} (a : α) : Routine σ Q A α
  /-- Change the state, and go on with what it was before. -/
  | step {α : Type} (change : σ → σ) (next : σ → Routine σ Q A α) : Routine σ Q A α
  /-- Put a question, and go on with the answer. -/
  | ask {α : Type} (q : Q) (next : A q → Routine σ Q A α) : Routine σ Q A α
  /-- Wait for a condition on the state.  It is noticed `turns` turns after it has come about. -/
  | wait {α : Type} (turns : Nat) (until_ : σ → Bool) (next : Wake → Routine σ Q A α) :
      Routine σ Q A α
  /-- Start another routine, and go on with the number that it gets. -/
  | spawn {α : Type} (child : Routine σ Q A Unit) (next : Nat → Routine σ Q A α) :
      Routine σ Q A α

namespace Routine

variable {σ Q : Type} {A : Q → Type} {α β : Type}

/-- Run a second routine with the result of a first one. -/
def bind : Routine σ Q A α → (α → Routine σ Q A β) → Routine σ Q A β
  | done a, f => f a
  | step change next, f => step change fun s => (next s).bind f
  | ask q next, f => ask q fun a => (next a).bind f
  | wait turns until_ next, f => wait turns until_ fun w => (next w).bind f
  | spawn child next, f => spawn child fun n => (next n).bind f

instance : Monad (Routine σ Q A) where
  pure := done
  bind := bind

@[simp] theorem pure_eq (a : α) : (pure a : Routine σ Q A α) = done a := rfl

@[simp] theorem bind_eq (x : Routine σ Q A α) (f : α → Routine σ Q A β) : x >>= f = x.bind f := rfl

theorem bind_done (x : Routine σ Q A α) : x.bind done = x := by
  induction x with
  | done a => rfl
  | step change next ih => simp only [bind]; congr; funext s; exact ih s
  | ask q next ih => simp only [bind]; congr; funext a; exact ih a
  | wait turns until_ next ih => simp only [bind]; congr; funext w; exact ih w
  | spawn child next _ ih => simp only [bind]; congr; funext n; exact ih n

theorem bind_assoc {γ : Type} (x : Routine σ Q A α) (f : α → Routine σ Q A β)
    (g : β → Routine σ Q A γ) : (x.bind f).bind g = x.bind fun a => (f a).bind g := by
  induction x with
  | done a => rfl
  | step change next ih => simp only [bind]; congr; funext s; exact ih s f
  | ask q next ih => simp only [bind]; congr; funext a; exact ih a f
  | wait turns until_ next ih => simp only [bind]; congr; funext w; exact ih w f
  | spawn child next _ ih => simp only [bind]; congr; funext n; exact ih n f

instance : LawfulMonad (Routine σ Q A) :=
  LawfulMonad.mk' (Routine σ Q A) bind_done (fun _ _ => rfl) bind_assoc

/-- The state. -/
def get : Routine σ Q A σ := step id done

/-- A part of the state. -/
def gets (f : σ → α) : Routine σ Q A α := step id fun s => done (f s)

/-- Change the state. -/
def modify (f : σ → σ) : Routine σ Q A Unit := step f fun _ => done ()

/-- Change the state and go on with a result that depends on what it was. -/
def modifyGet (f : σ → α × σ) : Routine σ Q A α := step (fun s => (f s).2) fun s => done (f s).1

/-- Put a question. -/
def put (q : Q) : Routine σ Q A (A q) := ask q done

/-- Wait for a condition on the state. -/
def await (turns : Nat) (until_ : σ → Bool) : Routine σ Q A Wake := wait turns until_ done

/-- Start another routine. -/
def start (child : Routine σ Q A Unit) : Routine σ Q A Nat := spawn child done

/-- Let a routine work on a part of a larger state, and answer its questions by routines. -/
def embed {τ P : Type} {B : P → Type} (view : τ → σ) (change : (σ → σ) → τ → τ)
    (serve : (q : Q) → Routine τ P B (A q)) {α : Type} : Routine σ Q A α → Routine τ P B α
  | done a => done a
  | step f next => step (change f) fun t => (next (view t)).embed view change serve
  | ask q next => (serve q).bind fun a => (next a).embed view change serve
  | wait turns until_ next =>
    wait turns (fun t => until_ (view t)) fun w => (next w).embed view change serve
  | spawn child next =>
    spawn (child.embed view change serve) fun n => (next n).embed view change serve

end Routine

/-! ## Routines that fail and keep notes of their own -/

/-- A routine that may fail. -/
abbrev Attempt (σ Q : Type) (A : Q → Type) (ε : Type) := ExceptT ε (Routine σ Q A)

/-- A routine that keeps a private state, also when it fails. -/
abbrev Run (σ Q : Type) (A : Q → Type) (ε ρ : Type) := ExceptT ε (StateT ρ (Routine σ Q A))

namespace Run

variable {σ Q : Type} {A : Q → Type} {ε ρ τ α : Type}

/-- Let an attempt be part of a run. -/
def lift (x : Attempt σ Q A ε α) : Run σ Q A ε ρ α :=
  ExceptT.mk fun s => x.run.bind fun r => .done (r, s)

/-- Let a run on a part of the private state be part of a run on the whole. -/
def zoom (view : ρ → τ) (set : τ → ρ → ρ) (x : Run σ Q A ε τ α) : Run σ Q A ε ρ α :=
  ExceptT.mk fun s => (x.run (view s)).bind fun (r, t) => .done (r, set t s)

/-- Begin a run with a private state; the result comes with the state at its end. -/
def begin (x : Run σ Q A ε ρ α) (s : ρ) : Routine σ Q A (Except ε α × ρ) := x.run s

end Run

end SourceBundle
