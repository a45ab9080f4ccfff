/-
# Taking turns

Processes are routines that take turns on one state.  The processes that can go on stand in a
queue; the first one runs until it pauses, and a process whose condition has come about joins the
queue at its end.  While a process runs nothing else does.

A process that is cancelled learns of it when its turn comes; one that waits joins the queue at
once.
-/
import SourceBundle.Routine.Basic

namespace SourceBundle

/-- What a process can ask of the schedule. -/
inductive Signal
  /-- To let those in the queue go first. -/
  | yield
  /-- To cancel a process. -/
  | cancel (id : Nat)

/-- What the schedule answers. -/
def Signal.Answer : Signal → Type
  | yield => Wake
  | cancel _ => Unit

/-- A routine that takes turns with others. -/
abbrev Process (σ : Type) := Routine σ Signal Signal.Answer

/-- A process in the queue. -/
structure Queued (σ : Type) where
  /-- Its number. -/
  id : Nat
  /-- How often it still goes to the end of the queue before it runs. -/
  turns : Nat
  /-- How its pause ends. -/
  wake : Wake
  /-- The type of its result. -/
  Result : Type
  /-- How it goes on. -/
  next : Wake → Process σ Result

/-- A process that waits for a condition. -/
structure Waiter (σ : Type) where
  /-- Its number. -/
  id : Nat
  /-- After how many turns it notices the condition. -/
  turns : Nat
  /-- The condition. -/
  until_ : σ → Bool
  /-- The type of its result. -/
  Result : Type
  /-- How it goes on. -/
  next : Wake → Process σ Result

namespace Waiter

/-- A waiter in the queue. -/
def queue {σ : Type} (w : Waiter σ) (turns : Nat) (wake : Wake) : Queued σ :=
  ⟨w.id, turns, wake, w.Result, w.next⟩

end Waiter

/-- Some processes and the state that they share. -/
structure Schedule (σ : Type) where
  /-- The state. -/
  state : σ
  /-- The processes that can go on, in the order of their turns. -/
  queue : List (Queued σ) := []
  /-- The processes that wait. -/
  waiters : List (Waiter σ) := []
  /-- The number of the next process. -/
  fresh : Nat := 0

namespace Schedule

variable {σ : Type}

/-- Let the waiters whose condition has come about join the queue. -/
def notice (s : Schedule σ) : Schedule σ :=
  let (awake, asleep) := s.waiters.partition fun w => w.until_ s.state
  { s with queue := s.queue ++ awake.map fun w => w.queue w.turns .ready, waiters := asleep }

/-- Change the state. -/
def change (s : Schedule σ) (f : σ → σ) : Schedule σ := notice { s with state := f s.state }

/-- Start a process. -/
def start {α : Type} (s : Schedule σ) (p : Process σ α) : Schedule σ :=
  let begin : Wake → Process σ (Option α)
    | .ready => p.bind fun a => .done (some a)
    | .cancelled => .done none
  { s with queue := s.queue ++ [⟨s.fresh, 0, .ready, Option α, begin⟩], fresh := s.fresh + 1 }

/-- Cancel a process. -/
def cancel (s : Schedule σ) (id : Nat) : Schedule σ :=
  let (left, others) := s.waiters.partition fun w => w.id == id
  let queued := s.queue.map fun q => if q.id = id then { q with wake := .cancelled } else q
  { s with queue := queued ++ left.map fun w => w.queue 0 .cancelled, waiters := others }

/-- Run a process until it pauses or is finished. -/
def advance (id : Nat) {α : Type} : Process σ α → Schedule σ → Schedule σ
  | .done _, s => s
  | .step f next, s => advance id (next s.state) (s.change f)
  | .ask .yield next, s => { s with queue := s.queue ++ [⟨id, 0, .ready, _, next⟩] }
  | .ask (.cancel n) next, s => advance id (next ()) (s.cancel n)
  | .wait turns until_ next, s =>
    if until_ s.state then advance id (next .ready) s
    else { s with waiters := s.waiters ++ [⟨id, turns, until_, _, next⟩] }
  | .spawn child next, s => advance id (next s.fresh) (s.start child)

/-- Give the first of the queue its turn. -/
def turn (s : Schedule σ) : Schedule σ :=
  match s.queue with
  | [] => s
  | q :: rest =>
    match q.turns, q.wake with
    | n + 1, .ready => { s with queue := rest ++ [{ q with turns := n }] }
    | _, wake => advance q.id (q.next wake) { s with queue := rest }

/-- Give turns until nobody can go on, but not more than the limit. -/
def run : Nat → Schedule σ → Schedule σ
  | 0, s => s
  | limit + 1, s => if s.queue.isEmpty then s else run limit s.turn

/-- The state after a process, and all that it starts, have run. -/
def runAll {α : Type} (limit : Nat) (state : σ) (p : Process σ α) : σ :=
  (run limit (start { state := state } p)).state

end Schedule

end SourceBundle
