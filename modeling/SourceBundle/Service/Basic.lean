/-
# The service

The state that all requests share, and the questions that they put to the collaborators: the
workspace, the registry and the compiler.  A request is a routine on this state; each question is
a point at which other requests can go on.
-/
import SourceBundle.Bundle.Context
import SourceBundle.Compile.Diagnostic
import SourceBundle.Import.Remapping
import SourceBundle.Journal
import SourceBundle.Resolve.Basic
import SourceBundle.Routine.Basic

namespace SourceBundle

/-- A permit by which a run outside the compile requests can be stopped. -/
structure Permit where
  /-- Whether it has been revoked. -/
  revoked : Bool := false
  /-- How often it may still be shown, if that is limited. -/
  checks? : Option Nat := none
deriving DecidableEq, Repr

/-- Show a permit: whether it is valid, and what is left of it. -/
def Permit.show (p : Permit) : Bool × Permit :=
  match p.checks? with
  | none => (!p.revoked, p)
  | some n => (!p.revoked && n != 0, { p with checks? := some (n - 1) })

/-- The state that all requests share. -/
structure Service where
  /-- The settings. -/
  settings : Settings
  /-- The cache of packages. -/
  cache : Cache := {}
  /-- The resolution index. -/
  index : Index
  /-- The number of the newest request for every target. -/
  generations : Table String Nat := ∅
  /-- How often the workspace has been switched. -/
  epoch : Nat := 0
  /-- The permit. -/
  permit : Permit := {}
  /-- The packages that each builder has written to the workspace. -/
  shelves : List (List PackageKey) := [[]]
  /-- The builder of new compile requests. -/
  builder : Nat := 0
  /-- What routines that were started for a common purpose have delivered, by the package that was
  asked for and the number of the delivery. -/
  delivered : List ((PackageKey × Nat) × Except Fault Node) := []
  /-- The number of deliveries asked for. -/
  deliveries : Nat := 0
  /-- The records, newest first. -/
  journal : List LogRecord := []

/-- A question to a collaborator. -/
inductive Question
  /-- Whether there is a file or directory. -/
  | probe (path : String)
  /-- The content of a file. -/
  | read (path : String)
  /-- To write a file. -/
  | write (path content : String)
  /-- To create a directory. -/
  | mkdir (path : String)
  /-- The published versions of a package. -/
  | versions (name : String)
  /-- The files of a version of a package. -/
  | files (name version : String)
  /-- To compile a bundle. -/
  | compile (sources : Bundle) (target : String) (context : Context)

/-- What a question is answered with when nothing fails. -/
def Question.Result : Question → Type
  | probe _ => Bool
  | read _ => String
  | write _ _ => Unit
  | mkdir _ => Unit
  | versions _ => List String
  | files _ _ => Table String String
  | compile _ _ _ => Compile.Verdict

/-- The answer to a question. -/
abbrev Question.Answer (q : Question) : Type := Except Fault q.Result

/-- A routine of the service. -/
abbrev Work := Routine Service Question Question.Answer

/-- A routine of the service that may fail. -/
abbrev Task := Attempt Service Question Question.Answer Fault

/-- A routine of the service with a private state. -/
abbrev Stateful (ρ : Type) := Run Service Question Question.Answer Fault ρ

namespace Work

/-- Put a question to a collaborator. -/
def put (q : Question) : Task q.Result := ExceptT.mk (Routine.put q)

/-- Whether there is a file or directory. -/
def probe (path : String) : Task Bool := put (.probe path)

/-- The content of a file. -/
def read (path : String) : Task String := put (.read path)

/-- Write a file. -/
def write (path content : String) : Task Unit := put (.write path content)

/-- Create a directory. -/
def mkdir (path : String) : Task Unit := put (.mkdir path)

/-- The published versions of a package. -/
def versions (name : String) : Task (List String) := put (.versions name)

/-- The files of a version of a package. -/
def files (name version : String) : Task (Table String String) := put (.files name version)

/-- Compile a bundle. -/
def compile (sources : Bundle) (target : String) (context : Context) : Task Compile.Verdict :=
  put (.compile sources target context)

/-- Write a record. -/
def log (r : LogRecord) : Work Unit := Routine.modify fun s => { s with journal := r :: s.journal }

/-- Write several records. -/
def logAll : List LogRecord → Work Unit
  | [] => pure ()
  | r :: rs => do
    log r
    logAll rs

/-- The settings. -/
def settings : Work Settings := Routine.gets (·.settings)

/-- Whether a run is current. -/
def isCurrent (target : String) : Standing → Work Bool
  | .always => pure true
  | .permitted => Routine.modifyGet fun s =>
    let (b, p) := s.permit.show
    (b, { s with permit := p })
  | .generation n epoch => Routine.gets fun s => s.epoch == epoch && s.generations.get? target == some n

/-- Whether a run with a given state is current. -/
def contextIsCurrent (c : Context) : Work Bool := isCurrent c.target c.standing

end Work

namespace Stateful

variable {ρ τ α : Type}

/-- Do a part of the work that does not fail. -/
def work (x : Work α) : Stateful ρ α :=
  ExceptT.mk fun s => x.bind fun a => .done (.ok a, s)

/-- Do a task. -/
def task (x : Task α) : Stateful ρ α := Run.lift x

/-- Give an outcome. -/
def outcome (e : Except Fault α) : Stateful ρ α := ExceptT.mk fun s => .done (e, s)

/-- Catch the faults that a function has an answer to. -/
def handle (x : Stateful ρ α) (h : Fault → Option (Stateful ρ α)) : Stateful ρ α :=
  tryCatch x fun f => (h f).getD (throw f)

end Stateful

/-- Catch the faults of a task that a function has an answer to. -/
def Task.handle {α : Type} (x : Task α) (h : Fault → Option (Task α)) : Task α :=
  tryCatch x fun f => (h f).getD (throw f)

/-- Do a part of the work that does not fail. -/
def Task.work {α : Type} (x : Work α) : Task α := ExceptT.mk (x.bind fun a => .done (.ok a))

end SourceBundle
