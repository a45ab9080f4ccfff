/-
# Crowds in a world

A world answers the questions of a crowd in the order in which they come, and remembers what has
been written.  So a crowd can be played in a world: the only choice is whose turn comes next.
-/
import SourceBundle.Proofs.Routine.Turns
import SourceBundle.Scenario.Collaborators

namespace SourceBundle

variable {R P : Type}

/-- The world after the questions that have been answered. -/
def Scenario.World.after (w : Scenario.World) :
    List (Event Question Question.Answer R P) → Scenario.World
  | [] => w
  | .answered _ q _ :: h => (reply (w.after h) q).2
  | _ :: h => w.after h

/-- How the world answers in view of what has happened. -/
def Scenario.World.answer (w : Scenario.World) (h : List (Event Question Question.Answer R P))
    (q : Question) : q.Answer := (reply (w.after h) q).1

/-- What is left of a crowd in a world when those at the given positions have taken their turns. -/
def Crowd.play (w : Scenario.World) (ns : List Nat)
    (c : Crowd Service Question Question.Answer R P) :
    Option (Crowd Service Question Question.Answer R P) := Crowd.turnsAt w.answer c ns

lemma Crowd.Reachable.play {work : R → Work P} {s : Service} {w : Scenario.World} {ns : List Nat}
    {c c' : Crowd Service Question Question.Answer R P} (hr : Crowd.Reachable work s c)
    (h : c.play w ns = some c') : Crowd.Reachable work s c' :=
  hr.turns (turns_of_turnsAt h)

end SourceBundle
