/-
# Running scenarios

The steps of a scenario are performed one after the other, each with the answers of the steps that
were inserted while it was performed.
-/
import SourceBundle.Scenario.Perform

namespace SourceBundle.Scenario

/-- Perform the steps that are inserted at a call, and keep their answers. -/
def insertSteps (respond : Responder) : List Step → Act Unit
  | [] => pure ()
  | s :: ss => do
    let a ← (perform respond s).run
    Routine.modify fun w => { w with cued := a :: w.cued }
    insertSteps respond ss

/-- How questions are answered when steps can be inserted within inserted steps up to a depth. -/
def responder : Nat → Responder
  | 0 => respond fun _ => pure ()
  | depth + 1 => respond (insertSteps (responder depth))

/-- Perform the steps of a scenario, and keep their answers. -/
def performAll (r : Responder) : List Step → Act Unit
  | [] => pure ()
  | s :: ss => do
    let a ← (perform r s).run
    Routine.modify fun w => { w with answers := (a, w.cued.reverse) :: w.answers, cued := [] }
    performAll r ss

/-! ## Limits -/

/-- The sum of some numbers. -/
def total (ns : List Nat) : Nat := ns.foldl (· + ·) 0

/-- The length of some texts. -/
def sizeOfTexts (texts : List String) : Nat := texts.foldl (fun n t => n + t.length + 1) 0

/-- The length of the texts of a table. -/
def sizeOfTable (t : Table String String) : Nat := sizeOfTexts (t.keys ++ t.values)

/-- The length of the texts that a step brings into the world. -/
def Step.size : Step → Nat
  | .write path content => sizeOfTexts [path, content]
  | .publish name version files => sizeOfTexts [name, version] + sizeOfTable files
  | .build entry content _ _ => sizeOfTexts [entry, content]
  | .compile job => sizeOfTable job.sources
  | .compileAll jobs => total (jobs.map fun j => sizeOfTable j.sources)
  | .gather keys => keys.length
  | .loadIndex times => times
  | .saveIndex times => times
  | _ => 1

/-- The length of the contents of a workspace. -/
def sizeOfStore (s : Workspace.Store) : Nat :=
  total <| s.files.map fun (p, c) => p.length + 1 + match c with
    | .text t => t.length
    | .bytes bs => bs.length

/-- The length of the texts that a scenario begins with. -/
def Setting.size (s : Setting) : Nat :=
  sizeOfStore s.store +
    total (s.catalog.values.map fun versions =>
      total (versions.values.map sizeOfTable) + versions.size) +
    total (s.cues.map fun c => total (c.steps.map Step.size) + 1) +
    total ((s.remappings?.getD []).map fun r => sizeOfTexts [r.source, r.target])

/-- The most levels of a traversal.  Every level but the first adds a file that no level had before;
each of them is a file of the workspace or of a package, under one of the names that the imports
in their texts give it. -/
def levelLimit (size : Nat) : Nat := 8 * size + 64

/-- The most turns of a scenario: more than all levels of all steps can take. -/
def turnLimit (size : Nat) : Nat := Nat.pow (size + 64) 3

/-! ## Runs -/

/-- The world that a scenario begins in, with given settings.  The first shelf is that of the builder
outside compile requests, the second one that of the first compile requests. -/
def Setting.world (s : Setting) (settings : Settings) (budget : Nat) : World where
  service :=
    { settings := settings
      index := { path := (s.indexPath?.filter (!String.isEmpty ·)).getD settings.indexFile }
      shelves := [[], []]
      builder := 1 }
  store := s.store
  catalog := s.catalog
  failures := s.failures
  cues := s.cues
  builder := ⟨0, s.remappings?, s.usesIndex⟩
  budget := budget

/-- The world after some steps. -/
def Setting.run (s : Setting) (settings : Settings) (steps : List Step) : World :=
  let size := s.size + total (steps.map Step.size)
  let world := s.world settings (levelLimit size)
  Schedule.runAll (turnLimit size) world (performAll (responder s.cues.length) steps)

end SourceBundle.Scenario
