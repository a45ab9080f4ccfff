/-
# Reading and writing the workspace

What the resolution does with the workspace beyond single questions: reading with one repetition,
reading a file that may be missing, and creating the directory that a file is written to.
-/
import SourceBundle.Service.Basic
import SourceBundle.Text.Cut

namespace SourceBundle.Workspace

open SourceBundle.Text

/-- Read a file, a second time if the first time fails. -/
def readTwice (path : String) : Task String :=
  (Work.read path).handle fun
    | .workspace f => some do
      Task.work (Work.log (.readRetried path f.message))
      Work.read path
    | _ => none

/-- Read a file that may be missing.  A file that is there and cannot be read is a failure of the
resolution. -/
def readOptional (path : String) : Task (Option String) :=
  Task.handle
    (do
      if ← Work.probe path then
        let content ← readTwice path
        pure (some content)
      else pure none)
    fun
    | .workspace f => some (throw (.resolution (.unreadableSource path f)))
    | _ => none

/-- The directory of a file: all before the last slash. -/
def directoryOf? (path : String) : Option String :=
  match cutLast? '/' path.toList with
  | some (c :: head, _) => some (String.ofList (c :: head))
  | _ => none

/-- Create the directory of a file unless it is there. -/
def ensureDirectory (path : String) : Task Unit :=
  match directoryOf? path with
  | none => pure ()
  | some dir => do
    if !(← Work.probe dir) then Work.mkdir dir

end SourceBundle.Workspace
