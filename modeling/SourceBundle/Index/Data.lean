/-
# Records of the resolution index

For every source file, the files that its imports resolved to.  The records are kept in a JSON
document with sorted names; a document of another shape is rejected as a whole.
-/
import SourceBundle.Json.Reader
import SourceBundle.Json.Writer
import SourceBundle.Text.Quoted

namespace SourceBundle

open SourceBundle.Text

/-- For every source file, the file that each of its imports resolved to. -/
abbrev IndexData := Table String (Table String String)

/-- Why a document holds no records. -/
inductive IndexFault
  /-- It is no JSON. -/
  | json (reason : String)
  /-- It holds a number of more digits than are read. -/
  | numberTooLong
  /-- It is no object. -/
  | noObject
  /-- What it holds for a source file is no mapping of texts. -/
  | noMapping (source : String)
deriving DecidableEq, Repr

/-- The fault in words. -/
def IndexFault.message : IndexFault → String
  | .json reason => s!"invalid JSON: {reason}"
  | .numberTooLong => "number too long"
  | .noObject => "index root is not an object"
  | .noMapping source => "entry for " ++ quoted source ++ " is not a string mapping"

namespace IndexData

/-- The mapping that a value is, if all its members are texts. -/
def mapping? (v : Json) : Option (Table String String) := do
  let ms ← v.members?
  let es ← ms.mapM fun m => m.2.text?.map fun t => (m.1, t)
  pure (Table.ofList es)

/-- The records of an object with the given members. -/
def ofMembers (ms : List (String × Json)) : Except IndexFault IndexData := do
  let es ← ms.mapM fun m => match mapping? m.2 with
    | some t => .ok (m.1, t)
    | none => .error (IndexFault.noMapping m.1)
  pure (Table.ofList es)

/-- Read the records of a document. -/
def parse (content : String) : Except IndexFault IndexData :=
  match Json.read content with
  | .error .numberTooLong => .error .numberTooLong
  | .error (.misfit c pos) => .error (.json (c.describe content pos))
  | .ok (.object ms) => ofMembers ms
  | .ok _ => .error .noObject

/-- The document of some records. -/
def render (d : IndexData) : String :=
  String.ofList <| Json.writeObject 0 <| d.sorted.map fun (source, t) =>
    (source, Json.writeObject 1 <| t.sorted.map fun (literal, path) => (literal, Json.writeText path))

end IndexData

end SourceBundle
