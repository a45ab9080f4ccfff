/-
# Remappings

A remapping replaces the front of an import.  Rules are written one per line, and of those whose
front an import begins with the first one applies; relative imports are never remapped.
-/
import SourceBundle.Import.Statement
import SourceBundle.Json.Reader
import SourceBundle.Fault.Parse

namespace SourceBundle.Import

open SourceBundle.Text

/-- A rule that replaces the front of an import. -/
structure Remapping where
  /-- What an import must begin with. -/
  source : String
  /-- What is put in its place. -/
  target : String
  /-- Where the rule was written. -/
  origin : String
deriving DecidableEq, Repr

namespace Remapping

/-- The import with its front replaced by a rule, if the rule applies to it. -/
def remapped? (r : Remapping) (literal : String) : Option String :=
  if r.source.isEmpty then none
  else (dropPrefix? r.source.toList literal.toList).map fun rest => r.target ++ String.ofList rest

/-- What a line of rules holds. -/
inductive Line
  /-- Nothing, or a comment. -/
  | empty
  /-- Something that is no rule, without the blanks around it. -/
  | malformed (text : String)
  /-- A rule. -/
  | rule (r : Remapping)
deriving DecidableEq, Repr

/-- Read a line: the front and its replacement around the first equals sign, neither of them
empty. -/
def Line.read (origin line : String) : Line :=
  let cs := trimChars line.toList
  if cs.isEmpty || beginsWith ['#'] cs || beginsWith ['/', '/'] cs then .empty
  else
    match cutFirst '=' cs with
    | (_, none) => .malformed (String.ofList cs)
    | (front, some back) =>
      let front := trimChars front
      let back := trimChars back
      if front.isEmpty || back.isEmpty then .malformed (String.ofList cs)
      else .rule ⟨String.ofList front, String.ofList back, origin⟩

/-- The rule of a line. -/
def Line.rule? : Line → Option Remapping
  | .rule r => some r
  | _ => none

/-- The text of a line that is no rule. -/
def Line.malformed? : Line → Option String
  | .malformed t => some t
  | _ => none

/-- The rules of a list of lines, in their order. -/
def ofLines (origin : String) (ls : List String) : List Remapping :=
  ls.filterMap fun l => (Line.read origin l).rule?

/-- The lines that are neither rules nor comments. -/
def malformedLines (origin : String) (ls : List String) : List String :=
  ls.filterMap fun l => (Line.read origin l).malformed?

/-- The lists of lines in the settings of a project: at the top level, among the settings of the
compiler, and of the compiler itself. -/
def configLists (config : Json) : List (Option Json) :=
  let compiler := (config.member? "solidity-compiler").filter fun c => c.members?.isSome
  let settings := (compiler.bind (·.member? "settings")).filter fun c => c.members?.isSome
  [config.member? "remappings", settings.bind (·.member? "remappings"),
    compiler.bind (·.member? "remappings")]

/-- The lines of a list in the settings of a project; a missing list has none. -/
def linesOfList : Option Json → Except ParseFault (List String)
  | none => .ok []
  | some .null => .ok []
  | some (.array items) => items.mapM fun i => match i.text? with
    | some t => .ok t
    | none => .error .remappings
  | some _ => .error .remappings

/-- The lines of rules in the settings of a project. -/
def linesOfConfig (config : Json) : Except ParseFault (List String) :=
  match config with
  | .object _ => do
    let ls ← (configLists config).mapM linesOfList
    pure ls.flatten
  | _ => .error (.noObject .projectConfig)

end Remapping

/-- An import remapped by the first rule that applies to it, with that rule. -/
def remap (rules : List Remapping) (literal : String) : String × Option Remapping :=
  if isRelative literal then (literal, none)
  else
    match rules.findSome? fun r => (r.remapped? literal).map fun t => (t, r) with
    | some (t, r) => (t, some r)
    | none => (literal, none)

end SourceBundle.Import
