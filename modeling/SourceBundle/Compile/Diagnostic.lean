/-
# Diagnostics and results of a compiler

What a compiler reports about a target, in the shape that its users know, and the diagnostic that
a failed resolution becomes.
-/

namespace SourceBundle.Compile

/-- A message of a compiler. -/
structure Diagnostic where
  /-- How grave it is. -/
  severity : String
  /-- The message. -/
  message : String
  /-- The message with its surroundings. -/
  formatted : String
  /-- The kind of message. -/
  kind : String := "Error"
  /-- The part of the compiler that reports it. -/
  component : String := "general"
  /-- The file it is about. -/
  file? : Option String := none
deriving DecidableEq, Repr

/-- Whether a diagnostic is an error. -/
def Diagnostic.isError (d : Diagnostic) : Bool := d.severity == "error"

/-- The file that a diagnostic shows as its place; an empty name shows none. -/
def Diagnostic.place? (d : Diagnostic) : Option String := d.file?.filter fun f => !f.isEmpty

/-- The diagnostic of a failed resolution; failures of the workspace are told from others. -/
def Diagnostic.ofFailure (target : String) (ofWorkspace : Bool) (reason : String) : Diagnostic :=
  let kind := if ofWorkspace then "IOError" else "ResolutionError"
  let message := s!"Failed to resolve imports: {reason}"
  { severity := "error"
    message := message
    formatted := s!"{kind}: {message}\n --> {target}\n"
    kind := kind
    component := "resolver"
    file? := some target }

/-- The result of a compiler run. -/
structure Result where
  /-- Whether it succeeded. -/
  success : Bool
  /-- The names of the compiled contracts with their output. -/
  contracts : List (String × String)
  /-- The messages. -/
  diagnostics : List Diagnostic
deriving DecidableEq, Repr

/-- What a compiler answers: a result, or a single message. -/
inductive Verdict
  /-- A result. -/
  | result (r : Result)
  /-- A message in place of a result. -/
  | diagnostic (d : Diagnostic)
deriving DecidableEq, Repr

end SourceBundle.Compile
