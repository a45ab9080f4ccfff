/-
# Working with the client

A sequence of operations of the client, with what each of them gives and what it has exchanged by
then.
-/
import SourceBundle.Registry.Client

namespace SourceBundle.Registry

/-- An operation of the client. -/
inductive Operation
  /-- Tell the address of the description of a package. -/
  | address (name : String)
  /-- List the versions of a package. -/
  | versions (name : String)
  /-- Download the files of a version of a package. -/
  | files (name version : String)
  /-- Make a request. -/
  | get (address : String) (headers? : Option (List (String × String)))
  /-- Open the connection. -/
  | start
  /-- Let go of the connection. -/
  | stop
  /-- Enter the context of the client. -/
  | enter
  /-- Leave the context of the client. -/
  | leave
  /-- Enter the context of the client, and leave it. -/
  | visit

/-- What an operation gives. -/
inductive Gain
  /-- Nothing. -/
  | nothing
  /-- That all went well. -/
  | done
  /-- A text. -/
  | text (s : String)
  /-- Versions. -/
  | versions (vs : List String)
  /-- The files of a package. -/
  | files (t : Table String String)
  /-- The status and the body of an answer. -/
  | answer (status : Int) (body : List UInt8)

/-- What is seen after an operation. -/
structure Progress where
  /-- What the operation gave. -/
  result : Except Fault Gain
  /-- The delays during the operation. -/
  delays : List Float
  /-- The number of requests so far. -/
  requests : Nat
  /-- The number of connections opened so far. -/
  opened : Nat
  /-- The number of connections closed so far. -/
  closed : Nat

/-- Perform an operation. -/
def perform (s : Settings) : Operation → Calls Gain
  | .address name => do return .text ((← getThe Exchange).client.addressOf name)
  | .versions name => do return .versions (← Registry.versions s name)
  | .files name version => do return .files (← Registry.files s name version)
  | .get address headers? => do
    let (status, body) ← Registry.get s address headers?
    pure (.answer status body)
  | .start => do
    Registry.start
    pure .nothing
  | .stop => do
    Registry.stop
    pure .nothing
  | .enter => do
    Registry.enter
    pure .done
  | .leave => do
    Registry.leave
    pure .nothing
  | .visit => do
    Registry.enter
    Registry.leave
    pure .done

/-- Perform operations one after the other; the exchange at the end comes with what was seen. -/
def performAll (s : Settings) : List Operation → Exchange → List Progress × Exchange
  | [], x => ([], x)
  | o :: os, x =>
    let (result, y) := (perform s o).run.run x
    let n := y.network
    let seen : Progress :=
      { result := result
        delays := n.delays.drop x.network.delays.length
        requests := n.requests.length
        opened := n.opened.length
        closed := n.closed.length }
    let (rest, z) := performAll s os y
    (seen :: rest, z)

end SourceBundle.Registry
