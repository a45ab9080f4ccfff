/-
# The network of the client

What the client of the registry exchanges with the world: requests on connections that it opened or
was given, with the replies that they get, and the delays between them.  The replies are laid down
beforehand.
-/
import SourceBundle.Fault.Basic
import SourceBundle.Journal

namespace SourceBundle.Registry

/-- What comes of a request. -/
inductive Reply
  /-- An answer with a status and a body. -/
  | answered (status : Int) (body : List UInt8)
  /-- No answer in time. -/
  | timedOut
  /-- A failure of the connection. -/
  | broken (reason : String)
deriving DecidableEq, Repr

/-- A connection. -/
inductive Connection
  /-- The one that the client was given. -/
  | given
  /-- The one that the client opened after so many others. -/
  | own (number : Nat)
deriving DecidableEq, Repr

/-- A request. -/
structure Request where
  /-- The connection that it was made on. -/
  connection : Connection
  /-- The address. -/
  address : String
  /-- The fields of its head, if any are given. -/
  headers? : Option (List (String × String))
deriving DecidableEq, Repr

/-- What happens on the network. -/
inductive Event
  /-- The client has opened a connection. -/
  | opened (c : Connection)
  /-- The client has closed a connection. -/
  | closed (c : Connection)
  /-- A request has been made. -/
  | requested (r : Request)
  /-- The client has waited for so many seconds. -/
  | delayed (seconds : Float)

namespace Event

/-- The connection that is opened. -/
def opened? : Event → Option Connection
  | .opened c => some c
  | _ => none

/-- The connection that is closed. -/
def closed? : Event → Option Connection
  | .closed c => some c
  | _ => none

/-- The request that is made. -/
def request? : Event → Option Request
  | .requested r => some r
  | _ => none

/-- How long the client waits. -/
def delay? : Event → Option Float
  | .delayed seconds => some seconds
  | _ => none

end Event

/-- What has been exchanged. -/
structure Network where
  /-- The replies that are still to come. -/
  replies : List Reply
  /-- What has happened so far, oldest first. -/
  events : List Event := []
  /-- The records, newest first. -/
  journal : List LogRecord := []

namespace Network

/-- The connections that the client has opened, oldest first. -/
def opened (n : Network) : List Connection := n.events.filterMap Event.opened?

/-- The connections that the client has closed, oldest first. -/
def closed (n : Network) : List Connection := n.events.filterMap Event.closed?

/-- The requests so far, oldest first. -/
def requests (n : Network) : List Request := n.events.filterMap Event.request?

/-- The delays so far, oldest first. -/
def delays (n : Network) : List Float := n.events.filterMap Event.delay?

/-- What comes of a request when no more replies are laid down. -/
def silence : Reply := .broken "no more responses"

/-- Note what happens. -/
def note (n : Network) (e : Event) : Network := { n with events := n.events ++ [e] }

/-- Make a request. -/
def request (n : Network) (r : Request) : Reply × Network :=
  (n.replies.headD silence, { n.note (.requested r) with replies := n.replies.drop 1 })

/-- Open a connection. -/
def connect (n : Network) : Connection × Network :=
  let c : Connection := .own n.opened.length
  (c, n.note (.opened c))

/-- Close a connection. -/
def close (n : Network) (c : Connection) : Network := n.note (.closed c)

/-- Wait. -/
def delay (n : Network) (seconds : Float) : Network := n.note (.delayed seconds)

/-- The requests that were made on a connection. -/
def requestsOn (n : Network) (c : Connection) : List Request :=
  n.requests.filter fun r => r.connection == c

/-- The requests by their connections: those that the client opened, and then the given one. -/
def requestsByConnection (n : Network) : List Request :=
  (n.opened.flatMap n.requestsOn) ++ n.requestsOn .given

end Network

end SourceBundle.Registry
