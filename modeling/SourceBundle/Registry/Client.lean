/-
# The client of the registry

The client asks the registry for the description of a package, which names its versions and where
their archives are, and for the archives.  A request that gets no answer, or the answer that the
registry has failed, is repeated after a delay that doubles every time.  The descriptions are kept.

The client opens a connection when it needs one, and closes those that it opened itself.
-/
import SourceBundle.Json.Reader
import SourceBundle.Registry.Network
import SourceBundle.Registry.Unpack
import SourceBundle.Text.Wide
import SourceBundle.Url.Basic
import SourceBundle.Url.Percent

namespace SourceBundle.Registry

open SourceBundle.Text

/-- The client. -/
structure Client where
  /-- The address of the registry, which ends with a slash. -/
  base : String
  /-- The time in seconds after which a request is given up. -/
  timeout : Int
  /-- The connection that it uses. -/
  connection? : Option Connection
  /-- Whether it closes the connection in the end. -/
  ownsConnection : Bool
  /-- The descriptions that it has: for every package, what is said of its versions. -/
  descriptions : Table String (List (String × Json)) := ∅

/-- A client.  An address or a time that is missing, empty or zero is that of the settings. -/
def Client.new (s : Settings) (address? : Option String) (timeout? : Option Int) (given : Bool) :
    Client :=
  { base := Settings.slashed ((address?.filter (!String.isEmpty ·)).getD s.registryUrl)
    timeout := (timeout?.filter (· != 0)).getD s.requestTimeout
    connection? := if given then some .given else none
    ownsConnection := !given }

/-- The client and what it exchanges. -/
structure Exchange where
  /-- The client. -/
  client : Client
  /-- The network. -/
  network : Network

/-- An operation of the client; a failed one leaves its traces, too. -/
abbrev Calls := ExceptT Fault (StateM Exchange)

/-- Give an outcome. -/
def outcome {α : Type} (e : Except Fault α) : Calls α := ExceptT.mk (pure e)

/-- Write a record. -/
def record (r : LogRecord) : Calls Unit :=
  modify fun x => { x with network := { x.network with journal := r :: x.network.journal } }

/-! ## Connections -/

/-- Open a connection unless there is one. -/
def start : Calls Unit :=
  modify fun x =>
    match x.client.connection? with
    | some _ => x
    | none =>
      let (c, n) := x.network.connect
      { client := { x.client with connection? := some c, ownsConnection := true }, network := n }

/-- Let go of the connection, and close it if the client owns it. -/
def stop : Calls Unit :=
  modify fun x =>
    { client := { x.client with connection? := none }
      network := match x.client.connection? with
        | some c => if x.client.ownsConnection then x.network.close c else x.network
        | none => x.network }

/-- Enter the context of the client. -/
def enter : Calls Unit := start

/-- Leave the context of the client, whatever has happened in it. -/
def leave : Calls Unit := stop

/-! ## Requests -/

/-- Make one request. -/
def send (address : String) (headers? : Option (List (String × String))) : Calls Reply :=
  modifyGet fun x =>
    let (reply, n) :=
      x.network.request ⟨x.client.connection?.getD (.own 0), address, headers?⟩
    (reply, { x with network := n })

/-- The answer that a reply is, or why the request has failed: a status from 500 on says that the
registry has failed. -/
def Reply.outcome : Reply → Except String (Int × List UInt8)
  | .answered status body => if status < 500 then .ok (status, body) else .error s!"HTTP {status}"
  | .timedOut => .error "timeout"
  | .broken reason => .error reason

/-- The delay after a failed attempt; attempts are counted from zero.  There is none when the power
of two is too large for a floating-point number. -/
def delay? (s : Settings) (attempt : Nat) : Option Float :=
  if attempt < 1024 then some (s.retryDelay * Float.ofNat (Nat.pow 2 attempt)) else none

/-- Wait before the next attempt. -/
def wait (s : Settings) (attempt : Nat) : Calls Unit :=
  match delay? s attempt with
  | none => throw .overflow
  | some d => modify fun x => { x with network := x.network.delay d }

/-- The fault of a request that has failed for the last time. -/
def exhausted (s : Settings) (shown reason : String) : Fault :=
  .registry ⟨s!"Request to {shown} failed after {s.retryMax} attempts: {reason}", none, none⟩

/-- Make a request up to so many times; `attempt` is the number of those before. -/
def tryFrom (s : Settings) (address shown : String) (headers? : Option (List (String × String))) :
    Nat → Nat → String → Calls (Int × List UInt8)
  | 0, _, reason => throw (exhausted s shown reason)
  | left + 1, attempt, _ => do
    match (← send address headers?).outcome with
    | .ok (status, body) =>
      record (.responded shown status (attempt + 1))
      pure (status, body)
    | .error reason =>
      record (.attemptFailed shown reason (attempt + 1))
      if (attempt : Int) + 1 < s.retryMax then wait s attempt
      tryFrom s address shown headers? left (attempt + 1) reason

/-- How often a request is made at most. -/
def attempts (s : Settings) : Nat := (max 1 s.retryMax).toNat

/-- Make a request, repeatedly if need be. -/
def get (s : Settings) (address : String) (headers? : Option (List (String × String))) :
    Calls (Int × List UInt8) := do
  start
  match Url.safe address with
  | .error _ => throw .badPort
  | .ok shown => tryFrom s address shown headers? (attempts s) 0 "no attempt made"

/-! ## Descriptions -/

/-- The address of the description of a package. -/
def Client.addressOf (c : Client) (name : String) : String := c.base ++ Url.escape name

/-- The form in which descriptions are asked for. -/
def accepted : List (String × String) :=
  [("Accept", "application/vnd.npm.install-v1+json; q=1.0, application/json; q=0.8, */*")]

/-- A fault of the registry that concerns a package. -/
def packageFault (name message : String) (status? : Option Int) : Fault :=
  .registry ⟨message, some name, status?⟩

/-- The fault of a body that is no description. -/
def invalidDescription (name reason : String) : Fault :=
  packageFault name s!"Invalid packument for {name}: {reason}" none

/-- What a description says of the versions of a package. -/
def versionsOf (name : String) (body : List UInt8) : Except Fault (List (String × Json)) :=
  match decodeDocument body with
  | .error reason => .error (invalidDescription name reason)
  | .ok document =>
    match Json.readUnmarked document.toList with
    | .error .numberTooLong => .error .numberTooLong
    | .error (.misfit c pos) => .error (invalidDescription name (c.describe document pos))
    | .ok d =>
      match (d.member? "versions").bind Json.members? with
      | some versions => .ok versions
      | none => .error (packageFault name s!"Packument for {name} has no versions" none)

/-- The versions of a package with what is said of them. -/
def description (s : Settings) (name : String) : Calls (List (String × Json)) := do
  let c := (← getThe Exchange).client
  match c.descriptions.get? name with
  | some versions => pure versions
  | none =>
    let (status, body) ← get s (c.addressOf name) (some accepted)
    if status = 404 then
      throw (packageFault name s!"Package not found in registry: {name}" (some 404))
    else if status ≠ 200 then
      throw (packageFault name s!"Registry returned HTTP {status} for {name}" (some status))
    else
      let versions ← outcome (versionsOf name body)
      modify fun x => { x with
        client := { x.client with descriptions := x.client.descriptions.insert name versions } }
      pure versions

/-- The published versions of a package. -/
def versions (s : Settings) (name : String) : Calls (List String) := do
  let vs ← description s name
  pure (vs.map (·.1))

/-! ## Archives -/

/-- The member of the value that says where an archive is, if there is one.  A value that is not
false in any way must be an object. -/
def archiveValue? (described : Json) : Except Fault (Option Json) :=
  match described.member? "dist" with
  | none => .ok none
  | some dist =>
    if dist.isTruthy then
      match dist.members? with
      | some _ => .ok ((dist.member? "tarball").filter Json.isTruthy)
      | none => .error .badDescription
    else .ok none

/-- The address of an archive.  When it is no text the connection has been opened in vain. -/
def archiveAddress (value : Json) : Calls String := do
  match value.text? with
  | some address => pure address
  | none => do
    start
    throw .badDescription

/-- The files that an archive holds. -/
def unpackArchive (name version : String) (body : List UInt8) : Calls (Table String String) := do
  match unpack body with
  | .error _ => throw (packageFault name s!"Corrupt tarball for {name}@{version}" none)
  | .ok u => do
    u.skipped.forM fun path => record (.notText path)
    record (.downloaded name version u.files.size)
    pure u.files

/-- The files of a version of a package. -/
def files (s : Settings) (name version : String) : Calls (Table String String) := do
  let vs ← description s name
  let unpublished := packageFault name s!"Version {version} of {name} is not published" none
  match Table.look version vs with
  | none => throw unpublished
  | some described =>
    if described.members?.isNone then throw unpublished
    else
      match ← outcome (archiveValue? described) with
      | none => throw (packageFault name s!"No tarball for {name}@{version}" none)
      | some value =>
        let address ← archiveAddress value
        let (status, body) ← get s address none
        if status ≠ 200 then
          throw (packageFault name
            s!"Tarball download for {name}@{version} returned HTTP {status}" (some status))
        else unpackArchive name version body

end SourceBundle.Registry
