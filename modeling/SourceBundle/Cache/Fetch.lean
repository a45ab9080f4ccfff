/-
# Fetching packages

A request for a package is served from the cache, waits for a fetch that is under way, or fetches
the package itself.  All who wait for one fetch end as it ends; a request that is cancelled while
it waits does not disturb the others, and one that is cancelled while it fetches ends them all.
-/
import SourceBundle.Service.Basic

namespace SourceBundle.Cache

/-- Change the cache. -/
def change (f : Cache → Cache) : Work Unit :=
  Routine.modify fun s => { s with cache := f s.cache }

/-- Wait for a fetch that is under way. -/
def join (ticket : Nat) : Task Node := ExceptT.mk do
  match ← Routine.await 1 fun s => (s.cache.outcome? ticket).isSome with
  | .cancelled => pure (.error .cancelled)
  | .ready => Routine.gets fun s => (s.cache.outcome? ticket).getD (.error .cancelled)

/-- End a fetch: record how it ended, and report it. -/
def finish (key : PackageKey) (ticket epoch : Nat) (answer : Except Fault (Table String String)) :
    Task Node := ExceptT.mk do
  let outcome := answer.map fun files => Node.mk key files
  change fun c => c.settle key ticket epoch outcome
  match outcome with
  | .ok n => Work.log (.fetched key n.files.size)
  | .error .cancelled => pure ()
  | .error f => Work.log (.fetchFailed key f.message)
  pure outcome

/-- The package with a key, fetched at most once by concurrent requests. -/
def getOrFetch (key : PackageKey) : Task Node := ExceptT.mk do
  match ← Routine.modifyGet fun s =>
      let (a, c) := s.cache.request key
      (a, { s with cache := c }) with
  | .hit n => pure (.ok n)
  | .join ticket => (join ticket).run
  | .fetch ticket epoch => do
    let answer ← (Work.files key.name key.version).run
    (finish key ticket epoch answer).run

/-- Request a package and deliver how the request ended. -/
def deliver (key : PackageKey) (delivery : Nat) : Work Unit := do
  let outcome ← (getOrFetch key).run
  Routine.modify fun s => { s with delivered := ((key, delivery), outcome) :: s.delivered }

/-- Start requests for several packages, with the numbers of their deliveries. -/
def startAll : List PackageKey → Work (List (PackageKey × Nat))
  | [] => pure []
  | key :: keys => do
    let delivery ← Routine.modifyGet fun s => (s.deliveries, { s with deliveries := s.deliveries + 1 })
    let _ ← Routine.start (deliver key delivery)
    let rest ← startAll keys
    pure ((key, delivery) :: rest)

/-- Whether all of some deliveries have come. -/
def allDelivered (deliveries : List (PackageKey × Nat)) (s : Service) : Bool :=
  deliveries.all fun d => (s.delivered.lookup d).isSome

/-- Request several packages at once, and wait for all of the requests to end. -/
def gather (keys : List PackageKey) : Task (List (Except Fault Node)) := ExceptT.mk do
  let deliveries ← startAll keys
  match ← Routine.await 1 (allDelivered deliveries) with
  | .cancelled => pure (.error .cancelled)
  | .ready =>
    Routine.gets fun s =>
      .ok (deliveries.map fun d => (s.delivered.lookup d).getD (.error .cancelled))

/-- The packages with some keys, or the fault of the first one that could not be had. -/
def fetchAll (keys : List PackageKey) : Task (List Node) :=
  match keys with
  | [] => pure []
  | keys => do
    let outcomes ← gather keys
    ExceptT.mk (pure (outcomes.mapM id))

end SourceBundle.Cache
