/-
# Single flight

Callers request packages from the cache at any time, drop a package or all of them, and are
cancelled at any pause; the registry answers their fetches in any order and with any result.  In
whatever order all this happens, at most one fetch of a package is under way, what the cache holds
was fetched since it was last cleared, and the calls that join a fetch end as it ends.

The pauses of a call are few: it fetches, or it waits for the fetch of another call.  So a crowd of
callers is pictured by the list of those who pause, the cache, and the history, and everything is
read off the moves that this picture can make.
-/
import SourceBundle.Proofs.Cache.Gather
import SourceBundle.Proofs.Service.Play

namespace SourceBundle.Cache

open Crowd

/-! ## Callers -/

/-- What a caller wants of the cache. -/
inductive Demand
  /-- A package. -/
  | get (key : PackageKey)
  /-- That a package is dropped. -/
  | invalidate (key : PackageKey)
  /-- That all packages are dropped. -/
  | clear
deriving DecidableEq

/-- Whether a package is wanted. -/
def Demand.isGet : Demand → Bool
  | .get _ => true
  | _ => false

/-- What a caller gets: the outcome of a request for a package. -/
abbrev Handed := Option (Except Fault Node)

/-- What is done for a caller. -/
def Demand.work : Demand → Work Handed
  | .get key => (getOrFetch key).run.bind fun r => .done (some r)
  | .invalidate key => (change fun c => c.invalidate key).bind fun _ => .done none
  | .clear => (change Cache.clear).bind fun _ => .done none

/-- Callers beside each other. -/
abbrev Callers := Users Demand Handed

/-- What can be noticed of callers. -/
abbrev Happening := Event Question Question.Answer Demand Handed

/-- Whether a routine waits for the registry to answer with the files of a package. -/
def asksFor {P : Type} (key : PackageKey) (p : Paused Service Question Question.Answer P) : Bool :=
  match p.rest with
  | .ask (.files name version) _ => decide (PackageKey.mk name version = key)
  | _ => false

/-- A call got the files of a package from the registry, which it asked for them after the cache
had been cleared for the last time. -/
def Brought (h : List Happening) (id : Nat) (key : PackageKey) (files : Table String String) :
    Prop :=
  ∃ after before, h = after ++ .put id (.files key.name key.version) :: before ∧
    .answered id (.files key.name key.version) (.ok files) ∈ after ∧
    ∀ id', .begun id' .clear ∉ after

/-- Whether an event is the beginning of a request for a package. -/
def isGet : Happening → Bool
  | .begun _ d => d.isGet
  | _ => false

/-- What can happen to callers while only some of them may be cancelled.  A fetch that is cancelled
is answered so, and that may happen to all of them. -/
inductive StepSparing (cancellable : Nat → Prop) : Callers → Callers → Prop
  /-- A call comes. -/
  | call (c : Callers) (d : Demand) : StepSparing cancellable c (c.call Demand.work d)
  /-- A question is answered. -/
  | answer {c : Callers} {front back : List (Paused Service Question Question.Answer Handed)}
      {id : Nat} {α : Type} {q : Question} {next : Question.Answer q → Work α}
      {report : α → Option Handed} (a : Question.Answer q) :
    c.paused = front ++ ⟨id, α, .ask q next, report⟩ :: back →
    StepSparing cancellable c (run id report (next a)
      { c with paused := front ++ back, history := .answered id q a :: c.history })
  /-- A call stops waiting, if it is cancelled one that may be. -/
  | wake {c : Callers} {front back : List (Paused Service Question Question.Answer Handed)}
      {id : Nat} {α : Type} {turns : Nat} {until_ : Service → Bool} {next : Wake → Work α}
      {report : α → Option Handed} (w : Wake) :
    c.paused = front ++ ⟨id, α, .wait turns until_ next, report⟩ :: back →
    (w = .ready → until_ c.state = true) → (w = .cancelled → cancellable id) →
    StepSparing cancellable c (run id report (next w) { c with paused := front ++ back })

lemma StepSparing.of_step {c c' : Callers} (h : Step Demand.work c c') :
    StepSparing (fun _ => True) c c' := by
  cases h with
  | call d => exact .call c d
  | answer a hp => exact .answer a hp
  | wake w hp hu => exact .wake w hp hu fun _ => trivial

/-! ## The picture of a crowd of callers -/

/-- A caller that pauses. -/
inductive Caller
  /-- One that fetches a package, with the number of the fetch, and how often the cache had been
  cleared. -/
  | fetcher (id : Nat) (key : PackageKey) (ticket epoch : Nat)
  /-- One that waits for a fetch. -/
  | joiner (id ticket : Nat)

namespace Caller

/-- The number of its call. -/
def number : Caller → Nat
  | fetcher id _ _ _ => id
  | joiner id _ => id

/-- The package that it is fetching, and the number of the fetch. -/
def flight? : Caller → Option (PackageKey × Nat)
  | fetcher _ key ticket _ => some (key, ticket)
  | joiner _ _ => none

/-- How it goes on. -/
def rest : Caller → Work Handed
  | fetcher _ key ticket epoch => .ask (.files key.name key.version) fun a =>
      (finish key ticket epoch a).run.bind fun r => .done (some r)
  | joiner _ ticket => .wait 1 (fun s => (s.cache.outcome? ticket).isSome) fun
      | .cancelled => .done (some (.error .cancelled))
      | .ready => .step id fun s =>
          .done (some ((s.cache.outcome? ticket).getD (.error .cancelled)))

/-- The caller among those that pause. -/
def paused (x : Caller) : Paused Service Question Question.Answer Handed :=
  ⟨x.number, Handed, x.rest, some⟩

end Caller

/-- What there is to see of a crowd of callers. -/
structure Picture where
  /-- Those that pause. -/
  callers : List Caller
  /-- The cache. -/
  cache : Cache
  /-- What has happened, newest first. -/
  history : List Happening
  /-- The number of the next call. -/
  fresh : Nat

/-- The picture is that of a crowd. -/
structure Picture.Of (d : Picture) (c : Callers) : Prop where
  paused : c.paused = d.callers.map Caller.paused
  cache : c.state.cache = d.cache
  history : c.history = d.history
  fresh : c.fresh = d.fresh

/-- The moves of a picture while only some calls may be cancelled as they wait. -/
inductive Move (cancellable : Nat → Prop) (d : Picture) : Picture → Prop
  /-- A call finds its package in the cache. -/
  | hit (key : PackageKey) (n : Node) : d.cache.entries.get? key = some n →
    Move cancellable d { d with
      cache := { d.cache with hits := d.cache.hits + 1 }
      history := .returned d.fresh (some (.ok n)) :: .begun d.fresh (.get key) :: d.history
      fresh := d.fresh + 1 }
  /-- A call joins a fetch. -/
  | join (key : PackageKey) (ticket : Nat) : d.cache.entries.get? key = none →
    d.cache.inflight.get? key = some ticket →
    Move cancellable d
      { callers := .joiner d.fresh ticket :: d.callers
        cache := { d.cache with shared := d.cache.shared + 1 }
        history := .begun d.fresh (.get key) :: d.history
        fresh := d.fresh + 1 }
  /-- A call begins to fetch. -/
  | fetch (key : PackageKey) : d.cache.entries.get? key = none →
    d.cache.inflight.get? key = none →
    Move cancellable d
      { callers := .fetcher d.fresh key d.cache.fetches d.cache.epoch :: d.callers
        cache := { d.cache with
          inflight := d.cache.inflight.insert key d.cache.fetches
          fetches := d.cache.fetches + 1 }
        history := .put d.fresh (.files key.name key.version) :: .begun d.fresh (.get key) :: d.history
        fresh := d.fresh + 1 }
  /-- A package is dropped. -/
  | invalidate (key : PackageKey) : Move cancellable d { d with
      cache := d.cache.invalidate key
      history := .returned d.fresh none :: .begun d.fresh (.invalidate key) :: d.history
      fresh := d.fresh + 1 }
  /-- All packages are dropped. -/
  | clear : Move cancellable d { d with
      cache := d.cache.clear
      history := .returned d.fresh none :: .begun d.fresh .clear :: d.history
      fresh := d.fresh + 1 }
  /-- A fetch ends. -/
  | settle (front back : List Caller) (id : Nat) (key : PackageKey) (ticket epoch : Nat)
      (a : Except Fault (Table String String)) :
    d.callers = front ++ .fetcher id key ticket epoch :: back →
    Move cancellable d { d with
      callers := front ++ back
      cache := d.cache.settle key ticket epoch (a.map (Node.mk key))
      history := .returned id (some (a.map (Node.mk key))) ::
        .answered id (.files key.name key.version) a :: d.history }
  /-- A call learns how the fetch that it waited for has ended. -/
  | learn (front back : List Caller) (id ticket : Nat) (r : Except Fault Node) :
    d.callers = front ++ .joiner id ticket :: back → d.cache.outcome? ticket = some r →
    Move cancellable d { d with
      callers := front ++ back
      history := .returned id (some r) :: d.history }
  /-- A call that waits is cancelled. -/
  | cancel (front back : List Caller) (id ticket : Nat) :
    d.callers = front ++ .joiner id ticket :: back → cancellable id →
    Move cancellable d { d with
      callers := front ++ back
      history := .returned id (some (.error .cancelled)) :: d.history }

section Moves

variable {cancellable : Nat → Prop} {c c' : Callers} {d d' : Picture}

lemma request_of_joined {cache : Cache} {key : PackageKey} {ticket : Nat}
    (h : cache.entries.get? key = none) (hi : cache.inflight.get? key = some ticket) :
    cache.request key = (.join ticket, { cache with shared := cache.shared + 1 }) := by
  rw [request, h, hi]

/-- How a call for a package goes on when it has been admitted. -/
def admitted (key : PackageKey) : Admission → Work Handed
  | .hit n => .done (some (.ok n))
  | .join ticket => (Caller.joiner 0 ticket).rest
  | .fetch ticket epoch => (Caller.fetcher 0 key ticket epoch).rest

lemma work_get (key : PackageKey) : Demand.work (.get key) =
    .step (fun s => { s with cache := (s.cache.request key).2 }) fun s =>
      admitted key (s.cache.request key).1 := by
  refine congrArg (Routine.step _) (funext fun s => ?_)
  dsimp only
  cases (s.cache.request key).1 with
  | hit n => rfl
  | join ticket =>
    refine congrArg (Routine.wait 1 _) (funext fun w => ?_)
    cases w <;> rfl
  | fetch ticket epoch => rfl

lemma call_get (c : Callers) (key : PackageKey) :
    c.call Demand.work (.get key) =
      run c.fresh some (admitted key (c.state.cache.request key).1) { c with
        state := { c.state with cache := (c.state.cache.request key).2 }
        fresh := c.fresh + 1
        history := .begun c.fresh (.get key) :: c.history } := by
  rw [Crowd.call, work_get]
  rfl

/-- A call joins a fetch. -/
lemma of_join (hd : d.Of c) {key : PackageKey} {ticket : Nat}
    (hentry : d.cache.entries.get? key = none) (hin : d.cache.inflight.get? key = some ticket) :
    Picture.Of
      { callers := .joiner d.fresh ticket :: d.callers
        cache := { d.cache with shared := d.cache.shared + 1 }
        history := .begun d.fresh (.get key) :: d.history
        fresh := d.fresh + 1 } (c.call Demand.work (.get key)) := by
  obtain ⟨callers, cache, history, fresh⟩ := d
  obtain ⟨hp, rfl, rfl, rfl⟩ := hd
  rw [call_get, request_of_joined hentry hin]
  exact ⟨congrArg (_ :: ·) hp, rfl, rfl, rfl⟩

/-- A call makes a move. -/
lemma exists_move_call (hd : d.Of c) (r : Demand) :
    ∃ d', Move cancellable d d' ∧ d'.Of (c.call Demand.work r) := by
  cases r with
  | get key =>
    cases hentry : d.cache.entries.get? key with
    | some n =>
      refine ⟨_, .hit key n hentry, ?_⟩
      obtain ⟨callers, cache, history, fresh⟩ := d
      obtain ⟨hp, rfl, rfl, rfl⟩ := hd
      rw [call_get, request_of_entry hentry]
      exact ⟨hp, rfl, rfl, rfl⟩
    | none =>
      cases hin : d.cache.inflight.get? key with
      | some ticket => exact ⟨_, .join key ticket hentry hin, of_join hd hentry hin⟩
      | none =>
        refine ⟨_, .fetch key hentry hin, ?_⟩
        obtain ⟨callers, cache, history, fresh⟩ := d
        obtain ⟨hp, rfl, rfl, rfl⟩ := hd
        rw [call_get, request_of_missing hentry hin]
        exact ⟨congrArg (_ :: ·) hp, rfl, rfl, rfl⟩
  | invalidate key =>
    obtain ⟨callers, cache, history, fresh⟩ := d
    obtain ⟨hp, rfl, rfl, rfl⟩ := hd
    exact ⟨_, .invalidate key, hp, rfl, rfl, rfl⟩
  | clear =>
    obtain ⟨callers, cache, history, fresh⟩ := d
    obtain ⟨hp, rfl, rfl, rfl⟩ := hd
    exact ⟨_, .clear, hp, rfl, rfl, rfl⟩

/-- Whoever pauses is one of the callers in the picture. -/
lemma exists_caller (hd : d.Of c) {front back : List (Paused Service Question Question.Answer Handed)}
    {p : Paused Service Question Question.Answer Handed} (hp : c.paused = front ++ p :: back) :
    ∃ front' x back', d.callers = front' ++ x :: back' ∧ front'.map Caller.paused = front ∧
      x.paused = p ∧ back'.map Caller.paused = back := by
  obtain ⟨front', rest, hc, rfl, hrest⟩ := List.map_eq_append_iff.mp (hd.paused.symm.trans hp)
  obtain ⟨x, back', rfl, hx, rfl⟩ := List.map_eq_cons_iff.mp hrest
  exact ⟨front', x, back', hc, rfl, hx, rfl⟩

/-- What can happen to callers is a move of their picture. -/
theorem exists_move (hd : d.Of c) (h : StepSparing cancellable c c') :
    ∃ d', Move cancellable d d' ∧ d'.Of c' := by
  cases h with
  | call r => exact exists_move_call hd r
  | @answer front back id α q next report a hpaused =>
    obtain ⟨front', x, back', hc, rfl, hx, rfl⟩ := exists_caller hd hpaused
    obtain ⟨callers, cache, history, fresh⟩ := d
    obtain ⟨-, rfl, rfl, rfl⟩ := hd
    cases x with
    | joiner id ticket => cases hx
    | fetcher id key ticket epoch =>
      cases hx
      refine ⟨_, .settle front' back' id key ticket epoch a hc, ?_⟩
      cases a with
      | ok files => exact ⟨List.map_append.symm, rfl, rfl, rfl⟩
      | error f => cases f <;> exact ⟨List.map_append.symm, rfl, rfl, rfl⟩
  | @wake front back id α turns until_ next report w hpaused hready hcancel =>
    obtain ⟨front', x, back', hc, rfl, hx, rfl⟩ := exists_caller hd hpaused
    obtain ⟨callers, cache, history, fresh⟩ := d
    obtain ⟨-, rfl, rfl, rfl⟩ := hd
    cases x with
    | fetcher id key ticket epoch => cases hx
    | joiner id ticket =>
      cases hx
      cases w with
      | cancelled =>
        refine ⟨_, .cancel front' back' id ticket hc (hcancel rfl), ?_, rfl, rfl, rfl⟩
        exact List.map_append.symm
      | ready =>
        obtain ⟨r, hr⟩ := Option.isSome_iff_exists.mp (hready rfl)
        refine ⟨_, .learn front' back' id ticket r hc hr, ?_, rfl, ?_, rfl⟩
        · exact List.map_append.symm
        · show _ :: _ = _
          rw [hr]
          rfl

/-! ## Fetches under way -/

/-- The fetches under way: their packages and numbers. -/
def Picture.flights (d : Picture) : List (PackageKey × Nat) := d.callers.filterMap Caller.flight?

/-- The packages being fetched are those that the cache marks so; none of them is fetched twice, and
none is there. -/
structure Picture.Flying (d : Picture) : Prop where
  keys : (d.flights.map Prod.fst).Nodup
  tickets : (d.flights.map Prod.snd).Nodup
  inflight : ∀ key ticket, d.cache.inflight.get? key = some ticket ↔ (key, ticket) ∈ d.flights
  missing : ∀ f ∈ d.flights, d.cache.entries.get? f.1 = none
  running : ∀ f ∈ d.flights, d.cache.outcome? f.2 = none ∧ f.2 < d.cache.fetches
  settled : ∀ e ∈ d.cache.settled, e.1 < d.cache.fetches

namespace Picture.Flying

lemma fetch (h : d.Flying) {key : PackageKey} (hentry : d.cache.entries.get? key = none)
    (hin : d.cache.inflight.get? key = none) (id fresh : Nat) (history : List Happening) :
    Picture.Flying
      { callers := .fetcher id key d.cache.fetches d.cache.epoch :: d.callers
        cache := { d.cache with
          inflight := d.cache.inflight.insert key d.cache.fetches
          fetches := d.cache.fetches + 1 }
        history := history
        fresh := fresh } where
  keys := by
    refine List.nodup_cons.mpr ⟨fun hmem => ?_, h.keys⟩
    obtain ⟨⟨_, ticket⟩, hf, rfl⟩ := List.mem_map.mp hmem
    rw [(h.inflight _ _).mpr hf] at hin
    cases hin
  tickets := by
    refine List.nodup_cons.mpr ⟨fun hmem => ?_, h.tickets⟩
    obtain ⟨⟨_, ticket⟩, hf, hticket⟩ := List.mem_map.mp hmem
    refine absurd (h.running _ hf).2 ?_
    rw [hticket]
    exact Nat.lt_irrefl _
  inflight key' ticket := by
    show (d.cache.inflight.insert key d.cache.fetches).get? key' = some ticket ↔
      (key', ticket) ∈ (key, d.cache.fetches) :: d.flights
    by_cases hk : key = key'
    · subst hk
      have hnot : (key, ticket) ∉ d.flights := fun hf => by
        rw [(h.inflight _ _).mpr hf] at hin
        cases hin
      simp [hnot, eq_comm]
    · have hk' : ¬ key' = key := fun e => hk e.symm
      simp [Table.get?_insert_ne _ hk, hk', h.inflight]
  missing := List.forall_mem_cons.mpr ⟨hentry, h.missing⟩
  running := by
    refine List.forall_mem_cons.mpr ⟨⟨?_, Nat.lt_succ_self _⟩, fun f hf => ?_⟩
    · refine List.lookup_eq_none_iff.mpr fun e he => ?_
      simpa using (Nat.ne_of_lt (h.settled e he)).symm
    · exact ⟨(h.running f hf).1, Nat.lt_succ_of_lt (h.running f hf).2⟩
  settled e he := Nat.lt_succ_of_lt (h.settled e he)

lemma settle (h : d.Flying) {front back : List Caller} {id : Nat} {key : PackageKey}
    {ticket epoch : Nat} (hc : d.callers = front ++ .fetcher id key ticket epoch :: back)
    (outcome : Except Fault Node) (history : List Happening) :
    Picture.Flying { d with
      callers := front ++ back
      cache := d.cache.settle key ticket epoch outcome
      history := history } := by
  have hperm : d.flights.Perm ((key, ticket) :: (front ++ back).filterMap Caller.flight?) := by
    rw [Picture.flights, hc]
    exact List.perm_middle.filterMap _
  obtain ⟨hkey, hkeys⟩ := List.nodup_cons.mp ((hperm.map Prod.fst).nodup_iff.mp h.keys)
  obtain ⟨hticket, htickets⟩ := List.nodup_cons.mp ((hperm.map Prod.snd).nodup_iff.mp h.tickets)
  have hself := hperm.mem_iff.mpr List.mem_cons_self
  have hother : ∀ {f}, f ∈ (front ++ back).filterMap Caller.flight? → f ∈ d.flights ∧ key ≠ f.1 ∧
      f.2 ≠ ticket := fun hf =>
    ⟨hperm.mem_iff.mpr (List.mem_cons_of_mem _ hf), fun e => hkey (List.mem_map.mpr ⟨_, hf, e.symm⟩),
      fun e => hticket (List.mem_map.mpr ⟨_, hf, e⟩)⟩
  refine ⟨hkeys, htickets, fun key' ticket' => ?_, fun f hf => ?_, fun f hf => ?_, ?_⟩
  · by_cases hk : key = key'
    · subst hk
      have hin := inflight_settle_self ((h.inflight _ _).mpr hself) epoch outcome
      refine ⟨fun hsome => ?_, fun hf => absurd rfl (hother hf).2.1⟩
      rw [hin] at hsome
      cases hsome
    · have hk' : ¬ key' = key := fun e => hk e.symm
      rw [get?_inflight_settle hk, h.inflight, hperm.mem_iff]
      simp [Picture.flights, hk']
  · rw [get?_entries_settle (hother hf).2.1]
    exact h.missing f (hother hf).1
  · refine ⟨?_, (h.running f (hother hf).1).2⟩
    have hbeq : (f.2 == ticket) = false := beq_eq_false_iff_ne.mpr (hother hf).2.2
    show List.lookup f.2 ((ticket, outcome) :: d.cache.settled) = none
    rw [List.lookup_cons, hbeq]
    exact (h.running f (hother hf).1).1
  · exact List.forall_mem_cons.mpr ⟨(h.running _ hself).2, h.settled⟩

/-- The end of a wait changes nothing about the fetches under way. -/
lemma leave (h : d.Flying) {front back : List Caller} {id ticket : Nat}
    (hc : d.callers = front ++ .joiner id ticket :: back) (history : List Happening) :
    Picture.Flying { d with callers := front ++ back, history := history } := by
  have hflights : (front ++ back).filterMap Caller.flight? = d.flights := by
    rw [Picture.flights, hc, List.filterMap_append, List.filterMap_append]
    rfl
  obtain ⟨hk, ht, hi, hm, hr, hs⟩ := h
  rw [← hflights] at hk ht hi hm hr
  exact ⟨hk, ht, hi, hm, hr, hs⟩

theorem move (h : d.Flying) (hm : Move cancellable d d') : d'.Flying := by
  cases hm with
  | hit key n _ => exact ⟨h.keys, h.tickets, h.inflight, h.missing, h.running, h.settled⟩
  | join key ticket _ _ => exact ⟨h.keys, h.tickets, h.inflight, h.missing, h.running, h.settled⟩
  | fetch key hentry hin => exact h.fetch hentry hin _ _ _
  | invalidate key =>
    refine ⟨h.keys, h.tickets, h.inflight, fun f hf => ?_, h.running, h.settled⟩
    by_cases hk : key = f.1
    · rw [hk]
      exact Table.get?_erase_self _ _
    · exact (Table.get?_erase_ne _ hk).trans (h.missing f hf)
  | clear => exact ⟨h.keys, h.tickets, h.inflight, fun _ _ => rfl, h.running, h.settled⟩
  | settle front back id key ticket epoch a hc => exact h.settle hc _ _
  | learn front back id ticket r hc _ => exact h.leave hc _
  | cancel front back id ticket hc _ => exact h.leave hc _

end Picture.Flying

/-! ## What the cache holds -/

/-- What the cache holds has been brought since it was last cleared, and a fetch that began in the
present epoch has been asked for since then. -/
structure Picture.Stocked (d : Picture) : Prop where
  brought : ∀ key n, d.cache.entries.get? key = some n →
    ∃ id files, n = ⟨key, files⟩ ∧ Brought d.history id key files
  asked : ∀ id key ticket epoch, .fetcher id key ticket epoch ∈ d.callers → epoch ≤ d.cache.epoch ∧
    ∃ after before, d.history = after ++ .put id (.files key.name key.version) :: before ∧
      (epoch = d.cache.epoch → ∀ id', .begun id' .clear ∉ after)

lemma Brought.mono {h news : List Happening} {id : Nat} {key : PackageKey}
    {files : Table String String} (hb : Brought h id key files)
    (hnews : ∀ id', .begun id' .clear ∉ news) : Brought (news ++ h) id key files := by
  obtain ⟨after, before, rfl, hanswer, hclear⟩ := hb
  refine ⟨news ++ after, before, (List.append_assoc _ _ _).symm, List.mem_append_right _ hanswer,
    fun id' hmem => ?_⟩
  rcases List.mem_append.mp hmem with hmem | hmem
  · exact hnews id' hmem
  · exact hclear id' hmem

lemma subset_of_split {x : Caller} {callers front back : List Caller}
    (h : callers = front ++ x :: back) : front ++ back ⊆ callers :=
  h ▸ ((List.sublist_cons_self x back).append_left front).subset

namespace Picture.Stocked

/-- What may drop packages, but does not clear the cache or begin a fetch, keeps it stocked. -/
lemma keep (h : d.Stocked)
    (hcallers : ∀ id key ticket epoch, .fetcher id key ticket epoch ∈ d'.callers →
      .fetcher id key ticket epoch ∈ d.callers)
    (hentries : ∀ key n, d'.cache.entries.get? key = some n → d.cache.entries.get? key = some n)
    (hepoch : d'.cache.epoch = d.cache.epoch) {news : List Happening}
    (hhistory : d'.history = news ++ d.history) (hnews : ∀ id', .begun id' .clear ∉ news) :
    d'.Stocked where
  brought key n hn := by
    obtain ⟨id, files, hfiles, hb⟩ := h.brought key n (hentries key n hn)
    exact ⟨id, files, hfiles, hhistory ▸ hb.mono hnews⟩
  asked id key ticket epoch hmem := by
    obtain ⟨hle, after, before, hh, hclear⟩ := h.asked id key ticket epoch (hcallers _ _ _ _ hmem)
    refine ⟨hepoch ▸ hle, news ++ after, before, ?_, fun he id' hmem => ?_⟩
    · rw [hhistory, hh, List.append_assoc]
    · rcases List.mem_append.mp hmem with hmem | hmem
      · exact hnews id' hmem
      · exact hclear (he.trans hepoch) id' hmem

lemma settle (h : d.Stocked) {front back : List Caller} {id : Nat} {key : PackageKey}
    {ticket epoch : Nat} (hc : d.callers = front ++ .fetcher id key ticket epoch :: back)
    (a : Except Fault (Table String String)) :
    Picture.Stocked { d with
      callers := front ++ back
      cache := d.cache.settle key ticket epoch (a.map (Node.mk key))
      history := .returned id (some (a.map (Node.mk key))) ::
        .answered id (.files key.name key.version) a :: d.history } := by
  let news : List Happening := [.returned id (some (a.map (Node.mk key))),
    .answered id (.files key.name key.version) a]
  have hnews : ∀ id', .begun id' .clear ∉ news := by simp [news]
  have hkept : Picture.Stocked { d with callers := front ++ back, history := news ++ d.history } :=
    h.keep (fun _ _ _ _ hmem => subset_of_split hc hmem) (fun _ _ hn => hn) rfl rfl hnews
  refine ⟨fun key' n hn => ?_, hkept.asked⟩
  by_cases hk : key = key'
  · subst hk
    cases a with
    | error f => exact hkept.brought key n hn
    | ok files =>
      by_cases he : epoch = d.cache.epoch
      · have hnode : n = ⟨key, files⟩ := by
          simpa [Cache.settle, Except.map, he, eq_comm] using hn
        obtain ⟨-, after, before, hh, hclear⟩ := h.asked id key ticket epoch
          (hc ▸ List.mem_append_right front List.mem_cons_self)
        refine ⟨id, files, hnode, news ++ after, before, ?_, ?_, fun id' hmem => ?_⟩
        · exact congrArg (news ++ ·) hh
        · exact List.mem_append_left _ (List.mem_cons_of_mem _ List.mem_cons_self)
        · rcases List.mem_append.mp hmem with hmem | hmem
          · exact hnews id' hmem
          · exact hclear he id' hmem
      · refine hkept.brought key n ?_
        simpa [Cache.settle, Except.map, he] using hn
  · rw [get?_entries_settle hk] at hn
    exact hkept.brought key' n hn

theorem move (h : d.Stocked) (hm : Move cancellable d d') : d'.Stocked := by
  cases hm with
  | hit key n _ =>
    exact h.keep (fun _ _ _ _ hmem => hmem) (fun _ _ hn => hn) rfl
      (List.append_cons [_] _ _) (by simp)
  | join key ticket _ _ =>
    exact h.keep (by simp) (fun _ _ hn => hn) rfl List.singleton_append.symm (by simp)
  | fetch key hentry hin =>
    let news : List Happening := [.put d.fresh (.files key.name key.version),
      .begun d.fresh (.get key)]
    have hkept : Picture.Stocked { d with history := news ++ d.history } :=
      h.keep (fun _ _ _ _ hmem => hmem) (fun _ _ hn => hn) rfl rfl (by simp [news])
    refine ⟨hkept.brought, fun id key' ticket epoch hmem => ?_⟩
    rcases List.mem_cons.mp hmem with heq | hmem
    · cases heq
      exact ⟨Nat.le_refl _, [], _, rfl, fun _ _ => List.not_mem_nil⟩
    · exact hkept.asked id key' ticket epoch hmem
  | invalidate key =>
    refine h.keep (fun _ _ _ _ hmem => hmem) (fun key' n hn => ?_) rfl
      (List.append_cons [_] _ _) (by simp)
    by_cases hk : key = key'
    · subst hk
      rw [Cache.invalidate, Table.get?_erase_self] at hn
      cases hn
    · exact (Table.get?_erase_ne _ hk).symm.trans hn
  | clear =>
    -- a fetch that is under way now began in an epoch that is over
    refine ⟨nofun, fun id key ticket epoch hmem => ?_⟩
    obtain ⟨hle, after, before, hh, -⟩ := h.asked id key ticket epoch hmem
    refine ⟨Nat.le_succ_of_le hle, .returned d.fresh none :: .begun d.fresh .clear :: after, before,
      ?_, fun he => ?_⟩
    · exact congrArg (fun h => _ :: _ :: h) hh
    · rw [he] at hle
      exact absurd hle (Nat.not_succ_le_self _)
  | settle front back id key ticket epoch a hc => exact h.settle hc a
  | learn front back id ticket r hc _ =>
    exact h.keep (fun _ _ _ _ hmem => subset_of_split hc hmem) (fun _ _ hn => hn) rfl
      List.singleton_append.symm (by simp)
  | cancel front back id ticket hc _ =>
    exact h.keep (fun _ _ _ _ hmem => subset_of_split hc hmem) (fun _ _ hn => hn) rfl
      List.singleton_append.symm (by simp)

end Picture.Stocked

/-! ## Calls and their ends -/

/-- Those that pause are different calls, and none of them has returned. -/
structure Picture.Numbered (d : Picture) : Prop where
  distinct : (d.callers.map Caller.number).Nodup
  fresh : ∀ x ∈ d.callers, x.number < d.fresh
  returned : ∀ id r, .returned id r ∈ d.history →
    id < d.fresh ∧ ∀ x ∈ d.callers, x.number ≠ id

namespace Picture.Numbered

/-- A call comes and returns at once. -/
lemma reply (h : d.Numbered) (cache : Cache) (r : Demand) (reply : Handed) :
    Picture.Numbered ⟨d.callers, cache, .returned d.fresh reply :: .begun d.fresh r :: d.history,
      d.fresh + 1⟩ where
  distinct := h.distinct
  fresh x hx := Nat.lt_succ_of_lt (h.fresh x hx)
  returned id r' hr := by
    rcases List.mem_cons.mp hr with heq | hr
    · cases heq
      exact ⟨Nat.lt_succ_self _, fun x hx => Nat.ne_of_lt (h.fresh x hx)⟩
    · have hr := (List.mem_cons.mp hr).resolve_left nofun
      exact ⟨Nat.lt_succ_of_lt (h.returned id r' hr).1, (h.returned id r' hr).2⟩

/-- A call comes and pauses. -/
lemma enter (h : d.Numbered) {x : Caller} (hx : x.number = d.fresh) (cache : Cache)
    (news : List Happening) (hnews : ∀ id r, .returned id r ∉ news) :
    Picture.Numbered ⟨x :: d.callers, cache, news ++ d.history, d.fresh + 1⟩ where
  distinct := by
    refine List.nodup_cons.mpr ⟨fun hmem => ?_, h.distinct⟩
    obtain ⟨y, hy, heq⟩ := List.mem_map.mp hmem
    exact absurd (h.fresh y hy) (by rw [heq, hx]; exact Nat.lt_irrefl _)
  fresh := List.forall_mem_cons.mpr
    ⟨hx ▸ Nat.lt_succ_self _, fun y hy => Nat.lt_succ_of_lt (h.fresh y hy)⟩
  returned id r hr := by
    have hr := (List.mem_append.mp hr).resolve_left (hnews id r)
    obtain ⟨hlt, hne⟩ := h.returned id r hr
    exact ⟨Nat.lt_succ_of_lt hlt, List.forall_mem_cons.mpr ⟨hx ▸ (Nat.ne_of_lt hlt).symm, hne⟩⟩

/-- A call that pauses returns. -/
lemma leave (h : d.Numbered) {front back : List Caller} {x : Caller}
    (hc : d.callers = front ++ x :: back) (cache : Cache) (reply : Handed)
    (news : List Happening) (hnews : ∀ id r, .returned id r ∉ news) :
    Picture.Numbered ⟨front ++ back, cache, .returned x.number reply :: (news ++ d.history),
      d.fresh⟩ := by
  have hperm : d.callers.Perm (x :: (front ++ back)) := hc ▸ List.perm_middle
  obtain ⟨hnot, hdistinct⟩ := List.nodup_cons.mp ((hperm.map Caller.number).nodup_iff.mp h.distinct)
  have hsub : ∀ {y}, y ∈ front ++ back → y ∈ d.callers := fun hy => subset_of_split hc hy
  refine ⟨hdistinct, fun y hy => h.fresh y (hsub hy), fun id r hr => ?_⟩
  rcases List.mem_cons.mp hr with heq | hr
  · cases heq
    refine ⟨h.fresh x (hperm.mem_iff.mpr List.mem_cons_self), fun y hy heq => ?_⟩
    exact hnot (heq ▸ List.mem_map_of_mem hy)
  · have hr := (List.mem_append.mp hr).resolve_left (hnews id r)
    exact ⟨(h.returned id r hr).1, fun y hy => (h.returned id r hr).2 y (hsub hy)⟩

theorem move (h : d.Numbered) (hm : Move cancellable d d') : d'.Numbered := by
  cases hm with
  | hit key n _ => exact h.reply _ _ _
  | join key ticket _ _ => exact h.enter rfl _ [.begun d.fresh (.get key)] (by simp)
  | fetch key _ _ => 
    exact h.enter rfl _ [.put d.fresh (.files key.name key.version), .begun d.fresh (.get key)]
      (by simp)
  | invalidate key => exact h.reply _ _ _
  | clear => exact h.reply _ _ _
  | settle front back id key ticket epoch a hc =>
    exact h.leave hc _ _ [.answered id (.files key.name key.version) a] (by simp)
  | learn front back id ticket r hc _ => exact h.leave hc _ _ [] (by simp)
  | cancel front back id ticket hc _ => exact h.leave hc _ _ [] (by simp)

end Picture.Numbered

/-- A fetch belongs to a call: the call is running it, or has returned with its outcome. -/
def Picture.Tracks (d : Picture) (ticket id : Nat) : Prop :=
  (∃ key epoch, .fetcher id key ticket epoch ∈ d.callers) ∨
    ∃ r, d.cache.outcome? ticket = some r ∧ .returned id (some r) ∈ d.history

/-- The fetches that calls wait for belong to calls. -/
def Picture.Joined (d : Picture) : Prop :=
  ∀ id ticket, .joiner id ticket ∈ d.callers → ∃ starter, d.Tracks ticket starter

/-- Every request for a package is counted. -/
def Picture.Counted (d : Picture) : Prop :=
  d.cache.hits + d.cache.fetches + d.cache.shared = d.history.countP isGet

namespace Move

/-- Nothing that has happened is forgotten. -/
lemma history (hm : Move cancellable d d') : d.history ⊆ d'.history := by
  cases hm <;> simp

lemma fresh (hm : Move cancellable d d') : d.fresh ≤ d'.fresh := by
  cases hm <;> simp

lemma outcome?_settle (cache : Cache) (key : PackageKey) (ticket epoch : Nat)
    (outcome : Except Fault Node) (t : Nat) :
    (cache.settle key ticket epoch outcome).outcome? t =
      if t = ticket then some outcome else cache.outcome? t := by
  show List.lookup t ((ticket, outcome) :: cache.settled) = _
  rw [List.lookup_cons]
  by_cases ht : t = ticket
  · simp [ht]
  · have hbeq : (t == ticket) = false := beq_eq_false_iff_ne.mpr ht
    simp [ht, hbeq, Cache.outcome?]

/-- How a fetch has ended does not change. -/
lemma outcome? (hm : Move cancellable d d') (hf : d.Flying) {ticket : Nat} {r : Except Fault Node}
    (h : d.cache.outcome? ticket = some r) : d'.cache.outcome? ticket = some r := by
  cases hm with
  | settle front back id key ticket' epoch a hc =>
    -- the fetch that ends now has not ended before
    have hrunning := (hf.running (key, ticket') (List.mem_filterMap.mpr
      ⟨_, hc ▸ List.mem_append_right front List.mem_cons_self, rfl⟩)).1
    have hne : ticket ≠ ticket' := by
      rintro rfl
      rw [h] at hrunning
      cases hrunning
    rw [outcome?_settle, if_neg hne]
    exact h
  | _ => exact h

/-- A fetch goes on, or it has ended, and its call has returned with the outcome. -/
lemma fetcher (hm : Move cancellable d d') {id : Nat} {key : PackageKey} {ticket epoch : Nat}
    (h : .fetcher id key ticket epoch ∈ d.callers) :
    .fetcher id key ticket epoch ∈ d'.callers ∨
      ∃ r, d'.cache.outcome? ticket = some r ∧ .returned id (some r) ∈ d'.history := by
  cases hm with
  | join key ticket _ _ => exact Or.inl (List.mem_cons_of_mem _ h)
  | fetch key _ _ => exact Or.inl (List.mem_cons_of_mem _ h)
  | settle front back id' key' ticket' epoch' a hc =>
    rw [hc] at h
    rcases List.mem_append.mp h with h | h
    · exact Or.inl (List.mem_append_left _ h)
    · rcases List.mem_cons.mp h with heq | h
      · cases heq
        exact Or.inr ⟨_, by rw [outcome?_settle, if_pos rfl], List.mem_cons_self⟩
      · exact Or.inl (List.mem_append_right _ h)
  | learn front back id' ticket' r hc _ => exact Or.inl (by simpa [hc] using h)
  | cancel front back id' ticket' hc _ => exact Or.inl (by simpa [hc] using h)
  | _ => exact Or.inl h

/-- A call that waits for a fetch goes on waiting, returns with the outcome of the fetch, or is
cancelled. -/
lemma joiner (hm : Move cancellable d d') {id ticket : Nat}
    (h : .joiner id ticket ∈ d.callers) : .joiner id ticket ∈ d'.callers ∨
      (∃ r, d.cache.outcome? ticket = some r ∧ d'.history = .returned id (some r) :: d.history) ∨
      cancellable id := by
  cases hm with
  | join key ticket _ _ => exact Or.inl (List.mem_cons_of_mem _ h)
  | fetch key _ _ => exact Or.inl (List.mem_cons_of_mem _ h)
  | settle front back id' key' ticket' epoch' a hc => exact Or.inl (by simpa [hc] using h)
  | learn front back id' ticket' r hc hr =>
    rw [hc] at h
    rcases List.mem_append.mp h with h | h
    · exact Or.inl (List.mem_append_left _ h)
    · rcases List.mem_cons.mp h with heq | h
      · cases heq
        exact Or.inr (Or.inl ⟨r, hr, rfl⟩)
      · exact Or.inl (List.mem_append_right _ h)
  | cancel front back id' ticket' hc hid =>
    rw [hc] at h
    rcases List.mem_append.mp h with h | h
    · exact Or.inl (List.mem_append_left _ h)
    · rcases List.mem_cons.mp h with heq | h
      · cases heq
        exact Or.inr (Or.inr hid)
      · exact Or.inl (List.mem_append_right _ h)
  | _ => exact Or.inl h

/-- Whoever returns is new, has returned before, or has paused. -/
lemma returned (hm : Move cancellable d d') {id : Nat} {r : Handed}
    (h : .returned id r ∈ d'.history) : id = d.fresh ∨ .returned id r ∈ d.history ∨
      ∃ x ∈ d.callers, x.number = id := by
  cases hm with
  | settle front back id' key ticket epoch a hc =>
    have hx := hc ▸ List.mem_append_right front List.mem_cons_self
    simp only [List.mem_cons, Event.returned.injEq, reduceCtorEq, false_or] at h
    exact h.elim (fun h => Or.inr (Or.inr ⟨_, hx, h.1.symm⟩)) fun h => Or.inr (Or.inl h)
  | learn front back id' ticket r hc _ =>
    have hx := hc ▸ List.mem_append_right front List.mem_cons_self
    simp only [List.mem_cons, Event.returned.injEq] at h
    exact h.elim (fun h => Or.inr (Or.inr ⟨_, hx, h.1.symm⟩)) fun h => Or.inr (Or.inl h)
  | cancel front back id' ticket hc _ =>
    have hx := hc ▸ List.mem_append_right front List.mem_cons_self
    simp only [List.mem_cons, Event.returned.injEq] at h
    exact h.elim (fun h => Or.inr (Or.inr ⟨_, hx, h.1.symm⟩)) fun h => Or.inr (Or.inl h)
  | _ =>
    simp only [List.mem_cons, Event.returned.injEq, reduceCtorEq, false_or] at h
    tauto

end Move

theorem Picture.Tracks.move {ticket id : Nat} (hf : d.Flying) (h : d.Tracks ticket id)
    (hm : Move cancellable d d') : d'.Tracks ticket id := by
  rcases h with ⟨key, epoch, hmem⟩ | ⟨r, hr, hmem⟩
  · exact (hm.fetcher hmem).imp_left fun h => ⟨key, epoch, h⟩
  · exact Or.inr ⟨r, hm.outcome? hf hr, hm.history hmem⟩

theorem Picture.Joined.move (hf : d.Flying) (h : d.Joined) (hm : Move cancellable d d') :
    d'.Joined := by
  -- a call that waits has waited before, or it has just joined a fetch that is under way
  have hold : ∀ id ticket, .joiner id ticket ∈ d'.callers → .joiner id ticket ∈ d.callers ∨
      ∃ key, d.cache.inflight.get? key = some ticket := by
    intro id ticket hmem
    cases hm with
    | hit key n _ => exact Or.inl hmem
    | join key ticket' _ hin =>
      rcases List.mem_cons.mp hmem with heq | hmem
      · cases heq
        exact Or.inr ⟨key, hin⟩
      · exact Or.inl hmem
    | fetch key _ _ => exact Or.inl ((List.mem_cons.mp hmem).resolve_left nofun)
    | invalidate key => exact Or.inl hmem
    | clear => exact Or.inl hmem
    | settle front back id key ticket epoch a hc => exact Or.inl (subset_of_split hc hmem)
    | learn front back id ticket r hc _ => exact Or.inl (subset_of_split hc hmem)
    | cancel front back id ticket hc _ => exact Or.inl (subset_of_split hc hmem)
  intro id ticket hmem
  rcases hold id ticket hmem with hmem | ⟨key, hin⟩
  · obtain ⟨starter, hstarter⟩ := h id ticket hmem
    exact ⟨starter, hstarter.move hf hm⟩
  · obtain ⟨x, hx, hflight⟩ := List.mem_filterMap.mp ((hf.inflight key ticket).mp hin)
    cases x with
    | joiner id' ticket' => cases hflight
    | fetcher starter key' ticket' epoch =>
      cases hflight
      exact ⟨starter, Picture.Tracks.move hf (Or.inl ⟨key, epoch, hx⟩) hm⟩

theorem Picture.Counted.move (h : d.Counted) (hm : Move cancellable d d') : d'.Counted := by
  unfold Picture.Counted at *
  cases hm with
  | hit key n _ => simp [isGet, Demand.isGet, List.countP_cons]; omega
  | join key ticket _ _ => simp [isGet, Demand.isGet, List.countP_cons]; omega
  | fetch key _ _ => simp [isGet, Demand.isGet, List.countP_cons]; omega
  | invalidate key => simpa [isGet, Demand.isGet, Cache.invalidate] using h
  | clear => simpa [isGet, Demand.isGet, Cache.clear] using h
  | settle front back id key ticket epoch a hc => simpa [isGet, Cache.settle] using h
  | learn front back id ticket r hc _ => simpa [isGet] using h
  | cancel front back id ticket hc _ => simpa [isGet] using h

/-! ## The invariant -/

/-- The invariant of the picture. -/
structure Picture.Sound (d : Picture) : Prop where
  flying : d.Flying
  stocked : d.Stocked
  numbered : d.Numbered
  joined : d.Joined
  counted : d.Counted

theorem Picture.Sound.move (h : d.Sound) (hm : Move cancellable d d') : d'.Sound where
  flying := h.flying.move hm
  stocked := h.stocked.move hm
  numbered := h.numbered.move hm
  joined := h.joined.move h.flying hm
  counted := h.counted.move hm

/-- Callers whose picture is sound. -/
def Served (c : Callers) : Prop := ∃ d : Picture, d.Of c ∧ d.Sound

theorem Served.step (h : Served c) (hs : StepSparing cancellable c c') : Served c' := by
  obtain ⟨d, hd, hsound⟩ := h
  obtain ⟨d', hm, hd'⟩ := exists_move hd hs
  exact ⟨d', hd', hsound.move hm⟩

/-- In whatever order the calls take their turns, their picture is sound. -/
theorem served_of_reachable {s : Service} (hs : s.cache = {}) (h : Reachable Demand.work s c) :
    Served c := by
  induction h with
  | refl =>
    refine ⟨⟨[], {}, [], 0⟩, ⟨rfl, hs, rfl, rfl⟩, ?_, ?_, ?_, nofun, rfl⟩
    · exact ⟨List.nodup_nil, List.nodup_nil, fun _ _ => ⟨nofun, nofun⟩, nofun, nofun, nofun⟩
    · exact ⟨nofun, nofun⟩
    · exact ⟨List.nodup_nil, nofun, nofun⟩
  | tail _ hstep ih => exact ih.step (.of_step hstep)

/-! ## Joined calls -/

/-- A call that has joined a fetch is waiting for it, or has returned with its outcome. -/
def Picture.Awaits (d : Picture) (ticket id : Nat) : Prop :=
  .joiner id ticket ∈ d.callers ∨
    ∃ r, d.cache.outcome? ticket = some r ∧ .returned id (some r) ∈ d.history ∧
      ∀ r', .returned id r' ∈ d.history → r' = some r

theorem Picture.Awaits.move {ticket id : Nat} (hs : d.Sound) (h : d.Awaits ticket id)
    (hid : ¬ cancellable id) (hm : Move cancellable d d') : d'.Awaits ticket id := by
  rcases h with hmem | ⟨r, hr, hback, hreturned⟩
  · rcases hm.joiner hmem with hmem' | ⟨r, hr, hhistory⟩ | hcancelled
    · exact Or.inl hmem'
    · refine Or.inr ⟨r, hm.outcome? hs.flying hr, hhistory ▸ List.mem_cons_self, fun r' hr' => ?_⟩
      rw [hhistory] at hr'
      rcases List.mem_cons.mp hr' with heq | hr'
      · cases heq
        rfl
      · -- it has not returned before, since it was waiting
        exact absurd rfl ((hs.numbered.returned id r' hr').2 _ hmem)
    · exact absurd hcancelled hid
  · obtain ⟨hlt, hgone⟩ := hs.numbered.returned id (some r) hback
    refine Or.inr ⟨r, hm.outcome? hs.flying hr, hm.history hback, fun r' hr' => ?_⟩
    rcases hm.returned hr' with rfl | hr' | ⟨x, hx, hnumber⟩
    · exact absurd hlt (Nat.lt_irrefl _)
    · exact hreturned r' hr'
    · exact absurd hnumber (hgone x hx)

/-- A call that joined a fetch has returned only what the call returned that the fetch belongs to. -/
lemma Picture.Awaits.returned {ticket id starter : Nat} (hs : d.Sound) (h : d.Awaits ticket id)
    (ht : d.Tracks ticket starter) {r : Handed} (hr : .returned id r ∈ d.history) :
    .returned starter r ∈ d.history := by
  rcases h with hmem | ⟨r', hr', -, hreturned⟩
  · exact absurd rfl ((hs.numbered.returned id r hr).2 _ hmem)
  · obtain rfl := hreturned r hr
    rcases ht with ⟨key, epoch, hmem⟩ | ⟨r'', hr'', hback⟩
    · have hrunning := (hs.flying.running (key, ticket) (List.mem_filterMap.mpr ⟨_, hmem, rfl⟩)).1
      rw [hr'] at hrunning
      cases hrunning
    · obtain rfl := Option.some.inj (hr'.symm.trans hr'')
      exact hback

/-- While one call is not cancelled, it goes on awaiting the fetch that it joined. -/
lemma awaits_of_sparing {id ticket starter : Nat} (hd : d.Of c) (hs : d.Sound)
    (ha : d.Awaits ticket id) (ht : d.Tracks ticket starter)
    (h : Relation.ReflTransGen (StepSparing (· ≠ id)) c c') :
    ∃ d' : Picture, d'.Of c' ∧ d'.Sound ∧ d'.Awaits ticket id ∧ d'.Tracks ticket starter := by
  induction h with
  | refl => exact ⟨d, hd, hs, ha, ht⟩
  | tail _ hstep ih =>
    obtain ⟨e, he, hse, hae, hte⟩ := ih
    obtain ⟨e', hm, he'⟩ := exists_move he hstep
    exact ⟨e', he', hse.move hm, hae.move hse (not_not_intro rfl) hm, hte.move hse.flying hm⟩

/-! ## What callers can rely on -/

/-- Callers are served by single flights. -/
structure SingleFlight (c : Callers) : Prop where
  /-- At most one fetch of a package is under way, and the cache marks the package exactly then. -/
  once : ∀ key, c.paused.countP (asksFor key) =
    if c.state.cache.inflight.contains key then 1 else 0
  /-- What the cache holds has been brought by a fetch of this package which began after the cache
  was last cleared. -/
  stored : ∀ key n, c.state.cache.entries.get? key = some n →
    ∃ id files, n = ⟨key, files⟩ ∧ Brought c.history id key files
  /-- A fetch that fails or is cancelled stores nothing. -/
  failed : ∀ (front back : List (Paused Service Question Question.Answer Handed)) (id : Nat)
    (α : Type) (q : Question) (next : Question.Answer q → Work α) (report : α → Option Handed) (f : Fault),
    c.paused = front ++ ⟨id, α, .ask q next, report⟩ :: back →
    (run id report (next (.error f)) { c with
      paused := front ++ back
      history := .answered id q (.error f) :: c.history }).state.cache.entries =
        c.state.cache.entries
  /-- A call that comes while a fetch is under way, and is not cancelled, returns only what the call
  returns that began the fetch. -/
  joined : ∀ p ∈ c.paused, ∀ key, asksFor key p = true → ∀ c',
    Relation.ReflTransGen (StepSparing (· ≠ c.fresh)) (c.call Demand.work (.get key)) c' →
    ∀ r, .returned c.fresh r ∈ c'.history → .returned p.id r ∈ c'.history
  /-- A call that waits can go on, or there is a fetch under way. -/
  awake : ∀ (id : Nat) (α : Type) (turns : Nat) (until_ : Service → Bool) (next : Wake → Work α)
    (report : α → Option Handed), ⟨id, α, .wait turns until_ next, report⟩ ∈ c.paused →
    until_ c.state = true ∨ ∃ p ∈ c.paused, ∃ key, asksFor key p = true
  /-- When a call is cancelled as it waits, nothing happens but that it returns. -/
  cancelled : ∀ (front back : List (Paused Service Question Question.Answer Handed)) (id : Nat)
    (α : Type) (turns : Nat) (until_ : Service → Bool) (next : Wake → Work α)
    (report : α → Option Handed),
    c.paused = front ++ ⟨id, α, .wait turns until_ next, report⟩ :: back →
    run id report (next .cancelled) { c with paused := front ++ back } =
      { c with
        paused := front ++ back
        history := .returned id (some (.error .cancelled)) :: c.history }
  /-- Every request for a package is counted once. -/
  counted : c.state.cache.hits + c.state.cache.fetches + c.state.cache.shared =
    c.history.countP isGet

lemma asksFor_paused (key : PackageKey) (x : Caller) :
    asksFor key x.paused = decide (x.flight?.map Prod.fst = some key) := by
  cases x with
  | fetcher id key' ticket epoch =>
    show decide (PackageKey.mk key'.name key'.version = key) = decide (some key' = some key)
    simp
  | joiner id ticket => rfl

lemma countP_asksFor (key : PackageKey) (callers : List Caller) :
    (callers.map Caller.paused).countP (asksFor key) =
      ((callers.filterMap Caller.flight?).map Prod.fst).count key := by
  induction callers with
  | nil => rfl
  | cons x callers ih =>
    rw [List.map_cons, List.countP_cons, ih, asksFor_paused]
    cases x with
    | fetcher id key' ticket epoch => simp [Caller.flight?, List.count_cons]
    | joiner id ticket => simp [Caller.flight?, List.filterMap_cons]

lemma once_of_sound (hd : d.Of c) (hs : d.Sound) (key : PackageKey) :
    c.paused.countP (asksFor key) = if c.state.cache.inflight.contains key then 1 else 0 := by
  have hmem : key ∈ d.flights.map Prod.fst ↔ d.cache.inflight.contains key = true := by
    rw [Table.contains, Option.isSome_iff_exists]
    simp only [hs.flying.inflight, List.mem_map, Prod.exists, exists_and_right, exists_eq_right]
  rw [hd.paused, hd.cache, countP_asksFor]
  exact (List.Nodup.count hs.flying.keys).trans (if_congr hmem rfl rfl)

/-- Whoever asks for the files of a package is running its fetch. -/
lemma exists_fetcher (hd : d.Of c) {p : Paused Service Question Question.Answer Handed}
    (hp : p ∈ c.paused) {key : PackageKey} (hasks : asksFor key p = true) :
    ∃ ticket epoch, .fetcher p.id key ticket epoch ∈ d.callers := by
  rw [hd.paused] at hp
  obtain ⟨x, hx, rfl⟩ := List.mem_map.mp hp
  cases x with
  | fetcher id key' ticket epoch =>
    rw [asksFor_paused] at hasks
    obtain rfl : key' = key := Option.some.inj (of_decide_eq_true hasks)
    exact ⟨ticket, epoch, hx⟩
  | joiner id ticket => cases hasks

lemma joined_of_sound (hd : d.Of c) (hs : d.Sound)
    {p : Paused Service Question Question.Answer Handed} (hp : p ∈ c.paused) {key : PackageKey}
    (hasks : asksFor key p = true)
    (h : Relation.ReflTransGen (StepSparing (· ≠ c.fresh)) (c.call Demand.work (.get key)) c')
    {r : Handed} (hr : .returned c.fresh r ∈ c'.history) : .returned p.id r ∈ c'.history := by
  obtain ⟨ticket, epoch, hmem⟩ := exists_fetcher hd hp hasks
  have hflight : (key, ticket) ∈ d.flights := List.mem_filterMap.mpr ⟨_, hmem, rfl⟩
  have hentry := hs.flying.missing _ hflight
  have hin := (hs.flying.inflight key ticket).mpr hflight
  -- the call joins the fetch, and awaits it as long as it is not cancelled
  have hsound := hs.move (Move.join key ticket hentry hin : Move (fun _ => True) d _)
  rw [hd.fresh] at h hr
  obtain ⟨d', hd', hs', hawaits, htracks⟩ := awaits_of_sparing (of_join hd hentry hin) hsound
    (Or.inl List.mem_cons_self) (Or.inl ⟨key, epoch, List.mem_cons_of_mem _ hmem⟩) h
  rw [hd'.history] at hr ⊢
  exact hawaits.returned hs' htracks hr

lemma awake_of_sound (hd : d.Of c) (hs : d.Sound) {id turns : Nat} {α : Type}
    {until_ : Service → Bool} {next : Wake → Work α} {report : α → Option Handed}
    (hp : ⟨id, α, .wait turns until_ next, report⟩ ∈ c.paused) :
    until_ c.state = true ∨ ∃ p ∈ c.paused, ∃ key, asksFor key p = true := by
  obtain ⟨front, back, hp⟩ := List.append_of_mem hp
  obtain ⟨front', x, back', hc, -, hx, -⟩ := exists_caller hd hp
  cases x with
  | fetcher id key ticket epoch => cases hx
  | joiner id ticket =>
    cases hx
    obtain ⟨starter, ⟨key, epoch, hmem⟩ | ⟨r, hr, -⟩⟩ := hs.joined id ticket
      (hc ▸ List.mem_append_right _ List.mem_cons_self)
    · refine Or.inr ⟨_, hd.paused ▸ List.mem_map_of_mem hmem, key, ?_⟩
      rw [asksFor_paused]
      exact decide_eq_true rfl
    · refine Or.inl ?_
      show (c.state.cache.outcome? ticket).isSome = true
      rw [hd.cache, hr]
      rfl

/-- In whatever order calls come and take their turns, with whatever answers of the registry, and
whoever is cancelled, callers of a new cache are served by single flights. -/
theorem single_flight {s : Service} (hs : s.cache = {}) (h : Reachable Demand.work s c) :
    SingleFlight c := by
  obtain ⟨d, hd, hsound⟩ := served_of_reachable hs h
  refine ⟨once_of_sound hd hsound, ?_, ?_, ?_, ?_, ?_, ?_⟩
  · rw [hd.cache, hd.history]
    exact hsound.stocked.brought
  · intro front back id α q next report f hp
    obtain ⟨_, x, _, -, -, hx, -⟩ := exists_caller hd hp
    cases x with
    | joiner id ticket => cases hx
    | fetcher id key ticket epoch =>
      cases hx
      cases f <;> rfl
  · exact fun p hp key hasks c' hc' r hr => joined_of_sound hd hsound hp hasks hc' hr
  · exact fun id α turns until_ next report hp => awake_of_sound hd hsound hp
  · intro front back id α turns until_ next report hp
    obtain ⟨_, x, _, -, -, hx, -⟩ := exists_caller hd hp
    cases x with
    | fetcher id key ticket epoch => cases hx
    | joiner id ticket =>
      cases hx
      rfl
  · rw [hd.cache, hd.history]
    exact hsound.counted

end Moves

/-- A world with one package. -/
def libraryWorld : Scenario.World where
  service := { settings := {}, index := { path := "" } }
  store := .memory (.ofFiles [])
  catalog := Table.empty.insert "p" (Table.empty.insert "1.0.0" (Table.empty.insert "A.sol" ""))
  failures := []
  cues := []
  builder := ⟨0, some [], false⟩
  budget := 0

/-- Two calls for the package, the first of which is fetching it. -/
def readers : Callers :=
  (Crowd.call Demand.work { state := libraryWorld.service } (.get ⟨"p", "1.0.0"⟩)).call Demand.work
    (.get ⟨"p", "1.0.0"⟩)

/-- What has been returned, newest first. -/
def returns (c : Callers) : List (Nat × Option Node) :=
  c.history.filterMap fun
    | .returned id r => some (id, r.bind Except.toOption)
    | _ => none

/-- Two calls for one package share a fetch, and return the same. -/
theorem single_flight_readers : ∃ c, Reachable Demand.work libraryWorld.service c ∧
    returns c = [(1, some ⟨⟨"p", "1.0.0"⟩, Table.empty.insert "A.sol" ""⟩),
      (0, some ⟨⟨"p", "1.0.0"⟩, Table.empty.insert "A.sol" ""⟩)] ∧ SingleFlight c := by
  have hplay : (readers.play libraryWorld [1, 0]).map returns =
      some [(1, some ⟨⟨"p", "1.0.0"⟩, Table.empty.insert "A.sol" ""⟩),
        (0, some ⟨⟨"p", "1.0.0"⟩, Table.empty.insert "A.sol" ""⟩)] := by
    decide +kernel
  obtain ⟨c, hc, hreturns⟩ := Option.map_eq_some_iff.mp hplay
  have hreachable : Reachable Demand.work libraryWorld.service c :=
    (((reachable_start _ _).call _).call _).play hc
  exact ⟨c, hreachable, hreturns, single_flight rfl hreachable⟩

end SourceBundle.Cache
