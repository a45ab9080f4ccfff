/-
# Requests for several packages at once

When several packages are requested at once, a helper runs for each of them.  The helpers take
turns in any order, and their fetches come back in any order; when the last of them is through,
what has been gathered hangs only on what the cache holds and on what each fetch brings.
-/
import SourceBundle.Cache.Fetch
import SourceBundle.Proofs.Routine.Turns
import SourceBundle.Proofs.Table
import Mathlib.Data.List.Nodup

namespace SourceBundle

/-- The crowd of those who use the service. -/
abbrev Users (R P : Type) := Crowd Service Question Question.Answer R P

namespace Cache

open Crowd

/-- What becomes of a request for a package: it is in the cache, or it is fetched. -/
def supply (c : Cache) (fetch : PackageKey → Except Fault (Table String String)) (key : PackageKey) :
    Except Fault Node :=
  match c.entries.get? key with
  | some n => .ok n
  | none => (fetch key).map (Node.mk key)

variable {R P : Type} {fetch : PackageKey → Except Fault (Table String String)}
  {lost : List (Event Question Question.Answer R P) → Prop} {c : Cache} {key : PackageKey}

lemma supply_of_entry {n : Node} (h : c.entries.get? key = some n) : c.supply fetch key = .ok n := by
  rw [supply, h]

lemma supply_of_missing (h : c.entries.get? key = none) :
    c.supply fetch key = (fetch key).map (Node.mk key) := by
  rw [supply, h]

lemma supply_congr {c' : Cache} (h : c'.entries = c.entries) : c'.supply fetch = c.supply fetch := by
  funext k
  rw [supply, supply, h]

/-- A fetch that has brought what it was to bring changes nothing about what requests get. -/
lemma supply_settle (h : c.entries.get? key = none) (ticket epoch : Nat) :
    (c.settle key ticket epoch ((fetch key).map (Node.mk key))).supply fetch = c.supply fetch := by
  cases hf : fetch key with
  | error f => exact supply_congr rfl
  | ok files =>
    by_cases he : epoch = c.epoch
    · funext k
      by_cases hk : key = k
      · subst hk
        rw [supply_of_missing h, hf]
        refine supply_of_entry ?_
        simp [settle, Except.map, he]
      · have hget : (c.settle key ticket epoch (.ok ⟨key, files⟩)).entries.get? k = c.entries.get? k := by
          simp [settle, he, Table.get?_insert_ne _ hk]
        show (c.settle key ticket epoch (.ok ⟨key, files⟩)).supply fetch k = _
        rw [supply, supply, hget]
    · refine supply_congr ?_
      simp [settle, Except.map, he]

/-- What one fetch brings is of no concern to the requests for other packages. -/
lemma supply_update_of_ne {k : PackageKey} (h : k ≠ key) (a : Except Fault (Table String String)) :
    c.supply (Function.update fetch key a) k = c.supply fetch k := by
  rw [supply, supply, Function.update_of_ne h]

/-- What a fetch brings is of concern only as long as the package is missing. -/
lemma entry_eq_none_of_supply {f : Fault} (h : c.supply fetch key = .error f) :
    c.entries.get? key = none := by
  cases hentry : c.entries.get? key with
  | none => rfl
  | some n =>
    rw [supply_of_entry hentry] at h
    exact nomatch h

lemma get?_entries_settle {k : PackageKey} (h : key ≠ k) (ticket epoch : Nat)
    (outcome : Except Fault Node) :
    (c.settle key ticket epoch outcome).entries.get? k = c.entries.get? k := by
  cases outcome with
  | error f => rfl
  | ok n =>
    by_cases he : epoch = c.epoch
    · simp [settle, he, Table.get?_insert_ne _ h]
    · simp [settle, he]

lemma get?_inflight_settle {k : PackageKey} (h : key ≠ k) (ticket epoch : Nat)
    (outcome : Except Fault Node) :
    (c.settle key ticket epoch outcome).inflight.get? k = c.inflight.get? k := by
  by_cases ht : c.inflight.get? key = some ticket
  · simp [settle, ht, Table.get?_erase_ne _ h]
  · simp [settle, ht]

lemma inflight_settle_self {ticket : Nat} (h : c.inflight.get? key = some ticket) (epoch : Nat)
    (outcome : Except Fault Node) :
    (c.settle key ticket epoch outcome).inflight.get? key = none := by
  simp [settle, h]

lemma request_of_entry {n : Node} (h : c.entries.get? key = some n) :
    c.request key = (.hit n, { c with hits := c.hits + 1 }) := by
  rw [request, h]

lemma request_of_missing (h : c.entries.get? key = none) (hi : c.inflight.get? key = none) :
    c.request key = (.fetch c.fetches c.epoch,
      { c with inflight := c.inflight.insert key c.fetches, fetches := c.fetches + 1 }) := by
  rw [request, h, hi]

/-! ## Helpers -/

/-- A helper that is to deliver a package. -/
structure Errand where
  /-- Its number. -/
  id : Nat
  /-- The package. -/
  key : PackageKey
  /-- The number of the delivery. -/
  delivery : Nat
  /-- Once it fetches: the number of the fetch, and how often the cache had been cleared. -/
  fetch? : Option (Nat × Nat) := none

/-- Deliver how a request ended. -/
def handOver (key : PackageKey) (delivery : Nat) (outcome : Except Fault Node) : Work Unit :=
  Routine.modify fun s => { s with delivered := ((key, delivery), outcome) :: s.delivered }

/-- How a helper goes on. -/
def Errand.rest (e : Errand) : Work Unit :=
  match e.fetch? with
  | none =>
    .wait 0 (fun _ => true) fun
      | .ready => deliver e.key e.delivery
      | .cancelled => .done ()
  | some (ticket, epoch) =>
    .ask (.files e.key.name e.key.version) fun a =>
      (finish e.key ticket epoch a).run.bind (handOver e.key e.delivery)

/-- What a helper is to deliver, and where. -/
def Errand.job (e : Errand) : PackageKey × Nat := (e.key, e.delivery)

/-- A helper among those that pause. -/
def Errand.paused (e : Errand) : Paused Service Question Question.Answer P :=
  ⟨e.id, Unit, e.rest, fun _ => none⟩

/-- How many turns some helpers need: each of them one to begin, if it has not begun, and one more if
it has to fetch its package. -/
def turnsLeft (es : List Errand) : Nat := es.length + es.countP fun e => e.fetch?.isNone

lemma turnsLeft_perm {es es' : List Errand} (h : es.Perm es') : turnsLeft es = turnsLeft es' := by
  rw [turnsLeft, turnsLeft, h.length_eq, h.countP_eq]

lemma turnsLeft_lt (e : Errand) (es : List Errand) : turnsLeft es < turnsLeft (e :: es) := by
  simp only [turnsLeft, List.countP_cons, List.length_cons]
  omega

lemma run_deliver_of_entry {w : Users R P} {n : Node} (id delivery : Nat)
    (h : w.state.cache.entries.get? key = some n) :
    run id (fun _ => none) (deliver key delivery) w =
      { w with state := { w.state with
          cache := { w.state.cache with hits := w.state.cache.hits + 1 }
          delivered := ((key, delivery), .ok n) :: w.state.delivered } } := by
  have hr := request_of_entry h
  simp [deliver, getOrFetch, Routine.modifyGet, Routine.modify, Routine.bind, Crowd.run, hr]

lemma run_deliver_of_missing {w : Users R P} {e : Errand}
    (h : w.state.cache.entries.get? e.key = none) (hi : w.state.cache.inflight.get? e.key = none) :
    run e.id (fun _ => none) (deliver e.key e.delivery) w =
      { w with
        state := { w.state with cache := (w.state.cache.request e.key).2 }
        paused := Errand.paused { e with
          fetch? := some (w.state.cache.fetches, w.state.cache.epoch) } :: w.paused
        history := .put e.id (.files e.key.name e.key.version) :: w.history } := by
  have hr := request_of_missing h hi
  simp [deliver, getOrFetch, Routine.modifyGet, Routine.bind, Crowd.run, hr]
  rfl

lemma run_finish {w : Users R P} (id ticket epoch delivery : Nat)
    (answer : Except Fault (Table String String)) :
    ∃ journal, run id (fun _ => none)
      ((finish key ticket epoch answer).run.bind (handOver key delivery)) w =
        { w with state := { w.state with
            cache := w.state.cache.settle key ticket epoch (answer.map (Node.mk key))
            journal := journal
            delivered := ((key, delivery), answer.map (Node.mk key)) :: w.state.delivered } } := by
  cases answer with
  | ok files => exact ⟨_, rfl⟩
  | error f => cases f <;> exact ⟨_, rfl⟩

/-! ## Helpers on their way -/

/-- The helpers for some jobs, some of which are through: the packages are requested from a service
as it was when the helpers were started, and those that are through have delivered. -/
structure Underway (fetch : PackageKey → Except Fault (Table String String)) (s₀ : Service)
    (jobs : List (PackageKey × Nat)) (es : List Errand) (s : Service) : Prop where
  rest : s = { s₀ with cache := s.cache, journal := s.journal, delivered := s.delivered }
  supply : s.cache.supply fetch = s₀.cache.supply fetch
  fetches : ∀ e ∈ es, ∀ ticket epoch, e.fetch? = some (ticket, epoch) →
    s.cache.entries.get? e.key = none ∧ s.cache.inflight.get? e.key = some ticket
  inflight : ∀ k, s.cache.inflight.get? k ≠ none → ∃ e ∈ es, e.key = k ∧ e.fetch? ≠ none
  through : ∀ j ∈ jobs, (∃ e ∈ es, e.job = j) ∨
    s.delivered.lookup j = some (s₀.cache.supply fetch j.1)
  pending : ∀ e ∈ es, s.delivered.lookup e.job = none
  jobs : ∀ e ∈ es, e.job ∈ jobs
  keys : (es.map Errand.key).Nodup
  numbers : ∀ d ∈ s.delivered, d.1.2 < s.deliveries
  future : ∀ e ∈ es, e.delivery < s.deliveries

namespace Underway

variable {s₀ s : Service} {jobs : List (PackageKey × Nat)} {e : Errand} {es es' : List Errand}

lemma perm (hu : Underway fetch s₀ jobs es s) (hp : es.Perm es') : Underway fetch s₀ jobs es' s where
  rest := hu.rest
  supply := hu.supply
  fetches e he := hu.fetches e (hp.mem_iff.mpr he)
  inflight k hk := by
    obtain ⟨e, he, hek⟩ := hu.inflight k hk
    exact ⟨e, hp.mem_iff.mp he, hek⟩
  through j hj := by
    rcases hu.through j hj with ⟨e, he, hej⟩ | hd
    · exact Or.inl ⟨e, hp.mem_iff.mp he, hej⟩
    · exact Or.inr hd
  pending e he := hu.pending e (hp.mem_iff.mpr he)
  jobs e he := hu.jobs e (hp.mem_iff.mpr he)
  keys := (hp.map _).nodup_iff.mp hu.keys
  numbers := hu.numbers
  future e he := hu.future e (hp.mem_iff.mpr he)

lemma key_ne (hu : Underway fetch s₀ jobs (e :: es) s) {e' : Errand} (he : e' ∈ es) :
    e.key ≠ e'.key := by
  intro heq
  have hnot := (List.nodup_cons.mp hu.keys).1
  rw [heq] at hnot
  exact hnot (List.mem_map_of_mem he)

lemma job_ne (hu : Underway fetch s₀ jobs (e :: es) s) {e' : Errand} (he : e' ∈ es) :
    e'.job ≠ e.job :=
  fun heq => hu.key_ne he (congrArg Prod.fst heq).symm

/-- A helper hands over what its request was to get, after a change of the cache that touches no
other package. -/
lemma handOver (hu : Underway fetch s₀ jobs (e :: es) s) (c : Cache) (journal : List LogRecord)
    (hsupply : c.supply fetch = s.cache.supply fetch)
    (hentries : ∀ k, e.key ≠ k → c.entries.get? k = s.cache.entries.get? k)
    (hinflight : ∀ k, e.key ≠ k → c.inflight.get? k = s.cache.inflight.get? k)
    (hself : c.inflight.get? e.key = none) :
    Underway fetch s₀ jobs es { s with
      cache := c, journal := journal
      delivered := (e.job, s.cache.supply fetch e.key) :: s.delivered } where
  rest := by
    rw [hu.rest]
  supply := hsupply.trans hu.supply
  fetches e' he' ticket epoch hf := by
    have hne := hu.key_ne he'
    obtain ⟨h, hi⟩ := hu.fetches e' (List.mem_cons_of_mem e he') ticket epoch hf
    exact ⟨(hentries _ hne).trans h, (hinflight _ hne).trans hi⟩
  inflight k hk := by
    have hne : e.key ≠ k := by
      rintro rfl
      exact hk hself
    rw [hinflight k hne] at hk
    obtain ⟨e', he', hek, hf⟩ := hu.inflight k hk
    rcases List.mem_cons.mp he' with rfl | he'
    · exact absurd hek hne
    · exact ⟨e', he', hek, hf⟩
  through j hj := by
    by_cases hd : e.job = j
    · right
      rcases hu.through j hj with ⟨e', he', rfl⟩ | hdone
      · rcases List.mem_cons.mp he' with rfl | he'
        · simp [Errand.job, hu.supply]
        · exact absurd hd.symm (hu.job_ne he')
      · have hpending := hu.pending e List.mem_cons_self
        rw [hd, hdone] at hpending
        cases hpending
    · rcases hu.through j hj with ⟨e', he', rfl⟩ | hdone
      · rcases List.mem_cons.mp he' with rfl | he'
        · exact absurd rfl hd
        · exact Or.inl ⟨e', he', rfl⟩
      · right
        have hbeq : (j == e.job) = false := beq_eq_false_iff_ne.mpr fun h => hd h.symm
        rw [List.lookup_cons, hbeq]
        exact hdone
  pending e' he' := by
    have hbeq : (e'.job == e.job) = false := beq_eq_false_iff_ne.mpr (hu.job_ne he')
    rw [List.lookup_cons, hbeq]
    exact hu.pending e' (List.mem_cons_of_mem e he')
  jobs e' he' := hu.jobs e' (List.mem_cons_of_mem e he')
  keys := (List.nodup_cons.mp hu.keys).2
  numbers := by
    intro d hd
    rcases List.mem_cons.mp hd with rfl | hd
    · exact hu.future e List.mem_cons_self
    · exact hu.numbers d hd
  future e' he' := hu.future e' (List.mem_cons_of_mem e he')

/-- The package of a helper that has not begun to fetch is not being fetched. -/
lemma inflight_eq_none (hu : Underway fetch s₀ jobs (e :: es) s) (he : e.fetch? = none) :
    s.cache.inflight.get? e.key = none := by
  by_contra hne
  obtain ⟨e', he', hek, hf⟩ := hu.inflight e.key hne
  rcases List.mem_cons.mp he' with rfl | he'
  · exact hf he
  · exact hu.key_ne he' hek.symm

/-- A helper finds its package in the cache. -/
lemma hit (hu : Underway fetch s₀ jobs (e :: es) s) {n : Node} (he : e.fetch? = none)
    (h : s.cache.entries.get? e.key = some n) :
    Underway fetch s₀ jobs es { s with
      cache := { s.cache with hits := s.cache.hits + 1 }
      delivered := (e.job, .ok n) :: s.delivered } := by
  have hu' := hu.handOver { s.cache with hits := s.cache.hits + 1 } s.journal (supply_congr rfl)
    (fun _ _ => rfl) (fun _ _ => rfl) (hu.inflight_eq_none he)
  rwa [supply_of_entry h] at hu'

/-- A helper begins to fetch its package. -/
lemma begin (hu : Underway fetch s₀ jobs (e :: es) s) (he : e.fetch? = none)
    (h : s.cache.entries.get? e.key = none) :
    Underway fetch s₀ jobs ({ e with fetch? := some (s.cache.fetches, s.cache.epoch) } :: es)
      { s with cache := (s.cache.request e.key).2 } := by
  rw [request_of_missing h (hu.inflight_eq_none he)]
  refine ⟨?_, ?_, ?_, ?_, ?_, ?_, ?_, hu.keys, hu.numbers, ?_⟩
  · rw [hu.rest]
  · exact (supply_congr rfl).trans hu.supply
  · intro e' he' ticket epoch hf
    rcases List.mem_cons.mp he' with rfl | he'
    · obtain ⟨rfl, rfl⟩ := Prod.mk.inj (Option.some.inj hf)
      exact ⟨h, Table.get?_insert_self _ _ _⟩
    · have hne := hu.key_ne he'
      obtain ⟨hentry, hin⟩ := hu.fetches e' (List.mem_cons_of_mem e he') ticket epoch hf
      exact ⟨hentry, (Table.get?_insert_ne _ hne _).trans hin⟩
  · intro k hk
    by_cases hek : e.key = k
    · exact ⟨_, List.mem_cons_self, hek, by simp⟩
    · rw [Table.get?_insert_ne _ hek] at hk
      obtain ⟨e', he', hek', hf⟩ := hu.inflight k hk
      rcases List.mem_cons.mp he' with rfl | he'
      · exact absurd hek' hek
      · exact ⟨e', List.mem_cons_of_mem _ he', hek', hf⟩
  · intro j hj
    rcases hu.through j hj with ⟨e', he', hej⟩ | hdone
    · left
      rcases List.mem_cons.mp he' with rfl | he'
      · exact ⟨_, List.mem_cons_self, hej⟩
      · exact ⟨e', List.mem_cons_of_mem _ he', hej⟩
    · exact Or.inr hdone
  · exact List.forall_mem_cons.mpr (List.forall_mem_cons.mp hu.pending)
  · exact List.forall_mem_cons.mpr (List.forall_mem_cons.mp hu.jobs)
  · exact List.forall_mem_cons.mpr (List.forall_mem_cons.mp hu.future)

/-- A helper gets what its fetch was to bring. -/
lemma settle (hu : Underway fetch s₀ jobs (e :: es) s) {ticket epoch : Nat}
    (he : e.fetch? = some (ticket, epoch)) (journal : List LogRecord) :
    Underway fetch s₀ jobs es { s with
      cache := s.cache.settle e.key ticket epoch ((fetch e.key).map (Node.mk e.key))
      journal := journal
      delivered := (e.job, (fetch e.key).map (Node.mk e.key)) :: s.delivered } := by
  obtain ⟨h, hi⟩ := hu.fetches e List.mem_cons_self ticket epoch he
  rw [← supply_of_missing h]
  refine hu.handOver _ journal ?_ (fun k hk => get?_entries_settle hk _ _ _)
    (fun k hk => get?_inflight_settle hk _ _ _) (inflight_settle_self hi _ _)
  rw [supply_of_missing h]
  exact supply_settle h ticket epoch

/-- Until a fetch has ended, nothing hangs on what it is to bring. -/
lemma revise (hu : Underway fetch s₀ jobs (e :: es) s) (hjobs : (jobs.map Prod.fst).Nodup)
    {ticket epoch : Nat} (he : e.fetch? = some (ticket, epoch)) {f : Fault}
    (hf : fetch e.key = .error f) (a : Except Fault (Table String String)) :
    Underway (Function.update fetch e.key a) s₀ jobs (e :: es) s := by
  obtain ⟨hmissing, -⟩ := hu.fetches e List.mem_cons_self ticket epoch he
  have hmissing₀ : s₀.cache.entries.get? e.key = none := by
    have hopen : s₀.cache.supply fetch e.key = .error f := by
      rw [← hu.supply, supply_of_missing hmissing, hf]
      rfl
    exact entry_eq_none_of_supply hopen
  refine { hu with supply := ?_, through := fun j hj => ?_ }
  · funext k
    by_cases hk : k = e.key
    · subst hk
      rw [supply_of_missing hmissing, supply_of_missing hmissing₀]
    · rw [supply_update_of_ne hk, supply_update_of_ne hk, hu.supply]
  · by_cases hk : j.1 = e.key
    · -- the packages of the jobs are different, so this is the job of the fetch
      left
      have hmem := hu.jobs e List.mem_cons_self
      exact ⟨e, List.mem_cons_self, List.inj_on_of_nodup_map hjobs hmem hj hk.symm⟩
    · rw [supply_update_of_ne hk]
      exact hu.through j hj

end Underway

/-! ## Helpers in a crowd -/

/-- What the history tells of the requests for some packages: of nothing but the fetches, and of
every fetch that has failed. -/
structure Told (fetch : PackageKey → Except Fault (Table String String)) (c : Cache)
    (keys : List PackageKey) (es : List Errand) (news : List (Event Question Question.Answer R P)) :
    Prop where
  only : ∀ e ∈ news, ∃ id, ∃ key ∈ keys, c.supply fetch key = (fetch key).map (Node.mk key) ∧
    (e = .put id (.files key.name key.version) ∨
      e = .answered id (.files key.name key.version) (fetch key))
  failed : ∀ key ∈ keys, ∀ f, c.supply fetch key = .error f →
    (∃ e ∈ es, e.key = key) ∨
      ∃ id, .answered id (.files key.name key.version) (.error f) ∈ news

/-- A crowd in which one waits for helpers. -/
structure Bustling (fetch : PackageKey → Except Fault (Table String String)) (s₀ : Service)
    (p : Paused Service Question Question.Answer P) (jobs : List (PackageKey × Nat))
    (es : List Errand) (w : Users R P) : Prop where
  state : Underway fetch s₀ jobs es w.state
  paused : w.paused.Perm (p :: es.map Errand.paused)

/-- A crowd in which one waits for helpers, with what the history tells of them. -/
structure Gathering (fetch : PackageKey → Except Fault (Table String String)) (s₀ : Service)
    (h₀ : List (Event Question Question.Answer R P)) (p : Paused Service Question Question.Answer P)
    (jobs : List (PackageKey × Nat)) (es : List Errand) (w : Users R P) : Prop
    extends Bustling fetch s₀ p jobs es w where
  history : ∃ news, w.history = news ++ h₀ ∧ Told fetch s₀.cache (jobs.map Prod.fst) es news

namespace Bustling

variable {s₀ : Service} {p : Paused Service Question Question.Answer P}
  {jobs : List (PackageKey × Nat)} {e : Errand} {es es' : List Errand} {w w' : Users R P}
  {others : List (Paused Service Question Question.Answer P)}

lemma perm (hb : Bustling fetch s₀ p jobs es w) (hp : es.Perm es') :
    Bustling fetch s₀ p jobs es' w :=
  ⟨hb.state.perm hp, hb.paused.trans ((hp.map _).cons p)⟩

/-- When one of the helpers goes on, the others pause, and so does the one who waits for them. -/
lemma others_perm (hb : Bustling fetch s₀ p jobs (e :: es) w)
    (ho : w.paused.Perm (e.paused :: others)) : others.Perm (p :: es.map Errand.paused) := by
  have hperm : (e.paused :: others).Perm (e.paused :: p :: es.map Errand.paused) :=
    ho.symm.trans (hb.paused.trans (List.Perm.swap _ _ _))
  exact hperm.cons_inv

/-- A helper begins: it delivers its package from the cache, or begins to fetch it. -/
lemma begin (hb : Bustling fetch s₀ p jobs (e :: es) w) (he : e.fetch? = none)
    (ho : w.paused.Perm (e.paused :: others)) :
    ∃ es', turnsLeft es' < turnsLeft (e :: es) ∧ es'.map Errand.key ⊆ (e :: es).map Errand.key ∧
      Bustling fetch s₀ p jobs es' (run e.id (fun _ => none) (deliver e.key e.delivery)
        { w with paused := others }) := by
  have hperm := hb.others_perm ho
  cases hentry : w.state.cache.entries.get? e.key with
  | some n =>
    refine ⟨es, turnsLeft_lt e es, List.subset_cons_self _ _, ?_⟩
    rw [run_deliver_of_entry (w := { w with paused := others }) _ _ hentry]
    exact ⟨hb.state.hit he hentry, hperm⟩
  | none =>
    refine ⟨{ e with fetch? := some (w.state.cache.fetches, w.state.cache.epoch) } :: es, ?_,
      List.Subset.refl _, ?_⟩
    · simp [turnsLeft, he]
    · rw [run_deliver_of_missing (w := { w with paused := others }) hentry
        (hb.state.inflight_eq_none he)]
      exact ⟨hb.state.begin he hentry, (hperm.cons _).trans (List.Perm.swap _ _ _)⟩

/-- A fetch ends: its helper delivers what it has brought. -/
lemma settle (hb : Bustling fetch s₀ p jobs (e :: es) w) {ticket epoch : Nat}
    (he : e.fetch? = some (ticket, epoch)) (ho : w.paused.Perm (e.paused :: others)) :
    Bustling fetch s₀ p jobs es (run e.id (fun _ => none)
      ((finish e.key ticket epoch (fetch e.key)).run.bind (Cache.handOver e.key e.delivery))
      { w with
        paused := others
        history := .answered e.id (.files e.key.name e.key.version) (fetch e.key) :: w.history }) := by
  obtain ⟨journal, hrun⟩ := @run_finish R P e.key _ e.id ticket epoch e.delivery (fetch e.key)
  rw [hrun]
  exact ⟨hb.state.settle he journal, hb.others_perm ho⟩

/-- Whoever takes a turn while helpers are on their way is one of them: it begins, or its fetch
comes back with some answer. -/
lemma turn_cases {turns : Nat} {next : Wake → Work p.Result}
    (hp : p.rest = .wait turns (allDelivered jobs) next)
    (hb : Bustling fetch s₀ p jobs es w) (hne : es ≠ []) (ht : Turn w w') :
    ∃ e es' others, es.Perm (e :: es') ∧ w.paused.Perm (e.paused :: others) ∧
      ((e.fetch? = none ∧ w' = run e.id (fun _ => none) (deliver e.key e.delivery)
          { w with paused := others }) ∨
        ∃ ticket epoch a, e.fetch? = some (ticket, epoch) ∧ w' = run e.id (fun _ => none)
          ((finish e.key ticket epoch a).run.bind (Cache.handOver e.key e.delivery))
          { w with
            paused := others
            history := .answered e.id (.files e.key.name e.key.version) a :: w.history }) := by
  have hsplit : ∀ e ∈ es, ∃ es', es.Perm (e :: es') := by
    intro e he
    obtain ⟨front, back, rfl⟩ := List.append_of_mem he
    exact ⟨front ++ back, List.perm_middle⟩
  cases ht with
  | @answer front back id α q next' report a hpaused =>
    have ho : w.paused.Perm (⟨id, α, .ask q next', report⟩ :: (front ++ back)) := by
      rw [hpaused]
      exact List.perm_middle
    have hmem := hb.paused.mem_iff.mp (ho.mem_iff.mpr List.mem_cons_self)
    rcases List.mem_cons.mp hmem with rfl | hmem
    · cases hp
    · obtain ⟨e, he, heq⟩ := List.mem_map.mp hmem
      obtain ⟨es', hperm⟩ := hsplit e he
      obtain ⟨i, key, delivery, fetch?⟩ := e
      cases fetch? with
      | none => cases heq
      | some begun =>
        obtain ⟨ticket, epoch⟩ := begun
        cases heq
        exact ⟨_, es', _, hperm, ho, Or.inr ⟨ticket, epoch, a, rfl, rfl⟩⟩
  | @wake front back id α turns' until_ next' report hpaused hu =>
    have ho : w.paused.Perm (⟨id, α, .wait turns' until_ next', report⟩ :: (front ++ back)) := by
      rw [hpaused]
      exact List.perm_middle
    have hmem := hb.paused.mem_iff.mp (ho.mem_iff.mpr List.mem_cons_self)
    rcases List.mem_cons.mp hmem with rfl | hmem
    · -- the one who waits does not go on while a delivery is missing
      cases hp
      obtain ⟨e, he⟩ := List.exists_mem_of_ne_nil es hne
      have hmissing := hb.state.pending e he
      have hdone := List.all_eq_true.mp hu e.job (hb.state.jobs e he)
      rw [hmissing] at hdone
      cases hdone
    · obtain ⟨e, he, heq⟩ := List.mem_map.mp hmem
      obtain ⟨es', hperm⟩ := hsplit e he
      obtain ⟨i, key, delivery, fetch?⟩ := e
      cases fetch? with
      | some begun => cases heq
      | none =>
        cases heq
        exact ⟨_, es', _, hperm, ho, Or.inl ⟨rfl, rfl⟩⟩

/-- While helpers are on their way, one of them can take a turn. -/
lemma exists_turn (hb : Bustling fetch s₀ p jobs es w) (hne : es ≠ []) : ∃ w', Turn w w' := by
  obtain ⟨e, he⟩ := List.exists_mem_of_ne_nil es hne
  have hmem : e.paused ∈ w.paused :=
    hb.paused.mem_iff.mpr (List.mem_cons_of_mem p (List.mem_map_of_mem he))
  obtain ⟨front, back, hw⟩ := List.append_of_mem hmem
  obtain ⟨i, key, delivery, fetch?⟩ := e
  cases fetch? with
  | none => exact ⟨_, .wake hw rfl⟩
  | some begun => exact ⟨_, .answer (.error .cancelled) hw⟩

/-- When all helpers are through, the one who waits for them is alone and goes on. -/
lemma goes_on {α : Type} {id turns : Nat} {next : Wake → Work α} {report : α → Option P}
    {goal : Users R P → Prop}
    (hb : Bustling fetch s₀ ⟨id, α, .wait turns (allDelivered jobs) next, report⟩ jobs [] w)
    (h : Inevitable goal (run id report (next .ready) { w with paused := [] })) :
    Inevitable goal w := by
  have hdone : allDelivered jobs w.state = true := by
    refine List.all_eq_true.mpr fun j hj => ?_
    rcases hb.state.through j hj with ⟨e, he, -⟩ | hd
    · cases he
    · rw [hd]
      rfl
  have hw : w = { w with paused := ⟨id, α, .wait turns (allDelivered jobs) next, report⟩ :: [] } := by
    rw [← List.perm_singleton.mp hb.paused]
  rw [hw]
  have hrest : Resting ({ w with paused := [] } : Users R P) := nofun
  exact Inevitable.wake hrest hdone h

/-- What the helpers still have to fetch is open: so far a failure is reckoned with. -/
def Open (fetch : PackageKey → Except Fault (Table String String)) (es : List Errand) : Prop :=
  ∀ e ∈ es, ∃ f, fetch e.key = .error f

/-- Whatever a fetch brings that is still open, the others stay open. -/
lemma Open.tail (ho : Open fetch (e :: es)) (hkeys : ((e :: es).map Errand.key).Nodup)
    (a : Except Fault (Table String String)) : Open (Function.update fetch e.key a) es := by
  intro e' he'
  have hne : e'.key ≠ e.key := by
    intro heq
    refine (List.nodup_cons.mp hkeys).1 ?_
    rw [← heq]
    exact List.mem_map_of_mem he'
  rw [Function.update_of_ne hne]
  exact ho e' (List.mem_cons_of_mem e he')

/-- Whatever fetches bring, and in whatever order, all helpers get through. -/
theorem inevitable_any {turns : Nat} {next : Wake → Work p.Result}
    (hp : p.rest = .wait turns (allDelivered jobs) next) (hjobs : (jobs.map Prod.fst).Nodup)
    (hb : Bustling fetch s₀ p jobs es w) (hopen : Open fetch es) :
    Inevitable (fun w' => ∃ fetch', Bustling fetch' s₀ p jobs [] w') w := by
  induction hn : turnsLeft es using Nat.strongRecOn generalizing fetch es w with
  | _ n ih =>
    subst hn
    by_cases hne : es = []
    · subst hne
      exact .now ⟨fetch, hb⟩
    refine .later (hb.exists_turn hne) fun w' ht => ?_
    obtain ⟨e, es', others, hperm, ho, ⟨he, rfl⟩ | ⟨ticket, epoch, a, he, rfl⟩⟩ :=
      hb.turn_cases hp hne ht
    · obtain ⟨es'', hless, hsub, hb'⟩ := (hb.perm hperm).begin he ho
      refine ih _ (by rwa [turnsLeft_perm hperm]) hb' (fun e' he' => ?_) rfl
      obtain ⟨e₀, he₀, hkey⟩ := List.mem_map.mp (hsub (List.mem_map_of_mem he'))
      exact hkey ▸ hopen e₀ (hperm.mem_iff.mpr he₀)
    · have hb₁ := hb.perm hperm
      have hopen₁ : Open fetch (e :: es') := fun e' he' => hopen e' (hperm.mem_iff.mpr he')
      obtain ⟨f, hf⟩ := hopen₁ e List.mem_cons_self
      have hb₂ : Bustling (Function.update fetch e.key a) s₀ p jobs (e :: es') w :=
        ⟨hb₁.state.revise hjobs he hf a, hb₁.paused⟩
      have hb₃ := hb₂.settle he ho
      rw [Function.update_self] at hb₃
      refine ih _ ?_ hb₃ (hopen₁.tail hb₁.state.keys a) rfl
      rw [turnsLeft_perm hperm]
      exact turnsLeft_lt e es'

/-- One who waits for helpers inevitably goes on, whatever the fetches bring. -/
theorem brings_any {α : Type} {id turns : Nat} {next : Wake → Work α} {post : α → Users R P → Prop}
    (hb : ∀ p, Bustling fetch s₀ p jobs es { w with paused := p :: w.paused })
    (hjobs : (jobs.map Prod.fst).Nodup) (hopen : Open fetch es)
    (hnext : ∀ fetch' w', w'.paused = [] → Underway fetch' s₀ jobs [] w'.state →
      Brings lost id (next .ready) w' post) :
    Brings lost id (.wait turns (allDelivered jobs) next) w post := by
  intro β f report
  refine ((hb ⟨id, β, .wait turns (allDelivered jobs) fun v => (next v).bind f,
    report⟩).inevitable_any rfl hjobs hopen).trans ?_
  rintro w' ⟨fetch', hb'⟩
  exact hb'.goes_on (hnext fetch' { w' with paused := [] } rfl hb'.state β f report)

end Bustling

namespace Gathering

variable {s₀ : Service} {h₀ : List (Event Question Question.Answer R P)}
  {p : Paused Service Question Question.Answer P} {jobs : List (PackageKey × Nat)} {e : Errand}
  {es es' : List Errand} {w w' : Users R P} {others : List (Paused Service Question Question.Answer P)}

lemma perm (hg : Gathering fetch s₀ h₀ p jobs es w) (hp : es.Perm es') :
    Gathering fetch s₀ h₀ p jobs es' w where
  toBustling := hg.toBustling.perm hp
  history := by
    obtain ⟨news, hh, ht⟩ := hg.history
    refine ⟨news, hh, ht.only, fun key hkey f hf => ?_⟩
    rcases ht.failed key hkey f hf with ⟨e, he, hek⟩ | hmem
    · exact Or.inl ⟨e, hp.mem_iff.mp he, hek⟩
    · exact Or.inr hmem

/-- A helper begins: it delivers its package from the cache, or begins to fetch it. -/
lemma begin (hg : Gathering fetch s₀ h₀ p jobs (e :: es) w) (he : e.fetch? = none)
    (ho : w.paused.Perm (e.paused :: others)) :
    ∃ es', turnsLeft es' < turnsLeft (e :: es) ∧
      Gathering fetch s₀ h₀ p jobs es' (run e.id (fun _ => none) (deliver e.key e.delivery)
        { w with paused := others }) := by
  obtain ⟨news, hh, ht⟩ := hg.history
  have hperm := hg.others_perm ho
  cases hentry : w.state.cache.entries.get? e.key with
  | some n =>
    refine ⟨es, turnsLeft_lt e es, ?_⟩
    rw [run_deliver_of_entry (w := { w with paused := others }) _ _ hentry]
    refine ⟨⟨hg.state.hit he hentry, hperm⟩, news, hh, ht.only, fun key hkey f hf => ?_⟩
    rcases ht.failed key hkey f hf with ⟨e', he', rfl⟩ | hmem
    · rcases List.mem_cons.mp he' with rfl | he'
      · -- what is in the cache has not failed
        rw [← hg.state.supply, supply_of_entry hentry] at hf
        cases hf
      · exact Or.inl ⟨e', he', rfl⟩
    · exact Or.inr hmem
  | none =>
    have hin := hg.state.inflight_eq_none he
    refine ⟨{ e with fetch? := some (w.state.cache.fetches, w.state.cache.epoch) } :: es, ?_, ?_⟩
    · simp [turnsLeft, he]
    · rw [run_deliver_of_missing (w := { w with paused := others }) hentry hin]
      refine ⟨⟨hg.state.begin he hentry, (hperm.cons _).trans (List.Perm.swap _ _ _)⟩, ?_⟩
      refine ⟨.put e.id (.files e.key.name e.key.version) :: news, ?_, ?_, fun key hkey f hf => ?_⟩
      · show _ :: w.history = _
        rw [hh]
        rfl
      · refine List.forall_mem_cons.mpr ⟨⟨e.id, e.key, ?_, ?_, Or.inl rfl⟩, ht.only⟩
        · exact List.mem_map_of_mem (f := Prod.fst) (hg.state.jobs e List.mem_cons_self)
        · rw [← hg.state.supply, supply_of_missing hentry]
      · rcases ht.failed key hkey f hf with ⟨e', he', rfl⟩ | ⟨id, hmem⟩
        · left
          rcases List.mem_cons.mp he' with rfl | he'
          · exact ⟨_, List.mem_cons_self, rfl⟩
          · exact ⟨e', List.mem_cons_of_mem _ he', rfl⟩
        · exact Or.inr ⟨id, List.mem_cons_of_mem _ hmem⟩

/-- A fetch ends: its helper delivers what it has brought. -/
lemma settle (hg : Gathering fetch s₀ h₀ p jobs (e :: es) w) {ticket epoch : Nat}
    (he : e.fetch? = some (ticket, epoch)) (ho : w.paused.Perm (e.paused :: others)) :
    Gathering fetch s₀ h₀ p jobs es (run e.id (fun _ => none)
      ((finish e.key ticket epoch (fetch e.key)).run.bind (Cache.handOver e.key e.delivery))
      { w with
        paused := others
        history := .answered e.id (.files e.key.name e.key.version) (fetch e.key) :: w.history }) := by
  obtain ⟨news, hh, ht⟩ := hg.history
  obtain ⟨hmissing, -⟩ := hg.state.fetches e List.mem_cons_self ticket epoch he
  have hsupply : s₀.cache.supply fetch e.key = (fetch e.key).map (Node.mk e.key) := by
    rw [← hg.state.supply, supply_of_missing hmissing]
  obtain ⟨journal, hrun⟩ := @run_finish R P e.key _ e.id ticket epoch e.delivery (fetch e.key)
  rw [hrun]
  refine ⟨⟨hg.state.settle he journal, hg.others_perm ho⟩, ?_⟩
  refine ⟨.answered e.id (.files e.key.name e.key.version) (fetch e.key) :: news, ?_, ?_,
    fun key hkey f hf => ?_⟩
  · show _ :: w.history = _
    rw [hh]
    rfl
  · refine List.forall_mem_cons.mpr ⟨⟨e.id, e.key, ?_, hsupply, Or.inr rfl⟩, ht.only⟩
    exact List.mem_map_of_mem (f := Prod.fst) (hg.state.jobs e List.mem_cons_self)
  · rcases ht.failed key hkey f hf with ⟨e', he', rfl⟩ | ⟨id, hmem⟩
    · rcases List.mem_cons.mp he' with rfl | he'
      · right
        refine ⟨e'.id, ?_⟩
        have hfailed : fetch e'.key = .error f := by
          rw [hsupply] at hf
          cases hfetch : fetch e'.key with
          | ok files => rw [hfetch] at hf; cases hf
          | error g => rw [hfetch] at hf; cases hf; rfl
        rw [hfailed]
        exact List.mem_cons_self
      · exact Or.inl ⟨e', he', rfl⟩
    · exact Or.inr ⟨id, List.mem_cons_of_mem _ hmem⟩

/-- Whoever takes a turn while helpers are on their way, fewer turns are left to take, unless a
fetch has brought something else than it was to bring. -/
theorem turn {turns : Nat} {next : Wake → Work p.Result} (hlost : Final lost)
    (hfetch : ∀ id key (a : Except Fault (Table String String)) h, a ≠ fetch key →
      lost (.answered id (.files key.name key.version) a :: h))
    (hp : p.rest = .wait turns (allDelivered jobs) next)
    (hg : Gathering fetch s₀ h₀ p jobs es w) (hne : es ≠ []) (ht : Turn w w') :
    lost w'.history ∨ ∃ es', turnsLeft es' < turnsLeft es ∧
      Gathering fetch s₀ h₀ p jobs es' w' := by
  obtain ⟨e, es', others, hperm, ho, ⟨he, rfl⟩ | ⟨ticket, epoch, a, he, rfl⟩⟩ :=
    hg.turn_cases hp hne ht
  · rw [turnsLeft_perm hperm]
    exact Or.inr ((hg.perm hperm).begin he ho)
  · by_cases ha : a = fetch e.key
    · right
      subst ha
      refine ⟨es', ?_, (hg.perm hperm).settle he ho⟩
      rw [turnsLeft_perm hperm]
      exact turnsLeft_lt e es'
    · exact Or.inl (lost_run hlost _ _ (hfetch _ _ _ _ ha))

/-- In whatever order the helpers take their turns and their fetches come back, all of them get
through. -/
theorem inevitable {turns : Nat} {next : Wake → Work p.Result} (hlost : Final lost)
    (hfetch : ∀ id key (a : Except Fault (Table String String)) h, a ≠ fetch key →
      lost (.answered id (.files key.name key.version) a :: h))
    (hp : p.rest = .wait turns (allDelivered jobs) next)
    (hg : Gathering fetch s₀ h₀ p jobs es w) :
    Inevitable (fun w' => lost w'.history ∨ Gathering fetch s₀ h₀ p jobs [] w') w := by
  induction hn : turnsLeft es using Nat.strongRecOn generalizing es w with
  | _ n ih =>
    subst hn
    by_cases hne : es = []
    · subst hne
      exact .now (Or.inr hg)
    · refine .later (hg.exists_turn hne) fun w' ht => ?_
      rcases hg.turn hlost hfetch hp hne ht with hl | ⟨es', hless, hg'⟩
      · exact .now (Or.inl hl)
      · exact ih _ hless hg' rfl

/-- One who waits for helpers inevitably goes on when all of them are through. -/
theorem brings {α : Type} {id turns : Nat} {next : Wake → Work α} {post : α → Users R P → Prop}
    (hlost : Final lost)
    (hfetch : ∀ id key (a : Except Fault (Table String String)) h, a ≠ fetch key →
      lost (.answered id (.files key.name key.version) a :: h))
    (hg : ∀ p, Gathering fetch s₀ h₀ p jobs es { w with paused := p :: w.paused })
    (hnext : ∀ w', w'.paused = [] → Underway fetch s₀ jobs [] w'.state →
      (∃ news, w'.history = news ++ h₀ ∧ Told fetch s₀.cache (jobs.map Prod.fst) [] news) →
      Brings lost id (next .ready) w' post) :
    Brings lost id (.wait turns (allDelivered jobs) next) w post := by
  intro β f report
  refine ((hg ⟨id, β, .wait turns (allDelivered jobs) fun v => (next v).bind f,
    report⟩).inevitable hlost hfetch rfl).trans ?_
  rintro w' (hl | hg')
  · exact .now (Or.inl hl)
  · exact hg'.goes_on (hnext { w' with paused := [] } rfl hg'.state hg'.history β f report)

end Gathering

/-! ## From the start of the helpers to the last delivery -/

/-- The helpers that are started for some packages. -/
def errandsFrom : Nat → Nat → List PackageKey → List Errand
  | _, _, [] => []
  | id, delivery, key :: keys => ⟨id, key, delivery, none⟩ :: errandsFrom (id + 1) (delivery + 1) keys

lemma map_key_errandsFrom (id delivery : Nat) (keys : List PackageKey) :
    (errandsFrom id delivery keys).map Errand.key = keys := by
  induction keys generalizing id delivery with
  | nil => rfl
  | cons key keys ih => rw [errandsFrom, List.map_cons, ih]

lemma map_delivery_errandsFrom (id delivery : Nat) (keys : List PackageKey) :
    (errandsFrom id delivery keys).map Errand.delivery = List.range' delivery keys.length := by
  induction keys generalizing id delivery with
  | nil => rfl
  | cons key keys ih => rw [errandsFrom, List.map_cons, ih, List.length_cons, List.range'_succ]

lemma fetch?_of_mem_errandsFrom {id delivery : Nat} {keys : List PackageKey} {e : Errand}
    (he : e ∈ errandsFrom id delivery keys) : e.fetch? = none := by
  induction keys generalizing id delivery with
  | nil => cases he
  | cons key keys ih =>
    rcases List.mem_cons.mp he with rfl | he
    · rfl
    · exact ih he

/-- All helpers are started before one of them takes its first turn. -/
lemma brings_startAll (id : Nat) (keys : List PackageKey) (w : Users R P) :
    Brings lost id (startAll keys) w fun ds w' =>
      ds = (errandsFrom w.fresh w.state.deliveries keys).map Errand.job ∧
      w'.state = { w.state with deliveries := w.state.deliveries + keys.length } ∧
      w'.history = w.history ∧
      w'.paused = ((errandsFrom w.fresh w.state.deliveries keys).map Errand.paused).reverse ++
        w.paused := by
  induction keys generalizing w with
  | nil => exact .done ⟨rfl, rfl, rfl, rfl⟩
  | cons key keys ih =>
    refine Brings.step (Brings.spawn ((ih _).bind ?_))
    rintro ds w' ⟨hds, hstate, hh, hp⟩
    refine .done ⟨?_, ?_, hh, ?_⟩
    · rw [hds]
      rfl
    · rw [hstate]
      simp [Crowd.spawn, Nat.add_assoc, Nat.add_comm 1]
    · rw [hp, errandsFrom, List.map_cons, List.reverse_cons, List.append_assoc]
      rfl

/-- The helpers for some packages, when none of them has taken a turn. -/
lemma underway_errandsFrom {s : Service} {keys : List PackageKey} (id : Nat) (hkeys : keys.Nodup)
    (hin : ∀ k, s.cache.inflight.get? k = none) (hnum : ∀ d ∈ s.delivered, d.1.2 < s.deliveries) :
    Underway fetch { s with deliveries := s.deliveries + keys.length }
      ((errandsFrom id s.deliveries keys).map Errand.job) (errandsFrom id s.deliveries keys)
      { s with deliveries := s.deliveries + keys.length } := by
  have hrange : ∀ e ∈ errandsFrom id s.deliveries keys,
      s.deliveries ≤ e.delivery ∧ e.delivery < s.deliveries + keys.length := by
    intro e he
    have hmem : e.delivery ∈ (errandsFrom id s.deliveries keys).map Errand.delivery :=
      List.mem_map_of_mem he
    rw [map_delivery_errandsFrom] at hmem
    simpa using hmem
  refine ⟨rfl, rfl, ?_, ?_, ?_, ?_, fun e he => List.mem_map_of_mem he, ?_, ?_, ?_⟩
  · intro e he ticket epoch hf
    rw [fetch?_of_mem_errandsFrom he] at hf
    cases hf
  · intro k hk
    exact absurd (hin k) hk
  · intro j hj
    exact Or.inl (List.mem_map.mp hj)
  · intro e he
    rw [List.lookup_eq_none_iff]
    intro d hd
    have hlt := hnum d hd
    have hle := (hrange e he).1
    refine bne_iff_ne.mpr fun heq => ?_
    have hnumber : e.delivery = d.1.2 := congrArg Prod.snd heq
    omega
  · rw [map_key_errandsFrom]
    exact hkeys
  · intro d hd
    exact Nat.lt_add_right _ (hnum d hd)
  · intro e he
    exact (hrange e he).2

lemma map_job_errandsFrom (id delivery : Nat) (keys : List PackageKey) :
    ((errandsFrom id delivery keys).map Errand.job).map Prod.fst = keys := by
  rw [List.map_map]
  exact map_key_errandsFrom _ _ _

/-- When the helpers for some packages have been started, they are on their way. -/
lemma bustling_started {w w₁ : Users R P} {keys : List PackageKey} (hkeys : keys.Nodup)
    (hw : w.paused = []) (hin : ∀ k, w.state.cache.inflight.get? k = none)
    (hnum : ∀ d ∈ w.state.delivered, d.1.2 < w.state.deliveries)
    (hstate : w₁.state = { w.state with deliveries := w.state.deliveries + keys.length })
    (hpaused : w₁.paused =
      ((errandsFrom w.fresh w.state.deliveries keys).map Errand.paused).reverse ++ w.paused)
    (p : Paused Service Question Question.Answer P) :
    Bustling fetch w₁.state p ((errandsFrom w.fresh w.state.deliveries keys).map Errand.job)
      (errandsFrom w.fresh w.state.deliveries keys) { w₁ with paused := p :: w₁.paused } := by
  refine ⟨?_, ?_⟩
  · show Underway fetch w₁.state _ _ w₁.state
    rw [hstate]
    exact underway_errandsFrom w.fresh hkeys hin hnum
  · show (p :: w₁.paused).Perm _
    rw [hpaused, hw, List.append_nil]
    exact (List.reverse_perm _).cons p

/-- While nobody else uses the cache, to request several packages at once inevitably ends, whatever
the fetches bring, and nothing is under way any more. -/
theorem brings_gather_any {w : Users R P} {keys : List PackageKey} (id : Nat) (hkeys : keys.Nodup)
    (hw : w.paused = []) (hin : ∀ k, w.state.cache.inflight.get? k = none)
    (hnum : ∀ d ∈ w.state.delivered, d.1.2 < w.state.deliveries) :
    Brings lost id (gather keys).run w fun _ w' =>
      w'.paused = [] ∧ w'.state.index = w.state.index ∧
        (∀ k, w'.state.cache.inflight.get? k = none) ∧
        ∀ d ∈ w'.state.delivered, d.1.2 < w'.state.deliveries := by
  refine (brings_startAll id keys w).bind ?_
  rintro ds w₁ ⟨rfl, hstate, -, hpaused⟩
  have hb := @bustling_started R P (fun _ => .error .cancelled) w w₁ keys hkeys hw hin hnum hstate hpaused
  refine Bustling.brings_any hb (by rwa [map_job_errandsFrom]) (fun e _ => ⟨_, rfl⟩) ?_
  intro fetch' w' hpaused' hu
  refine Brings.step (.done ⟨hpaused', ?_, fun k => ?_, hu.numbers⟩)
  · show w'.state.index = _
    rw [hu.rest, hstate]
  · by_contra hk
    obtain ⟨e, he, -⟩ := hu.inflight k hk
    cases he

/-- What there is when all of some packages have been gathered. -/
structure Gathered (fetch : PackageKey → Except Fault (Table String String))
    (keys : List PackageKey) (w w' : Users R P) : Prop where
  paused : w'.paused = []
  rest : w'.state = { w.state with
    cache := w'.state.cache, journal := w'.state.journal
    delivered := w'.state.delivered, deliveries := w'.state.deliveries }
  supply : w'.state.cache.supply fetch = w.state.cache.supply fetch
  inflight : ∀ k, w'.state.cache.inflight.get? k = none
  numbers : ∀ d ∈ w'.state.delivered, d.1.2 < w'.state.deliveries
  history : ∃ news, w'.history = news ++ w.history ∧ Told fetch w.state.cache keys [] news

/-- While nobody else uses the cache, to request several packages at once inevitably ends with what
is in the cache and what the fetches bring, in whatever order they end. -/
theorem brings_gather {w : Users R P} {keys : List PackageKey} (id : Nat) (hlost : Final lost)
    (hfetch : ∀ id key (a : Except Fault (Table String String)) h, a ≠ fetch key →
      lost (.answered id (.files key.name key.version) a :: h))
    (hkeys : keys.Nodup) (hw : w.paused = []) (hin : ∀ k, w.state.cache.inflight.get? k = none)
    (hnum : ∀ d ∈ w.state.delivered, d.1.2 < w.state.deliveries) :
    Brings lost id (gather keys).run w fun r w' =>
      r = .ok (keys.map (w.state.cache.supply fetch)) ∧ Gathered fetch keys w w' := by
  refine (brings_startAll id keys w).bind ?_
  rintro ds w₁ ⟨rfl, hstate, hh, hpaused⟩
  have hb := @bustling_started R P fetch w w₁ keys hkeys hw hin hnum hstate hpaused
  have hkeys' := map_job_errandsFrom w.fresh w.state.deliveries keys
  have hmap := map_key_errandsFrom w.fresh w.state.deliveries keys
  generalize errandsFrom w.fresh w.state.deliveries keys = es at hb hkeys' hmap ⊢
  have hg : ∀ p, Gathering fetch w₁.state w.history p (es.map Errand.job) es
      { w₁ with paused := p :: w₁.paused } := by
    refine fun p => ⟨hb p, [], hh, List.forall_mem_nil _, fun key hkey f hf => Or.inl ?_⟩
    rw [hkeys', ← hmap] at hkey
    exact List.mem_map.mp hkey
  have hcache : w₁.state.cache = w.state.cache := by
    rw [hstate]
  refine Gathering.brings hlost hfetch hg fun w' hpaused' hu' hh' => ?_
  rw [hcache, hkeys'] at hh'
  have hdeliveries : w'.state.deliveries = w.state.deliveries + keys.length := by
    rw [hu'.rest, hstate]
  have hsupply : w'.state.cache.supply fetch = w.state.cache.supply fetch := by
    rw [hu'.supply, hcache]
  refine Brings.step (.done ⟨?_, hpaused', ?_, hsupply, fun k => ?_, hu'.numbers, hh'⟩)
  · show Except.ok _ = _
    rw [← hkeys', List.map_map (l := es.map Errand.job)]
    refine congrArg Except.ok (List.map_congr_left fun j hj => ?_)
    rcases hu'.through j hj with ⟨e, he, -⟩ | hd
    · cases he
    · simp only [Function.comp_apply]
      rw [hd, hcache]
      rfl
  · calc w'.state = { w₁.state with
          cache := w'.state.cache, journal := w'.state.journal
          delivered := w'.state.delivered } := hu'.rest
      _ = { w.state with
          cache := w'.state.cache, journal := w'.state.journal
          delivered := w'.state.delivered, deliveries := w'.state.deliveries } := by
        rw [hdeliveries, hstate]
  · by_contra hk
    obtain ⟨e, he, -⟩ := hu'.inflight k hk
    cases he

/-! ## The packages of a level -/

/-- Outcomes are taken in their order: all of them are packages, or the first that is none is
reported. -/
lemma mapM_supply {g : PackageKey → Except Fault Node} {keys : List PackageKey} :
    (∃ nodes, (keys.map g).mapM id = .ok nodes ∧ ∀ key ∈ keys, ∃ n, g key = .ok n) ∨
      ∃ f front key back, (keys.map g).mapM id = .error f ∧ keys = front ++ key :: back ∧
        g key = .error f ∧ ∀ key' ∈ front, ∃ n, g key' = .ok n := by
  induction keys with
  | nil => exact Or.inl ⟨[], rfl, List.forall_mem_nil _⟩
  | cons key keys ih =>
    rw [List.map_cons, List.mapM_cons]
    cases hg : g key with
    | error f => exact Or.inr ⟨f, [], key, keys, rfl, rfl, hg, List.forall_mem_nil _⟩
    | ok n =>
      rcases ih with ⟨nodes, hm, hall⟩ | ⟨f, front, key', back, hm, rfl, hkey, hall⟩
      · left
        refine ⟨n :: nodes, ?_, List.forall_mem_cons.mpr ⟨⟨n, hg⟩, hall⟩⟩
        rw [hm]
        rfl
      · right
        refine ⟨f, key :: front, key', back, ?_, rfl, hkey, List.forall_mem_cons.mpr ⟨⟨n, hg⟩, hall⟩⟩
        rw [hm]
        rfl

lemma Gathered.refl {w : Users R P} (hw : w.paused = [])
    (hin : ∀ k, w.state.cache.inflight.get? k = none)
    (hnum : ∀ d ∈ w.state.delivered, d.1.2 < w.state.deliveries) : Gathered fetch [] w w :=
  ⟨hw, rfl, rfl, hin, hnum, [], rfl, List.forall_mem_nil _, fun _ hkey => by cases hkey⟩

/-- While nobody else uses the cache, to fetch all packages of a level inevitably ends with the
packages, or with the fault of the first that could not be had. -/
theorem brings_fetchAll {w : Users R P} {keys : List PackageKey} (n : Nat) (hlost : Final lost)
    (hfetch : ∀ id key (a : Except Fault (Table String String)) h, a ≠ fetch key →
      lost (.answered id (.files key.name key.version) a :: h))
    (hkeys : keys.Nodup) (hw : w.paused = []) (hin : ∀ k, w.state.cache.inflight.get? k = none)
    (hnum : ∀ d ∈ w.state.delivered, d.1.2 < w.state.deliveries) :
    Brings lost n (fetchAll keys).run w fun r w' =>
      r = (keys.map (w.state.cache.supply fetch)).mapM id ∧ Gathered fetch keys w w' := by
  cases keys with
  | nil => exact .done ⟨rfl, Gathered.refl hw hin hnum⟩
  | cons key keys =>
    refine (brings_gather n hlost hfetch hkeys hw hin hnum).bind ?_
    rintro r w' ⟨rfl, hg⟩
    exact .done ⟨rfl, hg⟩

/-- While nobody else uses the cache, to fetch all packages of a level inevitably ends, whatever the
fetches bring. -/
theorem brings_fetchAll_any {w : Users R P} {keys : List PackageKey} (n : Nat) (hkeys : keys.Nodup)
    (hw : w.paused = []) (hin : ∀ k, w.state.cache.inflight.get? k = none)
    (hnum : ∀ d ∈ w.state.delivered, d.1.2 < w.state.deliveries) :
    Brings lost n (fetchAll keys).run w fun _ w' =>
      w'.paused = [] ∧ w'.state.index = w.state.index ∧
        (∀ k, w'.state.cache.inflight.get? k = none) ∧
        ∀ d ∈ w'.state.delivered, d.1.2 < w'.state.deliveries := by
  cases keys with
  | nil => exact .done ⟨hw, rfl, hin, hnum⟩
  | cons key keys =>
    refine (brings_gather_any n hkeys hw hin hnum).bind fun r w' hend => ?_
    cases r with
    | ok outcomes => exact .done hend
    | error f => exact .done hend

end Cache

end SourceBundle
