/-
# Deliveries are what was ordered

A request for a package gets what the registry gave for it, even if it joins a fetch that another one
began.  The state tells what fetches there are, but of a fetch that has ended it does not tell for
which package it was; so a record of the orders is kept, which has the package of every fetch by its
number.

The property of what is delivered is left open: it holds of every delivery if it holds of every
answer of the registry.
-/
import SourceBundle.Proofs.Index.Still
import SourceBundle.Proofs.Routine.Pact
import SourceBundle.Proofs.Table

namespace SourceBundle

/-- Nothing has changed for those who fetch packages or wait for them, except that packages may have
been dropped. -/
structure Spares (s t : Service) : Prop where
  settings : t.settings = s.settings
  delivered : t.delivered = s.delivered
  fetches : t.cache.fetches = s.cache.fetches
  inflight : t.cache.inflight = s.cache.inflight
  settled : t.cache.settled = s.cache.settled
  entries : ∀ key n, t.cache.entries.get? key = some n → s.cache.entries.get? key = some n

instance : IsPreorder Service Spares where
  refl _ := ⟨rfl, rfl, rfl, rfl, rfl, fun _ _ h => h⟩
  trans _ _ _ h h' := ⟨h'.1.trans h.1, h'.2.trans h.2, h'.3.trans h.3, h'.4.trans h.4,
    h'.5.trans h.5, fun key n hn => h.6 key n (h'.6 key n hn)⟩

lemma spares_of_cache {s t : Service} (hs : t.settings = s.settings)
    (hd : t.delivered = s.delivered) (hc : t.cache = s.cache) : Spares s t :=
  ⟨hs, hd, by rw [hc], by rw [hc], by rw [hc], fun _ _ h => hc ▸ h⟩

instance : Modest Spares where
  noted s t h := by
    rw [h.rest]
    exact spares_of_cache rfl rfl rfl
  index _ _ _ _ := spares_of_cache rfl rfl rfl
  deliveries _ _ := spares_of_cache rfl rfl rfl
  shelves _ _ := spares_of_cache rfl rfl rfl

/-- What spares the packages may change the index in any way. -/
lemma spares_change (K : Work Unit → Prop) (f : Index → Index) :
    (Index.change f).Steady Spares K :=
  Routine.Steady.modify fun _ => spares_of_cache rfl rfl rfl

namespace Cache

variable {good : PackageKey → Except Fault Node → Prop} {st : Settings} {orders : List PackageKey}
  {s t : Service} {key : PackageKey}

/-- The packages are in accord with the orders: what is being fetched is fetched as ordered, and all
that is there, has been fetched or has been delivered is good. -/
structure Faithful (good : PackageKey → Except Fault Node → Prop) (orders : List PackageKey)
    (s : Service) : Prop where
  fetches : s.cache.fetches = orders.length
  entries : ∀ key n, s.cache.entries.get? key = some n → good key (.ok n)
  inflight : ∀ key ticket, s.cache.inflight.get? key = some ticket → orders[ticket]? = some key
  settled : ∀ ticket r, (ticket, r) ∈ s.cache.settled → ∃ key, orders[ticket]? = some key ∧ good key r
  delivered : ∀ d r, (d, r) ∈ s.delivered → good d.1 r

/-- What is agreed on while packages are fetched, under settings that stay: only what is good is
delivered, if the registry gives only what is good. -/
def supplying (st : Settings) (good : PackageKey → Except Fault Node → Prop) :
    Pact (List PackageKey) Service Question Question.Answer where
  holds orders s := s.settings = st ∧ Faithful good orders s
  grows := (· <+: ·)
  answer
    | .files name version, a => good ⟨name, version⟩ (a.map (Node.mk ⟨name, version⟩))
    | _, _ => True

instance : IsPreorder (List PackageKey) (supplying st good).grows where
  refl := List.prefix_refl
  trans _ _ _ := List.IsPrefix.trans

/-- A service that is in accord has the settings that are agreed on. -/
lemma settings_of_accords (h : (supplying st good).Accords s) : s.settings = st := by
  obtain ⟨_, hsettings, _⟩ := h
  exact hsettings

/-- A service that is in accord has only delivered what is good. -/
lemma good_of_accords (h : (supplying st good).Accords s) :
    ∀ d r, (d, r) ∈ s.delivered → good d.1 r := by
  obtain ⟨_, -, hfaithful⟩ := h
  exact hfaithful.delivered

lemma Faithful.spared (h : Faithful good orders s) (hs : Spares s t) : Faithful good orders t where
  fetches := hs.fetches.trans h.fetches
  entries key n hn := h.entries key n (hs.entries key n hn)
  inflight := hs.inflight ▸ h.inflight
  settled := hs.settled ▸ h.settled
  delivered := hs.delivered ▸ h.delivered

/-- A new service is in accord with no orders. -/
lemma faithful_new (hc : s.cache = {}) (hd : s.delivered = []) : Faithful good [] s := by
  refine ⟨?_, ?_, ?_, ?_, ?_⟩
  · rw [hc]
    rfl
  · rw [hc]
    exact nofun
  · rw [hc]
    exact nofun
  · rw [hc]
    exact nofun
  · rw [hd]
    exact nofun

lemma getElem?_mono {orders' : List PackageKey} {ticket : Nat} (h : orders <+: orders')
    (ht : orders[ticket]? = some key) : orders'[ticket]? = some key := by
  obtain ⟨hlt, rfl⟩ := List.getElem?_eq_some_iff.mp ht
  exact List.prefix_iff_getElem?.mp h ticket hlt

/-! ## Requests -/

/-- What a request knows when it has been admitted. -/
def Knows (good : PackageKey → Except Fault Node → Prop) (key : PackageKey)
    (orders : List PackageKey) : Admission → Prop
  | .hit n => good key (.ok n)
  | .join ticket => orders[ticket]? = some key
  | .fetch ticket _ => orders[ticket]? = some key

/-- To admit a request is in accord with the orders, to which a new fetch is added. -/
lemma Faithful.request (h : Faithful good orders s) (key : PackageKey) :
    ∃ orders', orders <+: orders' ∧
      Faithful good orders' { s with cache := (s.cache.request key).2 } ∧
      Knows good key orders' (s.cache.request key).1 := by
  unfold Cache.request
  split
  · next n hn =>
    exact ⟨orders, List.prefix_refl _, ⟨h.fetches, h.entries, h.inflight, h.settled, h.delivered⟩,
      h.entries key n hn⟩
  · split
    · next ticket ht =>
      exact ⟨orders, List.prefix_refl _,
        ⟨h.fetches, h.entries, h.inflight, h.settled, h.delivered⟩, h.inflight key ticket ht⟩
    · -- the number of the new fetch is the first that no order has
      have hlast : (orders ++ [key])[s.cache.fetches]? = some key := by
        rw [h.fetches, List.getElem?_concat_length]
      have hmore : orders <+: orders ++ [key] := List.prefix_append _ _
      refine ⟨orders ++ [key], hmore, ⟨?_, h.entries, fun key' ticket ht => ?_, ?_, h.delivered⟩, hlast⟩
      · show s.cache.fetches + 1 = _
        rw [h.fetches, List.length_append]
        rfl
      · by_cases hk : key = key'
        · subst hk
          rw [Table.get?_insert_self] at ht
          obtain rfl := Option.some.inj ht
          exact hlast
        · rw [Table.get?_insert_ne _ hk] at ht
          exact getElem?_mono hmore (h.inflight key' ticket ht)
      · intro ticket r hr
        obtain ⟨key', ht, hg⟩ := h.settled ticket r hr
        exact ⟨key', getElem?_mono hmore ht, hg⟩

/-- To end a fetch with what is good is in accord with the orders. -/
lemma Faithful.settle (h : Faithful good orders s) {ticket : Nat} (epoch : Nat)
    {r : Except Fault Node} (ht : orders[ticket]? = some key) (hr : good key r) :
    Faithful good orders { s with cache := s.cache.settle key ticket epoch r } where
  fetches := h.fetches
  entries key' n hn := by
    cases r with
    | error f => exact h.entries key' n hn
    | ok n' =>
      by_cases he : epoch = s.cache.epoch
      · simp only [Cache.settle, he, if_true] at hn
        by_cases hk : key = key'
        · subst hk
          rw [Table.get?_insert_self] at hn
          obtain rfl := Option.some.inj hn
          exact hr
        · rw [Table.get?_insert_ne _ hk] at hn
          exact h.entries key' n hn
      · simp only [Cache.settle, he, if_false] at hn
        exact h.entries key' n hn
  inflight key' ticket' ht' := by
    by_cases he : s.cache.inflight.get? key = some ticket
    · simp only [Cache.settle, he, if_true] at ht'
      by_cases hk : key = key'
      · subst hk
        simp at ht'
      · rw [Table.get?_erase_ne _ hk] at ht'
        exact h.inflight key' ticket' ht'
    · simp only [Cache.settle, he, if_false] at ht'
      exact h.inflight key' ticket' ht'
  settled ticket' r' hr' := by
    rcases List.mem_cons.mp hr' with heq | hr'
    · obtain ⟨rfl, rfl⟩ := Prod.mk.inj heq
      exact ⟨key, ht, hr⟩
    · exact h.settled ticket' r' hr'
  delivered := h.delivered

/-- What is known of a fetch that has ended is good for the package that it was for. -/
lemma Faithful.outcome (h : Faithful good orders s) {ticket : Nat} {r : Except Fault Node}
    (ht : orders[ticket]? = some key) (hr : s.cache.outcome? ticket = some r) : good key r := by
  obtain ⟨front, back, hs, -⟩ := List.lookup_eq_some_iff.mp hr
  obtain ⟨key', ht', hg⟩ := h.settled ticket r (hs ▸ List.mem_append_right _ List.mem_cons_self)
  obtain rfl := Option.some.inj (ht.symm.trans ht')
  exact hg

section Honors

variable {L : Work Unit → Prop} {α : Type} {x : Work α}

/-- What spares the packages keeps the agreement, if what it starts does. -/
lemma honors_of_spares (hx : x.Steady Spares L)
    (hl : ∀ child, L child → ∀ orders, child.Honors (supplying st good) orders fun _ _ => True) :
    x.Honors (supplying st good) orders fun _ _ => True :=
  hx.honors (fun _ _ _ h hs => ⟨hs.settings.trans h.1, h.2.spared hs⟩) hl

lemma honors_log (r : LogRecord) :
    (Work.log r).Honors (supplying st good) orders fun _ _ => True :=
  honors_of_spares (L := fun _ => False) (Work.plain_log r).modest nofun

/-- To end a fetch gives what it has brought. -/
lemma honors_finish {ticket : Nat} (epoch : Nat) {answer : Except Fault (Table String String)}
    (ht : orders[ticket]? = some key) (ha : good key (answer.map (Node.mk key))) :
    (finish key ticket epoch answer).run.Honors (supplying st good) orders fun r _ => good key r := by
  have hsettle : (change fun c => c.settle key ticket epoch (answer.map (Node.mk key))).Honors
      (supplying st good) orders fun _ _ => True := fun s h =>
    ⟨orders, List.prefix_refl _, ⟨h.1, h.2.settle epoch ht ha⟩, trivial⟩
  refine Routine.Honors.bind (hsettle.imp fun _ orders' _ => ?_)
  cases answer with
  | ok files => exact Routine.Honors.bind ((honors_log _).imp fun _ _ _ => ha)
  | error f =>
    cases f <;> first | exact ha | exact Routine.Honors.bind ((honors_log _).imp fun _ _ _ => ha)

/-- Whoever requests a package gets what is good. -/
theorem honors_getOrFetch (hc : ∀ key, good key (.error .cancelled)) (key : PackageKey) :
    (getOrFetch key).run.Honors (supplying st good) orders fun r _ => good key r := by
  have hrequest : (Routine.modifyGet fun s : Service =>
      ((s.cache.request key).1, { s with cache := (s.cache.request key).2 }) : Work Admission).Honors
        (supplying st good) orders
        fun a orders₁ => Knows good key orders₁ a := by
    rintro s ⟨hst, h⟩
    obtain ⟨orders₁, hgrows, h₁, hknows⟩ := h.request key
    exact ⟨orders₁, hgrows, ⟨hst, h₁⟩, hknows⟩
  refine Routine.Honors.bind (hrequest.imp fun a orders₁ hknows => ?_)
  cases a with
  | hit n => exact hknows
  | join ticket =>
    rintro w orders₂ hgrows₂
    cases w with
    | cancelled => exact hc key
    | ready =>
      intro s₂ h₂
      refine ⟨orders₂, List.prefix_refl _, h₂, ?_⟩
      show good key (Option.getD _ _)
      cases hr : s₂.cache.outcome? ticket with
      | none => exact hc key
      | some r => exact h₂.2.outcome (getElem?_mono hgrows₂ hknows) hr
  | fetch ticket epoch =>
    intro answer orders₂ hanswer hgrows₂
    exact honors_finish epoch (getElem?_mono hgrows₂ hknows) hanswer

/-- A delivery is good. -/
theorem honors_deliver (hc : ∀ key, good key (.error .cancelled)) (key : PackageKey)
    (delivery : Nat) :
    (deliver key delivery).Honors (supplying st good) orders fun _ _ => True := by
  refine Routine.Honors.bind ((honors_getOrFetch hc key).imp fun r orders₁ hr => ?_)
  rintro s ⟨hst, h⟩
  refine ⟨orders₁, List.prefix_refl _, ⟨hst, h.fetches, h.entries, h.inflight, h.settled, ?_⟩, trivial⟩
  intro d r' hd
  rcases List.mem_cons.mp hd with heq | hd
  · obtain ⟨rfl, rfl⟩ := Prod.mk.inj heq
    exact hr
  · exact h.delivered d r' hd

end Honors

end Cache

/-- A load of the index spares the packages. -/
lemma Index.spares_runLoad (K : Work Unit → Prop) (ticket : Nat) :
    (runLoad ticket).Steady Spares K := by
  refine (modest_gets _).bind fun path => Routine.Steady.bind ?_ fun r => ?_
  · exact (plain_readRecords path : Attempt.Plain busily _).modest
  · cases r with
    | ok d =>
      refine (spares_change K _).bind fun _ => (modest_gets _).bind fun files => ?_
      exact (Work.plain_log _).modest.bind fun _ => spares_change K _
    | error f => exact spares_change K _

/-- Whoever spares the packages and starts only loads and deliveries keeps the agreement. -/
theorem Cache.honors_of_considerate {good : PackageKey → Except Fault Node → Prop} {st : Settings}
    {orders : List PackageKey} {α : Type} {x : Work α} (hc : ∀ key, good key (.error .cancelled))
    (hx : x.Steady Spares Helper) : x.Honors (supplying st good) orders fun _ _ => True := by
  refine honors_of_spares hx fun child hchild orders' => ?_
  cases hchild with
  | load ticket => exact honors_of_spares (Index.spares_runLoad (fun _ => False) ticket) nofun
  | delivery key delivery => exact honors_deliver hc key delivery

namespace Cache

/-! ## What a build gets -/

variable {good : PackageKey → Except Fault Node → Prop} {T : Terms Service Question Question.Answer}
  {S : Service → Prop} {s t : Service}

/-- The deliveries that are asked for are those of the packages. -/
lemma keys_of_startAll {keys : List PackageKey} {ds : List (PackageKey × Nat)}
    (h : (startAll keys).Ends T s ds t) : ds.map Prod.fst = keys := by
  induction keys generalizing s t ds with
  | nil =>
    obtain ⟨rfl, -⟩ := h
    rfl
  | cons key keys ih =>
    obtain ⟨delivery, u, -, h₁⟩ := Routine.ends_bind.mp h
    obtain ⟨n, v, -, h₂⟩ := Routine.ends_bind.mp h₁
    obtain ⟨ds', w, hds, rfl, -⟩ := Routine.ends_bind.mp h₂
    rw [List.map_cons, ih hds]

/-- Deliveries from a state that are all successful are good for their packages. -/
lemma good_of_lookups (hd : ∀ d r, (d, r) ∈ s.delivered → good d.1 r)
    {ds : List (PackageKey × Nat)} {nodes : List Node}
    (h : (ds.map fun d => (s.delivered.lookup d).getD (.error .cancelled)).mapM id = .ok nodes) :
    List.Forall₂ (fun key n => good key (.ok n)) (ds.map Prod.fst) nodes := by
  induction ds generalizing nodes with
  | nil =>
    obtain rfl := Except.ok.inj h
    exact .nil
  | cons d ds ih =>
    rw [List.map_cons, List.mapM_cons] at h
    cases hr : s.delivered.lookup d with
    | none =>
      rw [hr] at h
      exact nomatch h
    | some r =>
      rw [hr] at h
      cases r with
      | error f => exact nomatch h
      | ok n =>
        obtain ⟨front, back, hmem, -⟩ := List.lookup_eq_some_iff.mp hr
        have hn := hd d (.ok n) (hmem ▸ List.mem_append_right _ List.mem_cons_self)
        cases hrest : (ds.map fun d => (s.delivered.lookup d).getD (.error .cancelled)).mapM id with
        | error f =>
          simp [hrest, bind, Except.bind] at h
        | ok ns =>
          simp only [hrest, id, bind, Except.bind, pure, Except.pure, Option.getD_some] at h
          obtain rfl := Except.ok.inj h
          exact .cons hn (ih hrest)

/-- The packages that a build gets are good for the keys that it has asked for, one for each. -/
theorem good_of_fetchAll (hT : T.Meet (quiet S))
    (hS : ∀ s, S s → ∀ d r, (d, r) ∈ s.delivered → good d.1 r) (hs : S s)
    {keys : List PackageKey} {nodes : List Node}
    (h : Attempt.Ends T (fetchAll keys) s (.ok nodes) t) :
    List.Forall₂ (fun key n => good key (.ok n)) keys nodes := by
  unfold fetchAll at h
  split at h
  · obtain ⟨he, -⟩ := h
    obtain rfl := Except.ok.inj he
    exact .nil
  · obtain ⟨outcomes, v, hg, he⟩ := Attempt.ends_bind_ok.mp h
    obtain ⟨he, rfl⟩ := he
    obtain ⟨ds, u, hds, hw⟩ := Routine.ends_bind.mp hg
    have hu := ((lawful_startAll keys).ends hT hs hds).2
    obtain ⟨_, _, ⟨w, x, ho, -, rfl, rfl⟩, hw⟩ := Routine.ends_bind.mp hw
    have hx := hT.others _ _ hu ho
    cases w with
    | cancelled => exact nomatch hw.1
    | ready =>
      obtain ⟨-, hr, -⟩ := hw
      obtain rfl := Except.ok.inj hr
      exact keys_of_startAll hds ▸ good_of_lookups (hS _ hx) he

/-- A package that comes for a key has that key. -/
def Keyed (key : PackageKey) (r : Except Fault Node) : Prop := ∀ n, r = .ok n → n.key = key

lemma keyed_cancelled (key : PackageKey) : Keyed key (.error .cancelled) := nofun

/-- Packages that come for some keys have these keys, in their order. -/
lemma keys_of_keyed {keys : List PackageKey} {nodes : List Node}
    (h : List.Forall₂ (fun key n => Keyed key (.ok n)) keys nodes) : nodes.map Node.key = keys := by
  induction h with
  | nil => rfl
  | cons hk _ ih => rw [List.map_cons, ih, hk _ rfl]

/-- Whatever the registry gives for a key becomes a package with that key. -/
lemma hears_keyed {R P : Type} {st : Settings} (h : List (Event Question Question.Answer R P)) :
    (supplying st Keyed).Hears h := by
  intro id q a _
  cases q with
  | files name version =>
    rintro n hn
    cases a with
    | error f => exact nomatch hn
    | ok files =>
      obtain rfl := Except.ok.inj hn
      rfl
  | _ => trivial

end Cache

/-! ## Builds -/

namespace Bundle

lemma spares_commit (c : Context) : (commit c).Steady Spares Helper := by
  refine (Work.plain_contextIsCurrent c).modest.bind fun current => ?_
  cases current with
  | false => exact (Work.plain_log _).modest.bind fun _ => trivial
  | true => exact (spares_change Helper _).bind fun _ => trivial

lemma spares_finish (b : Builder) (entry : String) : Run.Steady Spares Helper (finish b entry) := by
  refine Run.Steady.get.bind fun t => (Run.Steady.modify _).bind fun _ => ?_
  refine (Stateful.steady_work (Work.plain_log _).modest).bind fun _ => Run.Steady.get.bind fun t' => ?_
  split
  · refine (Stateful.steady_work (spares_commit _)).bind fun committed => ?_
    split
    · exact (Run.Steady.lift Index.modest_save).bind fun _ => Run.Steady.pure _
    · exact Run.Steady.pure _
  · exact Run.Steady.pure _

/-- A build leaves the packages to those who fetch them. -/
theorem spares_build (b : Builder) (budget : Nat) (entry content : String) (c : Context) :
    (build b budget entry content c).Steady Spares Helper := by
  suffices h : Run.Steady Spares Helper (run b budget entry content) from
    Routine.Steady.bind (h _) fun _ => trivial
  refine (modest_prepare b entry content).bind fun rules => ?_
  refine (modest_traverse _ _ _ _ _ _).bind fun complete => ?_
  split
  · exact (spares_finish b entry).bind fun _ => Run.Steady.get.bind fun _ => Run.Steady.pure _
  · exact Run.Steady.get.bind fun _ => Run.Steady.pure _

end Bundle

end SourceBundle
