/-
# The connections of the client

Whatever is done with the client, and whatever fails: of the connections that it has opened each is closed once,
but for the one that it holds; the one that it was given is never closed; and no request is made on a connection
that is closed.

Whether the client closes the connection that it holds is told by a flag of its own.  The flag may lag behind
when there is no connection, but as long as there is one it tells whether the client has opened it.
-/
import Mathlib.Data.List.Nodup
import Mathlib.Data.List.Range
import SourceBundle.Proofs.Registry.Calls
import SourceBundle.Registry.Script

namespace SourceBundle.Registry

variable {α : Type} {s : Settings} {x : Exchange} {n : Network} {e : Event} {given : Bool}

/-! ## Events -/

@[simp] lemma opened_note (n : Network) (e : Event) : (n.note e).opened = n.opened ++ e.opened?.toList := by
  cases e <;> simp [Network.opened, Network.note, Event.opened?]

@[simp] lemma closed_note (n : Network) (e : Event) : (n.note e).closed = n.closed ++ e.closed?.toList := by
  cases e <;> simp [Network.closed, Network.note, Event.closed?]

@[simp] lemma requests_note (n : Network) (e : Event) :
    (n.note e).requests = n.requests ++ e.request?.toList := by
  cases e <;> simp [Network.requests, Network.note, Event.request?]

/-- No connection is closed before a request is made on it. -/
def Network.Alive (n : Network) : Prop :=
  n.events.Pairwise fun e e' => ∀ r, e' = .requested r → e ≠ .closed r.connection

lemma Network.Alive.note (h : n.Alive) (he : ∀ r, e = .requested r → r.connection ∉ n.closed) :
    (n.note e).Alive := by
  refine List.pairwise_append.mpr ⟨h, List.pairwise_singleton _ _, fun e' he' e'' he'' r hr hclosed => ?_⟩
  obtain rfl : e'' = e := List.mem_singleton.mp he''
  exact he r hr (List.mem_filterMap.mpr ⟨e', he', by rw [hclosed]; rfl⟩)

/-! ## The connections so far -/

/-- The connection that the client holds, if it has opened it itself. -/
def Client.own? (c : Client) : Option Connection := c.connection?.filter (· != .given)

/-- The connections so far: those that the client has opened are numbered in turn, and each of them is either
closed or held; whether the client owns the one that it holds is told by its flag. -/
structure Sound (given : Bool) (x : Exchange) : Prop where
  numbered : x.network.opened = (List.range x.network.opened.length).map .own
  shared : x.network.opened.Perm (x.network.closed ++ x.client.own?.toList)
  flag : ∀ c, x.client.connection? = some c → (x.client.ownsConnection = true ↔ c ≠ .given)
  external : x.client.connection? = some .given → given = true
  used : ∀ r ∈ x.network.requests,
    r.connection = .given ∧ given = true ∨ r.connection ∈ x.network.opened
  alive : x.network.Alive

namespace Sound

lemma nodup (h : Sound given x) : (x.network.closed ++ x.client.own?.toList).Nodup := by
  rw [← h.shared.nodup_iff, h.numbered]
  exact List.nodup_range.map fun i j hij => Connection.own.inj hij

lemma given_notMem (h : Sound given x) : .given ∉ x.network.closed := by
  intro hclosed
  have hopened : Connection.given ∈ x.network.opened :=
    h.shared.mem_iff.mpr (List.mem_append_left _ hclosed)
  rw [h.numbered] at hopened
  obtain ⟨i, -, hi⟩ := List.mem_map.mp hopened
  cases hi

lemma notMem_closed (h : Sound given x) {c : Connection} (hc : x.client.connection? = some c) :
    c ∉ x.network.closed := by
  cases c with
  | given => exact h.given_notMem
  | own i =>
    intro hclosed
    exact List.disjoint_of_nodup_append h.nodup hclosed (by simp [Client.own?, hc])

lemma used_of_held (h : Sound given x) {c : Connection} (hc : x.client.connection? = some c) :
    c = .given ∧ given = true ∨ c ∈ x.network.opened := by
  cases c with
  | given => exact Or.inl ⟨rfl, h.external hc⟩
  | own i => exact Or.inr (h.shared.mem_iff.mpr (List.mem_append_right _ (by simp [Client.own?, hc])))

/-- A client that has done nothing yet. -/
lemma new (s : Settings) (address? : Option String) (timeout? : Option Int) (given : Bool)
    (replies : List Reply) :
    Sound given ⟨Client.new s address? timeout? given, { replies := replies }⟩ := by
  cases given with
  | false => exact ⟨rfl, .refl _, nofun, nofun, nofun, .nil⟩
  | true =>
    refine ⟨rfl, .refl _, fun c hc => ?_, fun _ => rfl, nofun, .nil⟩
    obtain rfl : .given = c := Option.some.inj hc
    exact iff_of_false nofun fun h => h rfl

/-- Nothing but the connection of the client, its flag and the events so far matters. -/
lemma of_same (h : Sound given x) {y : Exchange} (hconnection : y.client.connection? = x.client.connection?)
    (howns : y.client.ownsConnection = x.client.ownsConnection)
    (hevents : y.network.events = x.network.events) : Sound given y := by
  obtain ⟨client, network⟩ := y
  cases client
  cases network
  subst hconnection howns hevents
  exact ⟨h.numbered, h.shared, h.flag, h.external, h.used, h.alive⟩

/-- A connection that the client has not opened is let go. -/
lemma forget (h : Sound given x) (hown : x.client.own? = none) :
    Sound given ⟨{ x.client with connection? := none }, x.network⟩ := by
  have hshared := h.shared
  rw [hown] at hshared
  exact ⟨h.numbered, hshared, nofun, nofun, h.used, h.alive⟩

/-- Something else happens than that a connection is opened or closed. -/
lemma note (h : Sound given x) (hopened : e.opened? = none) (hclosed : e.closed? = none)
    (hrequest : ∀ r, e = .requested r → x.client.connection? = some r.connection) :
    Sound given ⟨x.client, x.network.note e⟩ := by
  have halive := h.alive.note fun r hr => h.notMem_closed (hrequest r hr)
  refine ⟨?_, ?_, h.flag, h.external, fun r hr => ?_, halive⟩
  · simpa [hopened] using h.numbered
  · simpa [hopened, hclosed] using h.shared
  · rw [opened_note, hopened, Option.toList_none, List.append_nil]
    rw [requests_note, List.mem_append] at hr
    refine hr.elim (h.used r) fun hr => h.used_of_held (hrequest r ?_)
    cases e with
    | requested r' => rw [List.mem_singleton.mp hr]
    | _ => cases hr

end Sound

/-- The connections so far, and that there is one to make requests on. -/
structure Ready (given : Bool) (x : Exchange) : Prop extends Sound given x where
  connected : x.client.connection?.isSome

/-! ## What the calls keep -/

namespace Calls

lemma leads_start : start.Leads (Sound given) (Ready given) := by
  intro x h
  cases hc : x.client.connection? with
  | some c =>
    rw [after_start_of_some hc]
    exact ⟨h, by rw [hc]; rfl⟩
  | none =>
    have hshared : x.network.opened.Perm x.network.closed := by
      simpa [Client.own?, hc] using h.shared
    rw [after_start_of_none hc]
    refine ⟨⟨?_, ?_, fun c hc' => ?_, nofun, fun r hr => ?_, h.alive.note nofun⟩, rfl⟩
    · simpa [Event.opened?, List.range_succ] using h.numbered
    · change (x.network.note _).opened.Perm ((x.network.note _).closed ++ [Connection.own _])
      simpa [Event.opened?, Event.closed?] using hshared.append_right [_]
    · obtain rfl := Option.some.inj hc'
      exact iff_of_true rfl nofun
    · refine (h.used r (by simpa [Event.request?] using hr)).imp_right fun hopened => ?_
      rw [opened_note]
      exact List.mem_append_left _ hopened

lemma keeps_start : start.Keeps (Sound given) := leads_start.mono fun _ h => h.toSound

lemma keeps_stop : stop.Keeps (Sound given) := by
  intro x h
  rw [after_stop]
  cases hc : x.client.connection? with
  | none => exact h.forget (by rw [Client.own?, hc]; rfl)
  | some c =>
    cases howns : x.client.ownsConnection with
    | false =>
      have hgiven : c = .given := by
        by_contra hne
        exact absurd (howns.symm.trans ((h.flag c hc).mpr hne)) nofun
      exact h.forget (by rw [Client.own?, hc, hgiven]; rfl)
    | true =>
      have hgiven : c ≠ .given := (h.flag c hc).mp howns
      have hown : x.client.own? = some c := by simp [Client.own?, hc, hgiven]
      have hshared := h.shared
      rw [hown] at hshared
      refine ⟨?_, ?_, nofun, nofun, ?_, h.alive.note nofun⟩
      · simpa [Event.opened?] using h.numbered
      · simpa [Event.opened?, Event.closed?, Client.own?] using hshared
      · simpa [Event.opened?, Event.request?] using h.used

lemma keeps_record (l : LogRecord) : (record l).Keeps (Sound given) := fun _ h =>
  h.of_same rfl rfl rfl

lemma keeps_ready_record (l : LogRecord) : (record l).Keeps (Ready given) := fun _ h =>
  ⟨keeps_record l _ h.toSound, h.connected⟩

lemma keeps_send (address : String) (headers? : Option (List (String × String))) :
    (send address headers?).Keeps (Ready given) := by
  intro x h
  obtain ⟨c, hc⟩ := Option.isSome_iff_exists.mp h.connected
  have hnote := h.toSound.note (e := .requested ⟨x.client.connection?.getD (.own 0), address, headers?⟩)
    rfl rfl fun r hr => by
      obtain rfl := Event.requested.inj hr
      simp [hc]
  exact ⟨hnote.of_same rfl rfl rfl, h.connected⟩

lemma keeps_wait (s : Settings) (k : Nat) : (wait s k).Keeps (Ready given) := by
  unfold wait
  cases delay? s k with
  | none => exact keeps_throw _
  | some d => exact fun x h => ⟨h.toSound.note (e := .delayed d) rfl rfl nofun, h.connected⟩

lemma keeps_tryFrom (s : Settings) (address shown : String) (headers? : Option (List (String × String)))
    (left attempt : Nat) (reason : String) :
    (tryFrom s address shown headers? left attempt reason).Keeps (Ready given) :=
  keeps_tryFrom_of_steps keeps_send keeps_ready_record (keeps_wait s) address shown headers? left attempt reason

/-- A request is made on the connection that there is, or on one that is opened for it. -/
lemma keeps_get (s : Settings) (address : String) (headers? : Option (List (String × String))) :
    (get s address headers?).Keeps (Sound given) := by
  refine leads_start.bind (Q := Ready given) (fun _ => ?_) fun _ h => h.toSound
  cases Url.safe address with
  | error e => exact (keeps_throw (P := Ready given) _).mono fun _ h => h.toSound
  | ok shown => exact (keeps_tryFrom s address shown headers? _ _ _).mono fun _ h => h.toSound

lemma keeps_description (s : Settings) (name : String) : (description s name).Keeps (Sound given) := by
  refine keeps_getThe.bind fun x => ?_
  dsimp only
  split
  · exact keeps_pure _
  · refine (keeps_get s _ _).bind fun answer => ?_
    obtain ⟨status, body⟩ := answer
    dsimp only
    split
    · exact keeps_throw _
    · split
      · exact keeps_throw _
      · refine (keeps_outcome _).bind fun versions => ?_
        exact Keeps.bind (fun _ h => h.of_same rfl rfl rfl) fun _ => keeps_pure _

lemma keeps_archiveAddress (value : Json) : (archiveAddress value).Keeps (Sound given) := by
  unfold archiveAddress
  split
  · exact keeps_pure _
  · exact keeps_start.bind fun _ => keeps_throw _

lemma keeps_forM {β : Type} {P : Exchange → Prop} {f : β → Calls PUnit} (hf : ∀ b, (f b).Keeps P)
    (bs : List β) : (bs.forM f).Keeps P := by
  induction bs with
  | nil => exact keeps_pure _
  | cons b bs ih => exact (hf b).bind fun _ => ih

lemma keeps_unpackArchive (name version : String) (body : List UInt8) :
    (unpackArchive name version body).Keeps (Sound given) := by
  unfold unpackArchive
  split
  · exact keeps_throw _
  · refine (keeps_forM (fun _ => keeps_record _) _).bind fun _ => ?_
    exact (keeps_record _).bind fun _ => keeps_pure _

lemma keeps_files (s : Settings) (name version : String) :
    (files s name version).Keeps (Sound given) := by
  refine (keeps_description s name).bind fun described => ?_
  dsimp only
  split
  · exact keeps_throw _
  · split
    · exact keeps_throw _
    · refine (keeps_outcome _).bind fun value? => ?_
      cases value? with
      | none => exact keeps_throw _
      | some value =>
        refine (keeps_archiveAddress value).bind fun address => ?_
        refine (keeps_get s address none).bind fun answer => ?_
        obtain ⟨status, body⟩ := answer
        dsimp only
        split
        · exact keeps_throw _
        · exact keeps_unpackArchive name version body

/-- No operation loses a connection. -/
theorem keeps_perform (s : Settings) (o : Operation) : (perform s o).Keeps (Sound given) := by
  cases o with
  | address name => exact keeps_getThe.bind fun _ => keeps_pure _
  | versions name => exact ((keeps_description s name).bind fun _ => keeps_pure _).bind fun _ => keeps_pure _
  | files name version => exact (keeps_files s name version).bind fun _ => keeps_pure _
  | get address headers? => exact (keeps_get s address headers?).bind fun _ => keeps_pure _
  | start => exact keeps_start.bind fun _ => keeps_pure _
  | stop => exact keeps_stop.bind fun _ => keeps_pure _
  | enter => exact keeps_start.bind fun _ => keeps_pure _
  | leave => exact keeps_stop.bind fun _ => keeps_pure _
  | visit => exact keeps_start.bind fun _ => keeps_stop.bind fun _ => keeps_pure _

end Calls

/-- No sequence of operations loses a connection. -/
theorem sound_performAll (os : List Operation) (h : Sound given x) : Sound given (performAll s os x).2 := by
  induction os generalizing x with
  | nil => exact h
  | cons o os ih => exact ih (Calls.keeps_perform s o x h)

/-! ## The balance -/

/-- The connections of a client: all that it has opened are closed, but for the one that it holds, if it has
opened that itself; none is closed twice; the one that it was given is not closed; and whatever is requested is
requested on a connection that there is, and that is not closed before. -/
structure Balanced (given : Bool) (x : Exchange) : Prop where
  count : x.network.opened.length = x.network.closed.length + if x.client.own?.isSome then 1 else 0
  once : x.network.closed.Nodup
  spared : .given ∉ x.network.closed
  used : ∀ r ∈ x.network.requests,
    r.connection = .given ∧ given = true ∨ r.connection ∈ x.network.opened
  alive : x.network.Alive

/-- **Connections.**  Whatever is done with a client, with or without a connection that it is given, no
connection is lost or wrongly closed. -/
theorem balanced_performAll (s : Settings) (address? : Option String) (timeout? : Option Int) (given : Bool)
    (replies : List Reply) (os : List Operation) :
    Balanced given
      (performAll s os ⟨Client.new s address? timeout? given, { replies := replies }⟩).2 := by
  have h := sound_performAll (s := s) os (Sound.new s address? timeout? given replies)
  refine ⟨?_, h.nodup.of_append_left, h.given_notMem, h.used, h.alive⟩
  rw [h.shared.length_eq, List.length_append]
  cases (performAll s os _).2.client.own? <;> rfl

end SourceBundle.Registry
