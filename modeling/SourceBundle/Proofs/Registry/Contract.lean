/-
# With what the client fails

Whoever asks the client for the versions of a package, or for the files of one, is to get them or a fault of
the registry.  There are five ways in which something else comes out: an address with a malformed port, so
many attempts that there is no delay in front of the next one, a description with a number that is too long to
be read, one in which the part that says where the archive is is no object, and one in which the address of
the archive is no text.  Here it is proved that these are all, and what comes out of each.

Nothing is kept of a description that could not be had, so that the next call asks for it again.
-/
import SourceBundle.Proofs.Registry.Retries
import SourceBundle.Proofs.Table

namespace SourceBundle.Registry

open SourceBundle.Text

variable {α β : Type} {s : Settings} {x y : Exchange} {r : Except Fault α} {f : Fault}
  {name version address : String} {headers? : Option (List (String × String))} {replies : List Reply}
  {body : List UInt8} {vs : List (String × Json)} {described : Json}

/-! ## The contract -/

/-- A call gives what it is asked for, or a fault of the registry. -/
def Contracted (r : Except Fault α) : Prop := (∃ a, r = .ok a) ∨ ∃ rf, r = .error (.registry rf)

/-- A call fails with a fault that is none of the registry. -/
structure Escapes (r : Except Fault α) (f : Fault) : Prop where
  failed : r = .error f
  foreign : ∀ rf, f ≠ .registry rf

lemma contracted_iff : Contracted r ↔ ¬ ∃ f, Escapes r f := by
  constructor
  · rintro (⟨a, rfl⟩ | ⟨rf, rfl⟩) ⟨f, hfailed, hforeign⟩
    · cases hfailed
    · exact hforeign rf (Except.error.inj hfailed).symm
  · intro h
    cases r with
    | ok a => exact Or.inl ⟨a, rfl⟩
    | error f =>
      refine Or.inr ?_
      by_contra hforeign
      exact h ⟨f, rfl, fun rf hf => hforeign ⟨rf, by rw [hf]⟩⟩

lemma not_escapes_ok (a : α) : ¬ Escapes (.ok a) f := fun h => nomatch h.failed

lemma not_escapes_registry (rf : RegistryFault) : ¬ Escapes (.error (.registry rf) : Except Fault α) f :=
  fun h => h.foreign rf (Except.error.inj h.failed).symm

lemma escapes_error_iff (g : Fault) (hg : ∀ rf, g ≠ .registry rf) :
    Escapes (.error g : Except Fault α) f ↔ f = g := by
  constructor
  · intro h
    exact (Except.error.inj h.failed).symm
  · rintro rfl
    exact ⟨rfl, hg⟩

/-- Of two calls in a row either the first one fails, or it succeeds and the second one fails. -/
lemma escapes_bind_iff (m : Calls α) (g : α → Calls β) (x : Exchange) :
    Escapes ((m >>= g).exec x).1 f ↔
      Escapes (m.exec x).1 f ∨ ∃ a, (m.exec x).1 = .ok a ∧ Escapes ((g a).exec (m.after x)).1 f := by
  rw [exec_bind, Calls.after]
  cases m.exec x with
  | mk result y =>
    cases result with
    | ok a => simp [not_escapes_ok]
    | error e =>
      constructor
      · intro h
        exact Or.inl ⟨congrArg Except.error (Except.error.inj h.failed), h.foreign⟩
      · rintro (h | ⟨a, ha, -⟩)
        · exact ⟨congrArg Except.error (Except.error.inj h.failed), h.foreign⟩
        · cases ha

lemma not_escapes_bind {m : Calls α} {g : α → Calls β} (hm : ∀ x, ¬ Escapes (m.exec x).1 f)
    (hg : ∀ a x, ¬ Escapes ((g a).exec x).1 f) (x : Exchange) : ¬ Escapes ((m >>= g).exec x).1 f := by
  rw [escapes_bind_iff]
  rintro (h | ⟨a, -, h⟩)
  · exact hm x h
  · exact hg a _ h

lemma not_escapes_pure (a : α) (x : Exchange) : ¬ Escapes ((pure a : Calls α).exec x).1 f :=
  not_escapes_ok a

lemma not_escapes_record (l : LogRecord) (x : Exchange) : ¬ Escapes ((record l).exec x).1 f :=
  not_escapes_ok ()

/-! ## Requests -/

/-- An address can be taken apart, but its port is no number of a port. -/
def HasBadPort (address : String) : Prop :=
  ∃ u, Url.split? address = some u ∧ Url.portNumber? (Url.hostPort u.authority).2 = none

lemma safe_cases (address : String) :
    (HasBadPort address ∧ Url.safe address = .error {}) ∨
      (¬ HasBadPort address ∧ ∃ shown, Url.safe address = .ok shown) := by
  unfold HasBadPort Url.safe
  cases hsplit : Url.split? address with
  | none => exact Or.inr ⟨nofun, _, rfl⟩
  | some u =>
    cases hport : Url.portNumber? (Url.hostPort u.authority).2 with
    | none => exact Or.inl ⟨⟨u, rfl, hport⟩, by simp only [hport]⟩
    | some n =>
      refine Or.inr ⟨?_, _, by simp only [hport]; rfl⟩
      rintro ⟨u', hu', hport'⟩
      obtain rfl := Option.some.inj hu'
      exact absurd (hport.symm.trans hport') nofun

/-- How a request fails with a fault that is none of the registry. -/
inductive RequestEscapes (s : Settings) (replies : List Reply) (address : String) : Fault → Prop
  /-- The address has a malformed port, so that it cannot even be logged. -/
  | badPort (h : HasBadPort address) : RequestEscapes s replies address .badPort
  /-- There are more attempts than delays. -/
  | tooMany {m : Nat} (hport : ¬ HasBadPort address) (hm : LastAttempt s replies m) (h : 1025 < m) :
      RequestEscapes s replies address .overflow

/-- The answer that a request gets in the end. -/
structure Answered (s : Settings) (replies : List Reply) (address : String) (status : Int)
    (body : List UInt8) : Prop where
  port : ¬ HasBadPort address
  last : ∃ m ≤ 1025, LastAttempt s replies m ∧ replyAt replies (m - 1) = .answered status body
  served : status < 500

/-- What a request gives is told by its address and by the last attempt. -/
lemma exec_get_cases (s : Settings) (x : Exchange) (address : String)
    (headers? : Option (List (String × String))) :
    (HasBadPort address ∧ ((get s address headers?).exec x).1 = .error .badPort) ∨
      ¬ HasBadPort address ∧ ∃ shown, ∀ m, LastAttempt s x.network.replies m →
        ((get s address headers?).exec x).1 =
          if m ≤ 1025 then verdict s shown (replyAt x.network.replies (m - 1)) else .error .overflow := by
  rcases safe_cases address with ⟨hport, hsafe⟩ | ⟨hport, shown, hsafe⟩
  · refine Or.inl ⟨hport, ?_⟩
    rw [get, exec_bind, hsafe]
    rfl
  · obtain ⟨c, y, -, hget⟩ := exec_get (s := s) x headers? hsafe
    exact Or.inr ⟨hport, shown, fun m hm => by rw [(hget m hm).1]⟩

lemma verdict_eq_ok_iff {shown : String} {reply : Reply} {status : Int} :
    verdict s shown reply = .ok (status, body) ↔ reply = .answered status body ∧ status < 500 := by
  cases reply with
  | timedOut => simp [verdict]
  | broken reason => simp [verdict]
  | answered status' body' =>
    by_cases hstatus : status' < 500
    · simp only [verdict, if_pos hstatus, Except.ok.injEq, Prod.mk.injEq, Reply.answered.injEq]
      constructor
      · rintro ⟨rfl, rfl⟩
        exact ⟨⟨rfl, rfl⟩, hstatus⟩
      · exact And.left
    · simp only [verdict, if_neg hstatus, reduceCtorEq, Reply.answered.injEq, false_iff, not_and]
      rintro ⟨rfl, -⟩
      exact hstatus

lemma not_escapes_verdict (shown : String) (reply : Reply) : ¬ Escapes (verdict s shown reply) f := by
  cases reply with
  | timedOut => exact not_escapes_registry _
  | broken reason => exact not_escapes_registry _
  | answered status body =>
    rw [verdict]
    split
    · exact not_escapes_ok _
    · exact not_escapes_registry _

lemma escapes_get_iff :
    Escapes ((get s address headers?).exec x).1 f ↔ RequestEscapes s x.network.replies address f := by
  rcases exec_get_cases s x address headers? with ⟨hport, hget⟩ | ⟨hport, shown, hget⟩
  · rw [hget, escapes_error_iff .badPort nofun]
    constructor
    · rintro rfl
      exact .badPort hport
    · rintro (_ | ⟨hnot, -, -⟩)
      · rfl
      · exact absurd hport hnot
  · constructor
    · intro h
      obtain ⟨m, hm⟩ := exists_lastAttempt s x.network.replies
      rw [hget m hm] at h
      by_cases hle : m ≤ 1025
      · rw [if_pos hle] at h
        exact absurd h (not_escapes_verdict _ _)
      · rw [if_neg hle, escapes_error_iff .overflow nofun] at h
        subst h
        exact .tooMany hport hm (Nat.lt_of_not_le hle)
    · rintro (h | ⟨-, hm, hlt⟩)
      · exact absurd h hport
      · rw [hget _ hm, if_neg (Nat.not_le.mpr hlt), escapes_error_iff .overflow nofun]

lemma get_eq_ok_iff {status : Int} :
    ((get s address headers?).exec x).1 = .ok (status, body) ↔
      Answered s x.network.replies address status body := by
  rcases exec_get_cases s x address headers? with ⟨hport, hget⟩ | ⟨hport, shown, hget⟩
  · rw [hget]
    exact ⟨nofun, fun h => absurd hport h.port⟩
  · constructor
    · intro h
      obtain ⟨m, hm⟩ := exists_lastAttempt s x.network.replies
      rw [hget m hm] at h
      by_cases hle : m ≤ 1025
      · rw [if_pos hle, verdict_eq_ok_iff] at h
        exact ⟨hport, ⟨m, hle, hm, h.1⟩, h.2⟩
      · rw [if_neg hle] at h
        cases h
    · rintro ⟨-, ⟨m, hle, hm, hreply⟩, hserved⟩
      rw [hget m hm, if_pos hle, verdict_eq_ok_iff]
      exact ⟨hreply, hserved⟩

/-! ## Descriptions -/

/-- A body is a document with a number that is too long to be read. -/
def HoldsLongNumber (body : List UInt8) : Prop :=
  ∃ document, decodeDocument body = .ok document ∧
    Json.readUnmarked document.toList = .error .numberTooLong

lemma escapes_versionsOf_iff :
    Escapes (versionsOf name body) f ↔ HoldsLongNumber body ∧ f = .numberTooLong := by
  unfold versionsOf HoldsLongNumber
  cases decodeDocument body with
  | error reason =>
    refine iff_of_false (not_escapes_registry _) ?_
    rintro ⟨⟨document, hdocument, -⟩, -⟩
    cases hdocument
  | ok document =>
    simp only [Except.ok.injEq, exists_eq_left']
    cases Json.readUnmarked document.toList with
    | ok d =>
      refine iff_of_false ?_ fun h => nomatch h.1
      dsimp only
      cases (d.member? "versions").bind Json.members? with
      | none => exact not_escapes_registry _
      | some versions => exact not_escapes_ok _
    | error e =>
      cases e with
      | misfit c pos => exact iff_of_false (not_escapes_registry _) fun h => nomatch h.1
      | numberTooLong => exact (escapes_error_iff .numberTooLong nofun).trans (by simp)

/-- What an answer tells of the versions of a package. -/
def told (name : String) (answer : Int × List UInt8) : Except Fault (List (String × Json)) :=
  if answer.1 = 404 then
    .error (packageFault name s!"Package not found in registry: {name}" (some 404))
  else if answer.1 ≠ 200 then
    .error (packageFault name s!"Registry returned HTTP {answer.1} for {name}" (some answer.1))
  else versionsOf name answer.2

/-- An exchange whose client keeps a description. -/
def keep (name : String) (vs : List (String × Json)) (x : Exchange) : Exchange :=
  { x with client := { x.client with descriptions := x.client.descriptions.insert name vs } }

lemma exec_description_kept (h : x.client.descriptions.get? name = some vs) :
    (description s name).exec x = (.ok vs, x) := by
  have hget : (getThe Exchange : Calls Exchange).exec x = (.ok x, x) := rfl
  rw [description, exec_bind, hget]
  dsimp only
  rw [h]
  rfl

/-- Take what an answer tells of the versions of a package, and keep it. -/
def learn (name : String) (answer : Int × List UInt8) : Calls (List (String × Json)) := do
  let vs ← outcome (told name answer)
  modify (keep name vs)
  pure vs

lemma exec_learn (name : String) (answer : Int × List UInt8) (x : Exchange) :
    (learn name answer).exec x = match told name answer with
      | .ok vs => (.ok vs, keep name vs x)
      | .error e => (.error e, x) := by
  rw [learn, exec_bind]
  cases told name answer <;> rfl

/-- A description that is not kept is asked for. -/
lemma exec_description_new (h : x.client.descriptions.get? name = none) :
    (description s name).exec x =
      (get s (x.client.addressOf name) (some accepted) >>= learn name).exec x := by
  have hstart : (getThe Exchange : Calls Exchange).exec x = (.ok x, x) := rfl
  rw [description, exec_bind, hstart]
  dsimp only
  rw [h]
  dsimp only
  rw [exec_bind, exec_bind]
  cases (get s (x.client.addressOf name) (some accepted)).exec x with
  | mk result y =>
    cases result with
    | error e => rfl
    | ok answer =>
      obtain ⟨status, body⟩ := answer
      dsimp only
      rw [exec_learn, told]
      split
      · rfl
      · split
        · rfl
        · rw [exec_bind]
          cases versionsOf name body <;> rfl

/-- How a description cannot be had, with a fault that is none of the registry. -/
inductive LookupEscapes (s : Settings) (name : String) (x : Exchange) : Fault → Prop
  /-- It is not kept, and the request for it fails. -/
  | request {f : Fault} (hnew : x.client.descriptions.get? name = none)
      (h : RequestEscapes s x.network.replies (x.client.addressOf name) f) : LookupEscapes s name x f
  /-- It is not kept, and the answer holds a number that is too long. -/
  | longNumber {body : List UInt8} (hnew : x.client.descriptions.get? name = none)
      (hbody : Answered s x.network.replies (x.client.addressOf name) 200 body)
      (h : HoldsLongNumber body) : LookupEscapes s name x .numberTooLong

lemma escapes_told_iff {status : Int} :
    Escapes (told name (status, body)) f ↔ status = 200 ∧ HoldsLongNumber body ∧ f = .numberTooLong := by
  unfold told
  split
  · rename_i hstatus
    exact iff_of_false (not_escapes_registry _) fun h => absurd (hstatus.symm.trans h.1) (by decide)
  · split
    · rename_i hstatus
      exact iff_of_false (not_escapes_registry _) fun h => hstatus h.1
    · rename_i hstatus
      rw [escapes_versionsOf_iff]
      exact (and_iff_right (not_not.mp hstatus)).symm

lemma escapes_learn_iff {answer : Int × List UInt8} :
    Escapes ((learn name answer).exec x).1 f ↔ Escapes (told name answer) f := by
  rw [exec_learn]
  cases told name answer with
  | error e => exact ⟨fun h => ⟨h.failed, h.foreign⟩, fun h => ⟨h.failed, h.foreign⟩⟩
  | ok vs => exact iff_of_false (not_escapes_ok _) (not_escapes_ok _)

lemma escapes_description_iff :
    Escapes ((description s name).exec x).1 f ↔ LookupEscapes s name x f := by
  cases hkept : x.client.descriptions.get? name with
  | some vs =>
    rw [exec_description_kept hkept]
    refine iff_of_false (not_escapes_ok _) fun h => ?_
    cases h with
    | request hnew _ => exact absurd (hkept.symm.trans hnew) nofun
    | longNumber hnew _ _ => exact absurd (hkept.symm.trans hnew) nofun
  | none =>
    rw [exec_description_new hkept, escapes_bind_iff, escapes_get_iff]
    constructor
    · rintro (h | ⟨⟨status, body⟩, hok, h⟩)
      · exact .request hkept h
      · rw [escapes_learn_iff, escapes_told_iff] at h
        obtain ⟨rfl, hlong, rfl⟩ := h
        exact .longNumber hkept (get_eq_ok_iff.mp hok) hlong
    · intro h
      cases h with
      | request _ h => exact Or.inl h
      | longNumber _ hbody hlong =>
        refine Or.inr ⟨_, get_eq_ok_iff.mpr hbody, ?_⟩
        rw [escapes_learn_iff, escapes_told_iff]
        exact ⟨rfl, hlong, rfl⟩

/-- A description that is not kept can be had from an answer. -/
lemma description_of_answered (hnew : x.client.descriptions.get? name = none)
    (hbody : Answered s x.network.replies (x.client.addressOf name) 200 body)
    (hvs : versionsOf name body = .ok vs) : ((description s name).exec x).1 = .ok vs := by
  have hget : ((get s (x.client.addressOf name) (some accepted)).exec x).1 = .ok (200, body) :=
    get_eq_ok_iff.mpr hbody
  rw [exec_description_new hnew, exec_bind]
  cases hexec : (get s (x.client.addressOf name) (some accepted)).exec x with
  | mk result y =>
    rw [hexec] at hget
    dsimp only at hget
    subst hget
    dsimp only
    have htold : told name (200, body) = .ok vs := hvs
    rw [exec_learn, htold]

/-! ## What is kept -/

/-- A client that has the same address of the registry and the same descriptions as another. -/
structure Remembers (c : Client) (x : Exchange) : Prop where
  base : x.client.base = c.base
  descriptions : x.client.descriptions = c.descriptions

namespace Calls

variable {c : Client}

lemma keeps_remembers_start : start.Keeps (Remembers c) := by
  intro x h
  cases hc : x.client.connection? with
  | some _ => rwa [after_start_of_some hc]
  | none =>
    rw [after_start_of_none hc]
    exact ⟨h.base, h.descriptions⟩

lemma keeps_remembers_record (l : LogRecord) : (record l).Keeps (Remembers c) := fun _ h =>
  ⟨h.base, h.descriptions⟩

lemma keeps_remembers_send (address : String) (headers? : Option (List (String × String))) :
    (send address headers?).Keeps (Remembers c) := fun _ h => ⟨h.base, h.descriptions⟩

lemma keeps_remembers_wait (s : Settings) (k : Nat) : (wait s k).Keeps (Remembers c) := by
  unfold wait
  cases delay? s k with
  | none => exact keeps_throw _
  | some d => exact fun _ h => ⟨h.base, h.descriptions⟩

lemma keeps_remembers_get (s : Settings) (address : String)
    (headers? : Option (List (String × String))) : (get s address headers?).Keeps (Remembers c) := by
  refine keeps_remembers_start.bind fun _ => ?_
  cases Url.safe address with
  | error e => exact keeps_throw _
  | ok shown =>
    exact keeps_tryFrom_of_steps keeps_remembers_send keeps_remembers_record (keeps_remembers_wait s)
      address shown headers? _ _ _

end Calls

/-- A lookup that fails leaves the descriptions as they are. -/
lemma remembers_of_failed (h : (description s name).exec x = (.error f, y)) : Remembers x.client y := by
  cases hkept : x.client.descriptions.get? name with
  | some vs =>
    rw [exec_description_kept hkept] at h
    cases h
  | none =>
    have hget := Calls.keeps_remembers_get (c := x.client) s (x.client.addressOf name) (some accepted)
      x ⟨rfl, rfl⟩
    rw [exec_description_new hkept, exec_bind] at h
    rw [Calls.after] at hget
    cases hexec : (get s (x.client.addressOf name) (some accepted)).exec x with
    | mk result z =>
      rw [hexec] at h hget
      cases result with
      | error e =>
        cases h
        exact hget
      | ok answer =>
        dsimp only at h
        rw [exec_learn] at h
        cases htold : told name answer with
        | error e =>
          rw [htold] at h
          cases h
          exact hget
        | ok vs =>
          rw [htold] at h
          cases h

/-! ## Archives -/

/-- What a description has in the place where it should say where the archive is, is no object. -/
def HasNoPlace (described : Json) : Prop :=
  ∃ dist, described.member? "dist" = some dist ∧ dist.isTruthy = true ∧ dist.members? = none

/-- A description says where the archive is, with something that should be an address. -/
def Locates (described value : Json) : Prop :=
  ∃ ms, described.member? "dist" = some (.object ms) ∧ Table.look "tarball" ms = some value ∧
    value.isTruthy = true

lemma archiveValue?_eq_error_iff :
    archiveValue? described = .error f ↔ HasNoPlace described ∧ f = .badDescription := by
  unfold archiveValue? HasNoPlace
  cases described.member? "dist" with
  | none => simp
  | some dist =>
    simp only [Option.some.injEq, exists_eq_left']
    split
    · cases dist.members? with
      | none => simp [*, eq_comm (a := f)]
      | some ms => simp
    · simp [*]

lemma isTruthy_of_look {name : String} {ms : List (String × Json)} {value : Json}
    (h : Table.look name ms = some value) : (Json.object ms).isTruthy = true := by
  cases ms with
  | nil => cases h
  | cons m ms => rfl

lemma archiveValue?_eq_some_iff {value : Json} :
    archiveValue? described = .ok (some value) ↔ Locates described value := by
  unfold archiveValue? Locates
  constructor
  · intro h
    split at h
    · cases h
    · rename_i dist hdist
      split at h
      · cases dist with
        | object ms =>
          obtain ⟨hvalue, htruthy⟩ := Option.filter_eq_some_iff.mp (Except.ok.inj h)
          exact ⟨ms, hdist, hvalue, htruthy⟩
        | _ => cases h
      · cases h
  · rintro ⟨ms, hdist, hvalue, htruthy⟩
    rw [hdist]
    dsimp only
    rw [if_pos (isTruthy_of_look hvalue)]
    exact congrArg Except.ok (Option.filter_eq_some_iff.mpr ⟨hvalue, htruthy⟩)

/-- How the files of a version cannot be had, with a fault that is none of the registry, when this is what is
said of the versions. -/
inductive DownloadEscapes (s : Settings) (replies : List Reply) (vs : List (String × Json))
    (version : String) : Fault → Prop
  /-- What should say where the archive is, is no object. -/
  | noPlace {described : Json} (hlook : Table.look version vs = some described)
      (h : HasNoPlace described) : DownloadEscapes s replies vs version .badDescription
  /-- What should be the address of the archive is no text. -/
  | noText {described value : Json} (hlook : Table.look version vs = some described)
      (hvalue : Locates described value) (h : value.text? = none) :
      DownloadEscapes s replies vs version .badDescription
  /-- The request for the archive fails. -/
  | request {described : Json} {address : String} {f : Fault}
      (hlook : Table.look version vs = some described) (haddress : Locates described (.text address))
      (h : RequestEscapes s replies address f) : DownloadEscapes s replies vs version f

/-- Take the files from the answer to the request for an archive. -/
def takeFiles (name version : String) (answer : Int × List UInt8) : Calls (Table String String) :=
  if answer.1 ≠ 200 then
    throw (packageFault name s!"Tarball download for {name}@{version} returned HTTP {answer.1}"
      (some answer.1))
  else unpackArchive name version answer.2

/-- Download the archive that is at such a place, if any. -/
def download (s : Settings) (name version : String) : Option Json → Calls (Table String String)
  | none => throw (packageFault name s!"No tarball for {name}@{version}" none)
  | some value => do
    let address ← archiveAddress value
    let answer ← get s address none
    takeFiles name version answer

/-- Download the files of a version, of which this is said. -/
def filesOf (s : Settings) (name version : String) (vs : List (String × Json)) :
    Calls (Table String String) :=
  let unpublished := packageFault name s!"Version {version} of {name} is not published" none
  match Table.look version vs with
  | none => throw unpublished
  | some described =>
    if described.members?.isNone then throw unpublished
    else do
      let place? ← outcome (archiveValue? described)
      download s name version place?

lemma files_eq (s : Settings) (name version : String) :
    files s name version = description s name >>= filesOf s name version := by
  unfold files filesOf
  congr

lemma not_escapes_records (paths : List String) (x : Exchange) :
    ¬ Escapes ((paths.forM fun path => record (.notText path)).exec x).1 f := by
  induction paths generalizing x with
  | nil => exact not_escapes_ok _
  | cons path paths ih => exact not_escapes_bind (not_escapes_record _) (fun _ => ih) x

/-- An archive is corrupt, or its files are taken. -/
lemma not_escapes_takeFiles (name version : String) (answer : Int × List UInt8) (x : Exchange) :
    ¬ Escapes ((takeFiles name version answer).exec x).1 f := by
  unfold takeFiles
  split
  · exact not_escapes_registry _
  · unfold unpackArchive
    split
    · exact not_escapes_registry _
    · exact not_escapes_bind (not_escapes_records _)
        (fun _ => not_escapes_bind (not_escapes_record _) fun _ => not_escapes_pure _) x

lemma escapes_download_iff {value : Json} :
    Escapes ((download s name version (some value)).exec x).1 f ↔
      value.text? = none ∧ f = .badDescription ∨
        ∃ address, value = .text address ∧ RequestEscapes s x.network.replies address f := by
  have htake : ∀ address y, Escapes ((get s address none >>= takeFiles name version).exec y).1 f ↔
      RequestEscapes s y.network.replies address f := by
    intro address y
    rw [escapes_bind_iff, escapes_get_iff]
    constructor
    · rintro (h | ⟨answer, -, h⟩)
      · exact h
      · exact absurd h (not_escapes_takeFiles _ _ _ _)
    · exact Or.inl
  cases value with
  | text address =>
    have hdownload : download s name version (some (.text address)) =
        get s address none >>= takeFiles name version := rfl
    rw [hdownload, htake]
    simp [Json.text?]
  | _ =>
    refine (escapes_error_iff .badDescription nofun).trans ?_
    simp [Json.text?]

/-- What is said of the version decides. -/
lemma downloadEscapes_iff (hlook : Table.look version vs = some described) :
    DownloadEscapes s replies vs version f ↔
      HasNoPlace described ∧ f = .badDescription ∨ ∃ value, Locates described value ∧
        (value.text? = none ∧ f = .badDescription ∨
          ∃ address, value = .text address ∧ RequestEscapes s replies address f) := by
  constructor
  · intro h
    cases h with
    | noPlace hlook' h =>
      obtain rfl := Option.some.inj (hlook.symm.trans hlook')
      exact Or.inl ⟨h, rfl⟩
    | noText hlook' hvalue h =>
      obtain rfl := Option.some.inj (hlook.symm.trans hlook')
      exact Or.inr ⟨_, hvalue, Or.inl ⟨h, rfl⟩⟩
    | request hlook' haddress h =>
      obtain rfl := Option.some.inj (hlook.symm.trans hlook')
      exact Or.inr ⟨_, haddress, Or.inr ⟨_, rfl, h⟩⟩
  · rintro (⟨h, rfl⟩ | ⟨value, hvalue, ⟨h, rfl⟩ | ⟨address, rfl, h⟩⟩)
    · exact .noPlace hlook h
    · exact .noText hlook hvalue h
    · exact .request hlook hvalue h

lemma member?_of_members? (h : described.members? = none) (name : String) :
    described.member? name = none := by
  cases described with
  | object ms => cases h
  | _ => rfl

lemma escapes_filesOf_iff :
    Escapes ((filesOf s name version vs).exec x).1 f ↔ DownloadEscapes s x.network.replies vs version f := by
  unfold filesOf
  cases hlook : Table.look version vs with
  | none =>
    refine iff_of_false (not_escapes_registry _) fun h => ?_
    cases h with
    | _ hlook' => cases hlook.symm.trans hlook'
  | some described =>
    rw [downloadEscapes_iff hlook]
    dsimp only
    split
    · -- what is no object says nothing of a place
      rename_i hmembers
      have hmember := member?_of_members? (Option.isNone_iff_eq_none.mp hmembers) "dist"
      refine iff_of_false (not_escapes_registry _) ?_
      simp [HasNoPlace, Locates, hmember]
    · rw [escapes_bind_iff]
      change Escapes (archiveValue? described) f ∨
        (∃ place?, archiveValue? described = .ok place? ∧
          Escapes ((download s name version place?).exec x).1 f) ↔ _
      refine or_congr ?_ ?_
      · constructor
        · exact fun h => archiveValue?_eq_error_iff.mp h.failed
        · rintro ⟨h, rfl⟩
          refine ⟨archiveValue?_eq_error_iff.mpr ⟨h, rfl⟩, fun rf hrf => ?_⟩
          cases hrf
      · constructor
        · rintro ⟨place?, hplace, h⟩
          cases place? with
          | none => exact absurd h (not_escapes_registry _)
          | some value => exact ⟨value, archiveValue?_eq_some_iff.mp hplace, escapes_download_iff.mp h⟩
        · rintro ⟨value, hvalue, h⟩
          exact ⟨some value, archiveValue?_eq_some_iff.mpr hvalue, escapes_download_iff.mpr h⟩

/-- How the files of a version cannot be had, with a fault that is none of the registry. -/
inductive FilesEscape (s : Settings) (name version : String) (x : Exchange) : Fault → Prop
  /-- The description cannot be had. -/
  | lookup {f : Fault} (h : LookupEscapes s name x f) : FilesEscape s name version x f
  /-- The description can be had, but the files of the version cannot. -/
  | download {f : Fault} {vs : List (String × Json)} (hvs : ((description s name).exec x).1 = .ok vs)
      (h : DownloadEscapes s ((description s name).after x).network.replies vs version f) :
      FilesEscape s name version x f

lemma escapes_files_iff :
    Escapes ((files s name version).exec x).1 f ↔ FilesEscape s name version x f := by
  rw [files_eq, escapes_bind_iff, escapes_description_iff]
  constructor
  · rintro (h | ⟨vs, hvs, h⟩)
    · exact .lookup h
    · exact .download hvs (escapes_filesOf_iff.mp h)
  · rintro (h | ⟨hvs, h⟩)
    · exact Or.inl h
    · exact Or.inr ⟨_, hvs, escapes_filesOf_iff.mpr h⟩

lemma escapes_versions_iff :
    Escapes ((versions s name).exec x).1 f ↔ LookupEscapes s name x f := by
  rw [versions, escapes_bind_iff, escapes_description_iff]
  refine or_iff_left ?_
  rintro ⟨vs, -, h⟩
  exact not_escapes_pure _ _ h

/-! ## What comes out -/

/-- Behind a lookup that has failed, the next one is as good as the first: the same description is asked for,
and whatever the answer to that tells is given. -/
structure Unspoilt (s : Settings) (name : String) (c : Client) (y : Exchange) : Prop where
  remembers : Remembers c y
  next : ∀ n body vs, Answered s n.replies (c.addressOf name) 200 body →
    versionsOf name body = .ok vs → ((versions s name).exec ⟨y.client, n⟩).1 = .ok (vs.map (·.1))

lemma description_failed (h : (description s name).exec x = (.error f, y)) :
    (versions s name).exec x = (.error f, y) ∧ (files s name version).exec x = (.error f, y) := by
  constructor
  · rw [versions, exec_bind, h]
  · rw [files_eq, exec_bind, h]

lemma unspoilt_of_failed (h : (description s name).exec x = (.error f, y)) :
    Unspoilt s name x.client y := by
  have hremembers := remembers_of_failed h
  refine ⟨hremembers, fun n body vs hbody hvs => ?_⟩
  have hnew : y.client.descriptions.get? name = none := by
    -- a description that has been kept would not have failed
    rw [hremembers.descriptions]
    by_contra hkept
    obtain ⟨vs', hvs'⟩ := Option.ne_none_iff_exists'.mp hkept
    rw [exec_description_kept hvs'] at h
    cases h
  have haddress : y.client.addressOf name = x.client.addressOf name := by
    rw [Client.addressOf, hremembers.base, Client.addressOf]
  have hdescription := description_of_answered (x := ⟨y.client, n⟩) hnew (by rwa [haddress]) hvs
  rw [versions, exec_bind]
  cases hexec : (description s name).exec ⟨y.client, n⟩ with
  | mk result z =>
    rw [hexec] at hdescription
    dsimp only at hdescription
    subst hdescription
    rfl

/-- A description in which a text stands where the place of the archive should be told. -/
def misplaced : List UInt8 := Utf8.encode "\x7b\"versions\":\x7b\"1.0.0\":\x7b\"dist\":\"x\"\x7d\x7d\x7d"

/-- A client whose first request is answered with this description. -/
def misled : Exchange := ⟨Client.new {} none none false, { replies := [.answered 200 misplaced] }⟩

lemma answered_misled :
    Answered {} misled.network.replies (misled.client.addressOf "a") 200 misplaced := by
  refine ⟨?_, ⟨1, by decide, ⟨le_refl 1, by decide, fun k hk => by omega, ?_⟩, rfl⟩, by decide⟩
  · have haddress : misled.client.addressOf "a" = "https://registry.npmjs.org/a" := by
      have hescape : Url.escape "a" = "a" := by decide +kernel
      rw [Client.addressOf, hescape]
      rfl
    have hlogged : Url.safe "https://registry.npmjs.org/a" = .ok "https://registry.npmjs.org/a" := rfl
    rw [haddress]
    rcases safe_cases "https://registry.npmjs.org/a" with ⟨-, hsafe⟩ | ⟨hport, -⟩
    · cases hlogged.symm.trans hsafe
    · exact hport
  · exact Or.inl ⟨200, misplaced, rfl, by decide⟩

lemma text_misplaced :
    (((versionsOf "a" misplaced).toOption.bind (Table.look "1.0.0")).bind
      (Json.member? "dist")).bind Json.text? = some "x" := by
  decide +kernel

/-- What is told of the version has a text in the place of its archive. -/
lemma exists_misplaced : ∃ vs described, versionsOf "a" misplaced = .ok vs ∧
    Table.look "1.0.0" vs = some described ∧ described.member? "dist" = some (.text "x") := by
  obtain ⟨dist, hdist, htext⟩ := Option.bind_eq_some_iff.mp text_misplaced
  obtain ⟨described, hdescribed, hmember⟩ := Option.bind_eq_some_iff.mp hdist
  obtain ⟨vs, hvs, hlook⟩ := Option.bind_eq_some_iff.mp hdescribed
  have hdist : dist = .text "x" := by
    cases dist with
    | text t => rw [Option.some.inj htext]
    | _ => cases htext
  cases hversions : versionsOf "a" misplaced with
  | error f =>
    rw [hversions] at hvs
    cases hvs
  | ok vs' =>
    rw [hversions] at hvs
    obtain rfl := Option.some.inj hvs
    exact ⟨vs', described, rfl, hlook, hdist ▸ hmember⟩

end SourceBundle.Registry
