/-
# Loading the index

Users want the index to be loaded, and others record and save meanwhile.  However many come, and whoever
of them is cancelled, one load is begun.  When it has ended, a lookup answers with the target that was
recorded last, and with the persisted one if none was recorded; those who wait are told that it is done,
and those who come later change nothing.

A content that is rejected holds no records, and so does a file that cannot be read.  Only one kind of
content is not dealt with so: to read a number that is too long fails, and so does the load.
-/
import SourceBundle.Proofs.Index.Persisted
import SourceBundle.Proofs.Json.LongNumber
import SourceBundle.Proofs.Service.Sound

namespace SourceBundle.Index

open Crowd

/-! ## Users who take no records away -/

/-- Whether a demand takes no records away. -/
def Demand.grows : Demand → Bool
  | load | save | edit (.record ..) => true
  | reload | edit (.clear _) => false

/-- Users only load, record and save, the workspace fails only with its own faults, and what is read is of
a certain kind. -/
structure Growing (K : String → Prop) (h : List Happening) : Prop where
  grows : ∀ n r, .begun n r ∈ h → r.grows = true
  own : OwnFaults h
  kind : ∀ n path content, .answered n (.read path) (.ok content) ∈ h → K content

/-- The target that a user records for an import.  An import that resolved to itself is not recorded. -/
def recorded? (file literal : String) : Happening → Option String
  | .begun _ (.edit (.record f l target)) =>
    if f = file ∧ l = literal ∧ l ≠ target then some target else none
  | _ => none

/-- The target that was recorded last for an import. -/
def lastRecorded (file literal : String) (h : List Happening) : Option String :=
  h.findSome? (recorded? file literal)

variable {path : String} {K : String → Prop} {c c' : Clerks} {d d' : Picture} {h : List Happening}
  {front back : List Clerk} {x : Clerk}

lemma Growing.of_append {news : List Happening} (hg : Growing K (news ++ h)) : Growing K h where
  grows n r hm := hg.grows n r (List.mem_append_right _ hm)
  own := hg.own.of_append
  kind n p content hm := hg.kind n p content (List.mem_append_right _ hm)

lemma Growing.not_reload (hg : Growing K h) (n : Nat) : .begun n .reload ∉ h :=
  fun hm => absurd (hg.grows n _ hm) (by decide)

/-- To record adds a target, and leaves the others alone. -/
lemma find?_revise_record (f l target : String) (r : IndexData) (file literal : String) :
    ((Edit.record f l target).revise r).find? file literal =
      (if f = file ∧ l = literal ∧ l ≠ target then some target else none).or
        (r.find? file literal) := by
  have hlookup := lookup_record { path := "", data := r } f l target file literal
  have hfind : ((Edit.record f l target).revise r).find? file literal = _ := hlookup
  rw [hfind]
  split <;> rfl

/-- Among records that only grow, the last one of an import counts, and before it the one that was there. -/
lemma find?_edited (hg : ∀ n r, .begun n r ∈ h → r.grows = true) (r : IndexData)
    (file literal : String) :
    (edited r h).find? file literal = (lastRecorded file literal h).or (r.find? file literal) := by
  induction h with
  | nil => rfl
  | cons e h ih =>
    have ih := ih fun n r hm => hg n r (List.mem_cons_of_mem _ hm)
    rw [lastRecorded, List.findSome?_cons]
    cases e with
    | begun n demand =>
      cases demand with
      | edit e =>
        cases e with
        | record f l target =>
          rw [edited, List.foldr_cons, ← edited, show editing _ = (Edit.record f l target).revise from rfl,
            find?_revise_record, ih]
          simp only [recorded?]
          split <;> rfl
        | clear f => exact absurd (hg n _ List.mem_cons_self) (by simp [Demand.grows])
      | _ => exact ih
    | _ => exact ih

lemma Obtained.recorded?_eq {n : Nat} {e : Happening} {persisted : IndexData}
    (ho : Obtained n e persisted) (file literal : String) : recorded? file literal e = none := by
  cases ho <;> rfl

/-- What the records are made of when a load has ended, and no other load has read anything. -/
lemma find?_replay (hg : Growing K h) {n : Nat} {later earlier : List Happening} {e : Happening}
    {persisted : IndexData} (hs : Settled h n later e earlier persisted)
    (honly : ∀ m, HasRead h m → m = n) (file literal : String) :
    (replay h).find? file literal =
      (lastRecorded file literal h).or (persisted.find? file literal) := by
  have hlater : later ⊆ h := by simp [hs.split]
  have hearlier : earlier ⊆ h := fun x hx => by simp [hs.split, hx]
  have hreads : ∀ l ⊆ h, OnlyReads n l := fun l hl m p content hm =>
    Or.inl (honly m ⟨p, content, hl hm⟩)
  have hunread : ¬ HasRead later n := by
    rintro ⟨p, content, hm⟩
    exact hs.last _ hm rfl
  -- before the load obtains its records, what has been recorded is all there is
  have hmade := replay_append (fun m hm => hg.not_reload m (hearlier hm)) (hreads _ hearlier) hs.first []
  rw [List.append_nil, show replay [] = ∅ from rfl] at hmade
  have hedited : replay h = edited (overlay persisted (edited ∅ earlier)) later := by
    rw [hs.split, replay_append (fun m hm => hg.not_reload m (hlater hm)) (hreads _ hlater) hunread,
      hs.obtained.replay_cons, hmade]
  have hempty : IndexData.find? ∅ file literal = none := rfl
  rw [hedited, find?_edited fun n r hm => hg.grows n r (hlater hm), find?_overlay,
    find?_edited fun n r hm => hg.grows n r (hearlier hm), hempty, Option.or_none, ← Option.or_assoc]
  simp only [lastRecorded, hs.split, List.findSome?_append, List.findSome?_cons,
    hs.obtained.recorded?_eq]

/-! ## How far the loading has come -/

/-- What an index knows about its loads. -/
structure Standing where
  /-- Whether it is loaded. -/
  loaded : Bool
  /-- The load that new callers join. -/
  joined? : Option Nat
  /-- How the finished loads ended. -/
  ended : List (Nat × Except Fault Unit)
  /-- The number of loads begun. -/
  begun : Nat

/-- What the index knows about its loads. -/
def standing (i : Index) : Standing := ⟨i.loaded, i.loading?, i.loads, i.loadsBegun⟩

/-- How far the loading of the index has come. -/
inductive Phase (d : Picture) : Prop
  /-- Nobody has wanted the index to be loaded. -/
  | idle : d.index.standing = ⟨false, none, [], 0⟩ → d.loaders = [] → (∀ n, ¬ HasRead d.history n) →
    Phase d
  /-- The load has begun. -/
  | underway : d.index.standing = ⟨false, some 0, [], 1⟩ → d.loaders.length ≤ 1 →
    (∀ n, ¬ HasRead d.history n) → Phase d
  /-- The load has ended. -/
  | finished (n : Nat) : d.index.standing = ⟨true, some 0, [(0, .ok ())], 1⟩ → d.loaders = [] →
    d.Ended n → (∀ m, HasRead d.history m → m = n) → Phase d

/-- A content has been read. -/
def hasRead : Happening → Bool
  | .answered _ (.read _) (.ok _) => true
  | _ => false

/-- What has been read was read before, if this event reads nothing. -/
lemma HasRead.of_cons {e : Happening} {n : Nat} (hr : HasRead (e :: h) n) (he : hasRead e = false) :
    HasRead h n := by
  obtain ⟨p, content, hm⟩ := hr
  refine ⟨p, content, (List.mem_cons.mp hm).resolve_left ?_⟩
  rintro rfl
  cases he

lemma recordsIn_isOk {content : String} (hm : Json.Measured content) : (recordsIn content).isOk = true := by
  have hne := ne_numberTooLong_of_measured hm
  unfold recordsIn
  split <;> simp_all [Except.isOk, Except.toBool]

/-- A load that is dealt with obtains some records. -/
lemma Clerk.Loads.isOk {n ticket : Nat} {q : Question} {a : q.Answer} {r : Except Fault IndexData}
    (hl : x.Loads path n ticket q a r) (hg : Growing K (.answered n q a :: h))
    (hK : ∀ content, K content → Json.Measured content) : r.isOk = true := by
  cases hl with
  | absent => rfl
  | read again content => exact recordsIn_isOk (hK _ (hg.kind n path content List.mem_cons_self))
  | unprobed f =>
    obtain ⟨e, rfl⟩ := hg.own n _ f List.mem_cons_self
    rfl
  | unread again f _ =>
    obtain ⟨e, rfl⟩ := hg.own n _ f List.mem_cons_self
    rfl

namespace Phase

/-- What changes nothing about the loads keeps the phase. -/
lemma keep (hp : Phase d) (hm : Move path d d') (hstanding : d'.index.standing = d.index.standing)
    (hloaders : d'.loaders.Subperm d.loaders) (hread : ∀ n, HasRead d'.history n → HasRead d.history n) :
    Phase d' := by
  have hnil : d.loaders = [] → d'.loaders = [] := fun hd => List.subperm_nil.mp (hd ▸ hloaders)
  cases hp with
  | idle hs hl hu => exact .idle (hstanding.trans hs) (hnil hl) fun n hr => hu n (hread n hr)
  | underway hs hl hu =>
    exact .underway (hstanding.trans hs) (hloaders.length_le.trans hl) fun n hr => hu n (hread n hr)
  | finished n hs hl he hu =>
    exact .finished n (hstanding.trans hs) (hnil hl) (he.move hm) fun m hr => hu m (hread m hr)

/-- Who stops to wait for a load changes nothing about it: either it has not ended, or all went well. -/
lemma leaveLoad_eq (hp : Phase d) (ticket : Nat) : d.index.leaveLoad ticket = d.index := by
  cases hp with
  | idle hs _ _ =>
    have hloads : d.index.loads = [] := congrArg Standing.ended hs
    simp [leaveLoad, loadOutcome?, hloads]
  | underway hs _ _ =>
    have hloads : d.index.loads = [] := congrArg Standing.ended hs
    simp [leaveLoad, loadOutcome?, hloads]
  | finished n hs _ _ _ =>
    have hloaded : d.index.loaded = true := congrArg Standing.loaded hs
    simp [leaveLoad, hloaded]

/-- The first who wants the index to be loaded begins the load. -/
lemma load (hp : Phase d) (hloading : d.index.loading? = none) (n m : Nat)
    (hc : d'.clerks = .awaiter n d.index.loadsBegun :: .starter m d.index.loadsBegun :: d.clerks)
    (hindex : d'.index = d.index.whileLoading)
    (hread : ∀ n, HasRead d'.history n → HasRead d.history n) : Phase d' := by
  cases hp with
  | idle hs hl hu =>
    have hloaded : d.index.loaded = false := congrArg Standing.loaded hs
    have hloads : d.index.loads = [] := congrArg Standing.ended hs
    have hbegun : d.index.loadsBegun = 0 := congrArg Standing.begun hs
    have hloaders : d'.loaders = [(m, d.index.loadsBegun)] := by
      rw [Picture.loaders, hc]
      exact congrArg (_ :: ·) hl
    refine .underway ?_ (by rw [hloaders, List.length_singleton]) fun n hr => hu n (hread n hr)
    simp [standing, hindex, whileLoading, hloaded, hloads, hbegun]
  | underway hs _ _ =>
    have hsome : d.index.loading? = some 0 := congrArg Standing.joined? hs
    exact absurd (hsome.symm.trans hloading) (by simp)
  | finished n hs _ _ _ =>
    have hsome : d.index.loading? = some 0 := congrArg Standing.joined? hs
    exact absurd (hsome.symm.trans hloading) (by simp)

/-- The load ends. -/
lemma settle (hp : Phase d) (hs : d.Sound) {n ticket : Nat} {q : Question} {a : q.Answer}
    {r : Except Fault IndexData} (hc : d.clerks = front ++ x :: back)
    (hl : x.Loads path n ticket q a r) (hr : r.isOk = true) :
    Phase ⟨front ++ back, d.index.afterReading ticket r, .answered n q a :: d.history, d.fresh⟩ := by
  have hx : x ∈ d.clerks := by simp [hc]
  have hmem : (n, ticket) ∈ d.loaders := List.mem_filterMap.mpr ⟨x, hx, hl.load?⟩
  have hended := Picture.Ended.of_settle hs.numbered hs.unread hr hc hl
  cases hp with
  | idle _ hnil _ => exact absurd (hnil ▸ hmem) List.not_mem_nil
  | finished _ _ hnil _ _ => exact absurd (hnil ▸ hmem) List.not_mem_nil
  | underway hstanding hone hu =>
    have hloading : d.index.loading? = some 0 := congrArg Standing.joined? hstanding
    have hloads : d.index.loads = [] := congrArg Standing.ended hstanding
    have hbegun : d.index.loadsBegun = 1 := congrArg Standing.begun hstanding
    have hticket : ticket = 0 := by
      have hlt := hs.ticketed.running x hx n ticket hl.load?
      omega
    -- who ends the load was the only one to carry one out
    have hnil : (front ++ back).filterMap Clerk.load? = [] := by
      have hperm := (filterMap_perm Clerk.load? hc).length_eq
      rw [hl.load?, Option.toList_some, List.length_append, List.length_singleton] at hperm
      rw [← List.length_eq_zero_iff]
      unfold Picture.loaders at hone
      omega
    refine .finished n ?_ hnil hended fun m hread => ?_
    · cases r with
      | ok p => simp [standing, afterReading, finishLoad, hloading, hloads, hbegun, hticket]
      | error f => cases hr
    · obtain ⟨p, content, hm⟩ := hread
      rcases List.mem_cons.mp hm with heq | hm
      · cases heq
        rfl
      · exact absurd ⟨p, content, hm⟩ (hu m)

theorem move (hp : Phase d) (hs : d.Sound) (hm : Move path d d') (hg : Growing K d'.history)
    (hK : ∀ content, K content → Json.Measured content) : Phase d' := by
  have hm' := hm
  cases hm with
  | edit e =>
    refine hp.keep hm' ?_ (.refl _) fun n hr => (hr.of_cons rfl).of_cons rfl
    rw [rewritten_apply e]
    rfl
  | known _ => exact hp.keep hm' rfl (.refl _) fun n hr => (hr.of_cons rfl).of_cons rfl
  | join ticket _ _ => exact hp.keep hm' rfl (.refl _) fun n hr => hr.of_cons rfl
  | load hloaded hloading => exact hp.load hloading _ _ rfl rfl fun n hr => hr.of_cons rfl
  | reload => exact absurd List.mem_cons_self (hg.not_reload d.fresh)
  | enqueue => exact hp.keep hm' rfl (.refl _) fun n hr => hr.of_cons rfl
  | settle front back x n ticket q a r hc hl => exact hp.settle hs hc hl (hl.isOk hg hK)
  | learn front back n ticket r hc hr =>
    exact hp.keep hm' (congrArg standing (hp.leaveLoad_eq ticket))
      (Picture.Lone.subperm_go (y := none) hc rfl (by simp)) fun n hr => hr.of_cons rfl
  | leave front back n ticket hc =>
    exact hp.keep hm' (congrArg standing (hp.leaveLoad_eq ticket))
      (Picture.Lone.subperm_go (y := none) hc rfl (by simp)) fun n hr => hr.of_cons rfl
  | start front back n ticket hc =>
    exact hp.keep hm' rfl (Picture.Lone.subperm_go (y := some _) hc rfl (by simp [Clerk.load?]))
      fun n hr => hr.of_cons rfl
  | stop front back n ticket hc =>
    exact hp.keep hm' rfl (Picture.Lone.subperm_go (y := none) hc rfl (by simp)) fun n hr => hr
  | find front back n ticket hc =>
    exact hp.keep hm' rfl (Picture.Lone.subperm_go (y := some _) hc rfl (by simp [Clerk.load?]))
      fun n hr => (hr.of_cons rfl).of_cons rfl
  | again front back n ticket f hc =>
    exact hp.keep hm' rfl (Picture.Lone.subperm_go (y := some _) hc rfl (by simp [Clerk.load?]))
      fun n hr => (hr.of_cons rfl).of_cons rfl
  | take front back n ticket hc _ _ =>
    refine hp.keep hm' rfl (Picture.Lone.subperm_go (y := some _) hc rfl fun z hz => ?_)
      fun n hr => hr.of_cons rfl
    rw [← Option.mem_some.mp hz]
    unfold Clerk.saver
    split <;> rfl
  | lack front back n ticket snapshot dir hc =>
    exact hp.keep hm' rfl (Picture.Lone.subperm_go (y := some _) hc rfl (by simp [Clerk.load?]))
      fun n hr => (hr.of_cons rfl).of_cons rfl
  | write front back x n ticket snapshot q a hc hx =>
    refine hp.keep hm' rfl (Picture.Lone.subperm_go (y := some _) hc rfl fun z hz => ?_)
      fun n hr => (hr.of_cons rfl).of_cons ?_
    · rw [← Option.mem_some.mp hz]
      cases hx <;> rfl
    · cases hx <;> rfl
  | written front back n ticket snapshot hc =>
    exact hp.keep hm' rfl (Picture.Lone.subperm_go (y := none) hc rfl (by simp))
      fun n hr => (hr.of_cons rfl).of_cons rfl
  | fail front back x n ticket snapshot q f hc hx =>
    refine hp.keep hm' ?_ (Picture.Lone.subperm_go (y := none) hc rfl (by simp))
      fun n hr => (hr.of_cons rfl).of_cons ?_
    · cases f <;> rfl
    · cases hx <;> rfl
  | _ =>
    exact hp.keep hm' rfl (Picture.Lone.subperm_go (y := none) ‹_› rfl (by simp))
      fun n hr => hr.of_cons rfl

end Phase

/-! ## What users are told -/

/-- What a user is told by a move. -/
inductive Tells (d d' : Picture) (n : Nat) (t : Told) : Prop
  /-- It changes the records. -/
  | edit (e : Edit) : n = d.fresh → d'.history = .returned n .done :: .begun n (.edit e) :: d.history →
    Tells d d' n t
  /-- It wants the index to be loaded, and it is. -/
  | known : t = .done → d'.index.loaded = true → Tells d d' n t
  /-- It has waited for a load that has ended. -/
  | learn (ticket : Nat) (r : Except Fault Unit) : d.index.loadOutcome? ticket = some r →
    t = .of (fun _ => .done) r → Tells d d' n t
  /-- It has been cancelled. -/
  | leave : t = .failed .cancelled → Tells d d' n t
  /-- It saves. -/
  | save (x : Clerk) : x ∈ d.clerks → x.number = n → x.save?.isSome = true → Tells d d' n t

/-- Who has been told something now was told it before, or is told it by this move. -/
lemma Move.tells (hm : Move path d d') {n : Nat} {t : Told} (hr : .returned n t ∈ d'.history) :
    .returned n t ∈ d.history ∨ Tells d d' n t := by
  have hcons : ∀ {m : Nat} {u : Told} {l : List Happening}, .returned n t ∈ .returned m u :: l →
      (n = m ∧ t = u) ∨ .returned n t ∈ l := by
    intro m u l hmem
    rcases List.mem_cons.mp hmem with heq | hmem
    · cases heq
      exact Or.inl ⟨rfl, rfl⟩
    · exact Or.inr hmem
  cases hm with
  | edit e =>
    rcases hcons hr with ⟨rfl, rfl⟩ | hr
    · exact Or.inr (.edit e rfl rfl)
    · exact Or.inl (by simpa using hr)
  | known hloaded =>
    rcases hcons hr with ⟨rfl, rfl⟩ | hr
    · exact Or.inr (.known rfl hloaded)
    · exact Or.inl (by simpa using hr)
  | stop front back m ticket hc => exact Or.inl hr
  | learn front back m ticket r hc ho =>
    rcases hcons hr with ⟨rfl, rfl⟩ | hr
    · exact Or.inr (.learn ticket r ho rfl)
    · exact Or.inl hr
  | leave front back m ticket hc =>
    rcases hcons hr with ⟨rfl, rfl⟩ | hr
    · exact Or.inr (.leave rfl)
    · exact Or.inl hr
  | withdraw front back m ticket hc =>
    rcases hcons hr with ⟨rfl, rfl⟩ | hr
    · exact Or.inr (.leave rfl)
    · exact Or.inl hr
  | pass front back m ticket hc _ _ =>
    rcases hcons hr with ⟨rfl, rfl⟩ | hr
    · exact Or.inr (.save (.queuer n ticket) (by simp [hc]) rfl rfl)
    · exact Or.inl hr
  | written front back m ticket snapshot hc =>
    rcases hcons hr with ⟨rfl, rfl⟩ | hr
    · exact Or.inr (.save (.writer n ticket snapshot) (by simp [hc]) rfl rfl)
    · exact Or.inl (by simpa using hr)
  | fail front back x m ticket snapshot q f hc hs =>
    rcases hcons hr with ⟨rfl, rfl⟩ | hr
    · have hnumber : x.number = n := by cases hs <;> rfl
      refine Or.inr (.save x (by simp [hc]) hnumber ?_)
      rw [Clerk.save?_of_snapshot? hs.snapshot?]
      rfl
    · exact Or.inl (by simpa using hr)
  | _ => exact Or.inl (by simpa using hr)

/-- Who waits for a load still does after a move, or has been told something. -/
lemma Move.awaiter_stays (hm : Move path d d') {n ticket : Nat} (hx : .awaiter n ticket ∈ d.clerks) :
    .awaiter n ticket ∈ d'.clerks ∨ ∃ t, .returned n t ∈ d'.history := by
  have hrest : ∀ {front back : List Clerk} {x : Clerk} (xs : List Clerk), d.clerks = front ++ x :: back →
      .awaiter n ticket ≠ x → .awaiter n ticket ∈ xs ++ (front ++ back) := by
    intro front back x xs hc hne
    rw [hc] at hx
    simp only [List.mem_append, List.mem_cons, hne, false_or] at hx ⊢
    exact Or.inr hx
  have hgone : ∀ {front back : List Clerk} {m t : Nat} {u : Told} {l : List Happening},
      d.clerks = front ++ .awaiter m t :: back →
      .awaiter n ticket ∈ front ++ back ∨ ∃ t, .returned n t ∈ .returned m u :: l := by
    intro front back m t u l hc
    by_cases heq : Clerk.awaiter n ticket = .awaiter m t
    · cases heq
      exact Or.inr ⟨u, List.mem_cons_self⟩
    · exact Or.inl (hrest [] hc heq)
  cases hm with
  | edit e => exact Or.inl hx
  | known _ => exact Or.inl hx
  | join t _ _ => exact Or.inl (List.mem_cons_of_mem _ hx)
  | load _ _ => exact Or.inl (List.mem_cons_of_mem _ (List.mem_cons_of_mem _ hx))
  | reload => exact Or.inl (List.mem_cons_of_mem _ (List.mem_cons_of_mem _ hx))
  | enqueue => exact Or.inl (List.mem_cons_of_mem _ hx)
  | learn front back m t r hc _ => exact hgone hc
  | leave front back m t hc => exact hgone hc
  | settle front back x m t q a r hc hl =>
    refine Or.inl (hrest [] hc ?_)
    rintro rfl
    cases hl
  | write front back x m t snapshot q a hc hp =>
    refine Or.inl (hrest [_] hc ?_)
    rintro rfl
    cases hp
  | fail front back x m t snapshot q f hc hs =>
    refine Or.inl (hrest [] hc ?_)
    rintro rfl
    cases hs
  | start front back m t hc => exact Or.inl (hrest [_] hc nofun)
  | find front back m t hc => exact Or.inl (hrest [_] hc nofun)
  | again front back m t f hc => exact Or.inl (hrest [_] hc nofun)
  | take front back m t hc _ _ => exact Or.inl (hrest [_] hc nofun)
  | lack front back m t snapshot dir hc => exact Or.inl (hrest [_] hc nofun)
  | stop front back m t hc => exact Or.inl (hrest [] hc nofun)
  | withdraw front back m t hc => exact Or.inl (hrest [] hc nofun)
  | pass front back m t hc _ _ => exact Or.inl (hrest [] hc nofun)
  | written front back m t snapshot hc => exact Or.inl (hrest [] hc nofun)

/-- A user has one demand. -/
lemma Chronicle.begun_inj {n : Nat} {r r' : Demand} (hc : Chronicle h) (hr : .begun n r ∈ h)
    (hr' : .begun n r' ∈ h) : r = r' := by
  induction h with
  | nil => exact absurd hr List.not_mem_nil
  | cons e h ih =>
    rcases List.mem_cons.mp hr with rfl | hin
    · rcases List.mem_cons.mp hr' with heq | hin'
      · cases heq
        rfl
      · exact absurd (hc.1 (.begun n r') hin') (Nat.lt_irrefl n)
    · rcases List.mem_cons.mp hr' with rfl | hin'
      · exact absurd (hc.1 (.begun n r) hin) (Nat.lt_irrefl n)
      · cases e with
        | begun m s => exact ih hc.2 hin hin'
        | _ => exact ih hc hin hin'

/-- Who has come now had come before, or is the newest. -/
lemma Move.begun (hm : Move path d d') {n : Nat} {r : Demand} (hb : .begun n r ∈ d'.history) :
    .begun n r ∈ d.history ∨ n = d.fresh := by
  rcases hm.shape with ⟨xs, news, hs⟩ | ⟨front, x, back, y, news, hs⟩
  · rw [hs.history] at hb
    exact (List.mem_append.mp hb).symm.imp_right (hs.about _)
  · rw [hs.history] at hb
    exact (List.mem_append.mp hb).symm.imp_right fun hnew => absurd hnew (hs.silent n r)

/-- Who saves has come to save. -/
lemma Picture.Whole.begun_save (hw : d.Whole) (hx : x ∈ d.clerks) (hs : x.save?.isSome = true) :
    .begun x.number .save ∈ d.history := by
  have htaken : ∀ w, x.snapshot? = some w → .begun x.number .save ∈ d.history := by
    intro w hsnapshot
    obtain ⟨since, taken, hi⟩ := hw.taken x hx w hsnapshot
    rw [hi.split]
    exact List.mem_append_right _ hi.begun
  cases x with
  | queuer n ticket => exact hw.queues n ticket hx
  | searcher n ticket snapshot dir => exact htaken _ rfl
  | maker n ticket snapshot dir => exact htaken _ rfl
  | writer n ticket snapshot => exact htaken _ rfl
  | _ => cases hs

/-- What those who want the index to be loaded have been told. -/
structure Picture.Heard (d : Picture) : Prop where
  told : ∀ n t, .begun n .load ∈ d.history → .returned n t ∈ d.history →
    t = .failed .cancelled ∨ (t = .done ∧ d.index.loaded = true)
  waits : ∀ n, .begun n .load ∈ d.history →
    (∃ t, .returned n t ∈ d.history) ∨ .awaiter n 0 ∈ d.clerks

/-- The load that ended, ended well. -/
lemma Phase.outcome (hp : Phase d) {ticket : Nat} {r : Except Fault Unit}
    (ho : d.index.loadOutcome? ticket = some r) : r = .ok () ∧ d.index.loaded = true := by
  cases hp with
  | idle hs _ _ =>
    have hloads : d.index.loads = [] := congrArg Standing.ended hs
    simp [loadOutcome?, hloads] at ho
  | underway hs _ _ =>
    have hloads : d.index.loads = [] := congrArg Standing.ended hs
    simp [loadOutcome?, hloads] at ho
  | finished n hs _ _ _ =>
    have hloads : d.index.loads = [(0, .ok ())] := congrArg Standing.ended hs
    refine ⟨?_, congrArg Standing.loaded hs⟩
    rw [loadOutcome?, hloads, List.lookup_cons] at ho
    split at ho
    · exact (Option.some.inj ho).symm
    · cases ho

/-- Who comes to wait, waits for the first load. -/
lemma Phase.awaits (hp : Phase d) (hm : Move path d d') {n : Nat} (hb : .begun n .load ∈ d'.history)
    (hnew : .begun n .load ∉ d.history) :
    (∃ t, .returned n t ∈ d'.history) ∨ .awaiter n 0 ∈ d'.clerks := by
  cases hm with
  | known _ =>
    have heq : n = d.fresh := by simpa [hnew] using hb
    exact Or.inl ⟨.done, by simp [heq]⟩
  | join ticket hloaded hloading =>
    have heq : n = d.fresh := by simpa [hnew] using hb
    cases hp with
    | idle hs _ _ => exact absurd ((congrArg Standing.joined? hs).symm.trans hloading) nofun
    | underway hs _ _ =>
      have hticket : some 0 = some ticket := (congrArg Standing.joined? hs).symm.trans hloading
      exact Or.inr (by simp [heq, Option.some.inj hticket])
    | finished m hs _ _ _ => exact absurd ((congrArg Standing.loaded hs).symm.trans hloaded) nofun
  | load hloaded hloading =>
    have heq : n = d.fresh := by simpa [hnew] using hb
    cases hp with
    | idle hs _ _ =>
      have hbegun : d.index.loadsBegun = 0 := congrArg Standing.begun hs
      exact Or.inr (by simp [heq, hbegun])
    | underway hs _ _ => exact absurd ((congrArg Standing.joined? hs).symm.trans hloading) nofun
    | finished m hs _ _ _ => exact absurd ((congrArg Standing.loaded hs).symm.trans hloaded) nofun
  | stop front back m ticket hc => exact absurd hb hnew
  | _ => exact absurd (by simpa using hb) hnew

theorem Picture.Heard.move (h : d.Heard) (hp : Phase d) (ht : d.Tidy) (hm : Move path d d')
    (hg : Growing K d'.history) : d'.Heard where
  told n t hb hr := by
    have holder := (ht.sound.numbered.move hm).older
    have hloaded := hm.loaded hg.not_reload
    rcases hm.tells hr with hr | htells
    · rcases hm.begun hb with hb | rfl
      · exact (h.told n t hb hr).imp_right (And.imp_right hloaded)
      · exact absurd (ht.sound.numbered.known _ hr) (Nat.lt_irrefl d.fresh)
    · cases htells with
      | edit e hn hhistory =>
        have hedit : .begun n (.edit e) ∈ d'.history := by simp [hhistory]
        exact absurd (holder.begun_inj hb hedit) nofun
      | known ht hl => exact Or.inr ⟨ht, hl⟩
      | learn ticket r ho ht =>
        obtain ⟨rfl, hl⟩ := hp.outcome ho
        exact Or.inr ⟨ht, hloaded hl⟩
      | leave ht => exact Or.inl ht
      | save x hx hnumber hs =>
        obtain ⟨news, hnews⟩ := hm.exists_news
        have hsave : .begun n .save ∈ d'.history := by
          rw [hnews, ← hnumber]
          exact List.mem_append_right _ (ht.whole.begun_save hx hs)
        exact absurd (holder.begun_inj hb hsave) nofun
  waits n hb := by
    by_cases hold : .begun n .load ∈ d.history
    · rcases h.waits n hold with ⟨t, hr⟩ | hx
      · obtain ⟨news, hnews⟩ := hm.exists_news
        exact Or.inl ⟨t, hnews ▸ List.mem_append_right _ hr⟩
      · exact (hm.awaiter_stays hx).symm
    · exact hp.awaits hm hb hold

lemma exists_phase {s : Service} (hs : s.index = { path := path }) (h : Reachable Demand.work s c)
    (hg : Growing K c.history) (hK : ∀ content, K content → Json.Measured content) :
    ∃ d : Picture, d.Of path c ∧ d.Tidy ∧ Phase d ∧ d.Heard := by
  let P (d : Picture) := d.Tidy ∧ (Growing K d.history → Phase d ∧ d.Heard)
  have hmove : ∀ d d', P d → Move path d d' → P d' := by
    rintro d d' ⟨htidy, hphase⟩ hm
    refine ⟨htidy.move hm, fun hg => ?_⟩
    obtain ⟨news, hnews⟩ := hm.exists_news
    obtain ⟨hp, hheard⟩ := hphase (hnews ▸ hg).of_append
    exact ⟨hp.move htidy.sound hm hg hK, hheard.move hp htidy hm hg⟩
  have hstart : P ⟨[], { path := path }, [], 0⟩ :=
    ⟨Picture.tidy_start path, fun _ => ⟨.idle rfl rfl nofun, nofun, nofun⟩⟩
  obtain ⟨d, hd, htidy, hphase⟩ := exists_picture (P := P) (by rw [hs]) (by rw [hs]; exact hstart) hmove h
  exact ⟨d, hd, htidy, hphase (hd.history ▸ hg)⟩

/-! ## The one load -/

/-- The index is loaded once. -/
structure LoadedOnce (path : String) (c : Clerks) : Prop where
  /-- One load is begun at most. -/
  one : c.state.index.loadsBegun ≤ 1
  /-- The file is read at most once. -/
  read : c.history.countP hasRead ≤ 1
  /-- Who wants the index to be loaded is told, unless it is cancelled, that it is. -/
  told : ∀ n t, .begun n .load ∈ c.history → .returned n t ∈ c.history →
    t = .failed .cancelled ∨ (t = .done ∧ c.state.index.loaded = true)
  /-- Who has not been told anything yet waits, and can be told when the index is loaded. -/
  waits : ∀ n, .begun n .load ∈ c.history → (∃ t, .returned n t ∈ c.history) ∨
    ∃ front back, c.paused = front ++ (Clerk.awaiter n 0).paused path :: back ∧
      (c.state.index.loaded = true → Step Demand.work c
        { c with paused := front ++ back, history := .returned n .done :: c.history })
  /-- The target that was recorded last counts, and before it the one that the load has obtained. -/
  lookups : c.state.index.loaded = true → ∃ n later e earlier persisted,
    Settled c.history n later e earlier persisted ∧ ∀ file literal, c.state.index.lookup file literal =
      (lastRecorded file literal c.history).or (persisted.find? file literal)
  /-- Who comes later changes nothing. -/
  later : c.state.index.loaded = true → c.call Demand.work .load =
    { c with
      fresh := c.fresh + 1
      history := .returned c.fresh .done :: .begun c.fresh .load :: c.history }

lemma countP_hasRead_eq_zero (hu : ∀ n, ¬ HasRead h n) : h.countP hasRead = 0 := by
  refine List.countP_eq_zero.mpr fun e he hread => ?_
  unfold hasRead at hread
  split at hread
  · exact hu _ ⟨_, _, he⟩
  · cases hread

/-- The load that has obtained some records is the only one that can have read a content, and it has done so
at most once. -/
lemma Settled.countP_hasRead {n : Nat} {later earlier : List Happening} {e : Happening}
    {persisted : IndexData} (hs : Settled h n later e earlier persisted)
    (honly : ∀ m, HasRead h m → m = n) : h.countP hasRead ≤ 1 := by
  have hlater : later.countP hasRead = 0 := by
    refine countP_hasRead_eq_zero fun m hm => ?_
    have heq := honly m (hm.mono (by simp [hs.split]))
    obtain ⟨p, content, hmem⟩ := heq ▸ hm
    exact hs.last _ hmem rfl
  have hearlier : earlier.countP hasRead = 0 := by
    refine countP_hasRead_eq_zero fun m hm => ?_
    have heq := honly m (hm.mono fun x hx => by simp [hs.split, hx])
    exact hs.first (heq ▸ hm)
  rw [hs.split, List.countP_append, List.countP_cons, hlater, hearlier]
  split <;> omega

/-- When the index is loaded, the load has ended well. -/
lemma Phase.loadOutcome?_eq (hp : Phase d) (hl : d.index.loaded = true) :
    d.index.loadOutcome? 0 = some (.ok ()) := by
  cases hp with
  | idle hs _ _ => exact absurd ((congrArg Standing.loaded hs).symm.trans hl) nofun
  | underway hs _ _ => exact absurd ((congrArg Standing.loaded hs).symm.trans hl) nofun
  | finished n hs _ _ _ =>
    have hloads : d.index.loads = [(0, .ok ())] := congrArg Standing.ended hs
    rw [loadOutcome?, hloads]
    rfl

/-- Who waits for a load that has ended well is told so, and nothing else happens. -/
lemma run_endWait {s : Service} (hl : s.index.loaded = true)
    (ho : s.index.loadOutcome? 0 = some (.ok ())) (n : Nat) (c : Clerks) (hc : c.state = s) :
    run n some (endWait 0 .ready) c = { c with history := .returned n .done :: c.history } := by
  subst hc
  have hstate : { c.state with index := c.state.index.leaveLoad 0 } = c.state := by
    simp [leaveLoad, hl]
  simp only [endWait, run, id, ho]
  rw [hstate]

lemma Phase.loadedOnce (hp : Phase d) (hd : d.Of path c) (ht : d.Tidy) (hheard : d.Heard)
    (hg : Growing K d.history) : LoadedOnce path c where
  one := by
    rw [hd.index]
    cases hp with
    | idle hs _ _ => exact (congrArg Standing.begun hs).le.trans (Nat.zero_le 1)
    | underway hs _ _ => exact (congrArg Standing.begun hs).le
    | finished n hs _ _ _ => exact (congrArg Standing.begun hs).le
  read := by
    rw [hd.history]
    cases hp with
    | idle _ _ hu => exact (countP_hasRead_eq_zero hu).le.trans (Nat.zero_le 1)
    | underway _ _ hu => exact (countP_hasRead_eq_zero hu).le.trans (Nat.zero_le 1)
    | finished n _ _ he honly =>
      obtain ⟨later, e, earlier, persisted, hs⟩ := he.settled
      exact hs.countP_hasRead honly
  told n t hb hr := by
    rw [hd.history] at hb hr
    rw [hd.index]
    exact hheard.told n t hb hr
  waits n hb := by
    rw [hd.history] at hb ⊢
    refine (hheard.waits n hb).imp_right fun hx => ?_
    obtain ⟨front, back, hc⟩ := List.append_of_mem hx
    refine ⟨front.map (Clerk.paused path), back.map (Clerk.paused path), hd.split hc, fun hl => ?_⟩
    have ho : c.state.index.loadOutcome? 0 = some (.ok ()) :=
      hd.index ▸ hp.loadOutcome?_eq (hd.index ▸ hl)
    rw [← hd.history]
    refine run_endWait hl ho n { c with paused := front.map _ ++ back.map _ } rfl ▸
      Step.wake .ready (hd.split hc) fun _ => ?_
    rw [ho]
    rfl
  lookups hl := by
    rw [hd.index] at hl
    cases hp with
    | idle hs _ _ => exact absurd ((congrArg Standing.loaded hs).symm.trans hl) nofun
    | underway hs _ _ => exact absurd ((congrArg Standing.loaded hs).symm.trans hl) nofun
    | finished n _ _ he honly =>
      obtain ⟨later, e, earlier, persisted, hs⟩ := he.settled
      refine ⟨n, later, e, earlier, persisted, hd.history ▸ hs, fun file literal => ?_⟩
      rw [hd.index, hd.history]
      have hdata : d.index.lookup file literal = (replay d.history).find? file literal := by
        rw [← ht.sound.replayed]
        rfl
      exact hdata.trans (find?_replay hg hs honly file literal)
  later hl := by
    rw [Crowd.call, Demand.work, load_eq, run, requestLoad_of_loaded hl]
    rfl

lemma recordsIn_of_unmeasured {content : String} (hm : ¬ Json.Measured content) :
    recordsIn content = .error .numberTooLong := by
  have hread : Json.read content = .error .numberTooLong := not_not.mp hm
  simp [recordsIn, IndexData.parse, hread]

/-- The picture after a load has read a content that is not dealt with. -/
def refused (path content : String) : Picture where
  clerks := []
  index := { path := path, loads := [(0, .error .numberTooLong)], loadsBegun := 1 }
  history := [.returned 0 (.failed .numberTooLong), .answered 1 (.read path) (.ok content),
    .put 1 (.read path), .answered 1 (.probe path) (.ok true), .put 1 (.probe path), .begun 0 .load]
  fresh := 2

lemma moves_refused (path : String) {content : String} (hm : ¬ Json.Measured content) :
    Relation.ReflTransGen (Move path) ⟨[], { path := path }, [], 0⟩ (refused path content) := by
  have h₁ := Relation.ReflTransGen.refl (r := Move path) (a := ⟨[], { path := path }, [], 0⟩)
  have h₂ := h₁.tail (.load rfl rfl)
  have h₃ := h₂.tail (.start [.awaiter 0 0] [] 1 0 rfl)
  have h₄ := h₃.tail (.find [] [.awaiter 0 0] 1 0 rfl)
  have h₅ := h₄.tail (.settle [] [.awaiter 0 0] _ 1 0 _ _ _ rfl (.read false content))
  rw [recordsIn_of_unmeasured hm] at h₅
  exact h₅.tail (.learn [] [] 0 0 (.error .numberTooLong) rfl rfl)

lemma growing_refused {content : String} (hk : K content) : Growing K (refused path content).history where
  grows n r hm := by
    have heq : n = 0 ∧ r = .load := by simpa [refused] using hm
    rw [heq.2]
    rfl
  own n q f hm := by
    simp only [refused, List.mem_cons, List.not_mem_nil, reduceCtorEq, or_false, false_or] at hm
    rcases hm with hm | hm <;> cases hm
  kind n p content' hm := by
    simp only [refused, List.mem_cons, List.not_mem_nil, reduceCtorEq, or_false, false_or] at hm
    rcases hm with hm | hm
    · cases hm
      exact hk
    · cases hm

/-- A content that is not dealt with makes the load fail. -/
lemma exists_refused (path : String) {content : String} (hk : K content)
    (hm : ¬ Json.Measured content) : ∃ (s : Service) (c : Clerks), s.index = { path := path } ∧
      Reachable Demand.work s c ∧ Growing K c.history ∧ ¬ LoadedOnce path c := by
  obtain ⟨c, hc, hd⟩ := exists_reachable (s := { settings := {}, index := { path := path } }) rfl
    (moves_refused path hm)
  refine ⟨_, c, rfl, hc, hd.history ▸ growing_refused hk, fun honce => ?_⟩
  rcases honce.told 0 (.failed .numberTooLong) (by simp [hd.history, refused])
    (by simp [hd.history, refused]) with heq | ⟨heq, -⟩
  · cases heq
  · cases heq

/-- The document of a number with so many digits, each of them a one. -/
def ones (n : Nat) : String := String.ofList (List.replicate n '1')

/-- A number of many digits is too long to be read. -/
lemma not_measured_ones {n : Nat} (hn : Text.longestNumeral ≤ n) : ¬ Json.Measured (ones (n + 1)) := by
  refine not_not.mpr ?_
  rw [Json.read, ones, String.toList_ofList, Json.readChars_ones hn]

end SourceBundle.Index
