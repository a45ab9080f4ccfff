/-
# Routines beside each other

A crowd is what becomes of a state when requests come at any time, each of them is worked on by a
routine, and the routines take turns at their pauses in any order and with any answers.  Its history
lists what can be noticed of it, newest first.

What a request puts or returns in a crowd it puts or returns on a walk of its own, during which the
others do what the requests that run beside it may do; and this walk begins and ends in states of
which the history up to there tells.
-/
import Mathlib.Logic.Relation
import SourceBundle.Proofs.Routine.Law

namespace SourceBundle

/-- What can be noticed of a crowd. -/
inductive Event (Q : Type) (A : Q → Type) (R P : Type)
  /-- A request has begun. -/
  | begun (id : Nat) (request : R)
  /-- A question has been put. -/
  | put (id : Nat) (q : Q)
  /-- A question has been answered. -/
  | answered (id : Nat) (q : Q) (a : A q)
  /-- A request has returned. -/
  | returned (id : Nat) (reply : P)

/-- A routine that pauses; its result is reported if it is that of a request. -/
structure Paused (σ Q : Type) (A : Q → Type) (P : Type) where
  /-- The number of the request or helper. -/
  id : Nat
  /-- The type of its result. -/
  Result : Type
  /-- How it goes on. -/
  rest : Routine σ Q A Result
  /-- What is reported of its result. -/
  report : Result → Option P

/-- Routines that run beside each other. -/
structure Crowd (σ Q : Type) (A : Q → Type) (R P : Type) where
  /-- The state that they share. -/
  state : σ
  /-- The number of the next request or helper. -/
  fresh : Nat := 0
  /-- Those that pause. -/
  paused : List (Paused σ Q A P) := []
  /-- What has happened, newest first. -/
  history : List (Event Q A R P) := []

namespace Crowd

variable {σ Q : Type} {A : Q → Type} {R P α : Type}

/-- Let a helper be about to start. -/
def spawn (c : Crowd σ Q A R P) (child : Routine σ Q A Unit) : Crowd σ Q A R P :=
  let begin : Wake → Routine σ Q A Unit
    | .ready => child
    | .cancelled => .done ()
  { c with
    fresh := c.fresh + 1
    paused := ⟨c.fresh, Unit, .wait 0 (fun _ => true) begin, fun _ => none⟩ :: c.paused }

/-- Let a routine run until it pauses or is finished. -/
def run (id : Nat) {α : Type} (report : α → Option P) :
    Routine σ Q A α → Crowd σ Q A R P → Crowd σ Q A R P
  | .done a, c =>
    match report a with
    | some p => { c with history := .returned id p :: c.history }
    | none => c
  | .step change next, c => run id report (next c.state) { c with state := change c.state }
  | .ask q next, c =>
    { c with
      paused := ⟨id, _, .ask q next, report⟩ :: c.paused, history := .put id q :: c.history }
  | .wait turns until_ next, c =>
    { c with paused := ⟨id, _, .wait turns until_ next, report⟩ :: c.paused }
  | .spawn child next, c => run id report (next c.fresh) (c.spawn child)

/-- Let a request come. -/
def call (work : R → Routine σ Q A P) (c : Crowd σ Q A R P) (r : R) : Crowd σ Q A R P :=
  run c.fresh some (work r) { c with fresh := c.fresh + 1, history := .begun c.fresh r :: c.history }

/-- What can happen in a crowd whose requests are worked on in a given way. -/
inductive Step (work : R → Routine σ Q A P) : Crowd σ Q A R P → Crowd σ Q A R P → Prop
  /-- A request comes. -/
  | call (c : Crowd σ Q A R P) (r : R) : Step work c (c.call work r)
  /-- A question is answered. -/
  | answer {c : Crowd σ Q A R P} {front back : List (Paused σ Q A P)} {id : Nat} {α : Type} {q : Q}
      {next : A q → Routine σ Q A α} {report : α → Option P} (a : A q) :
    c.paused = front ++ ⟨id, α, .ask q next, report⟩ :: back →
    Step work c (run id report (next a)
      { c with paused := front ++ back, history := .answered id q a :: c.history })
  /-- A routine stops waiting. -/
  | wake {c : Crowd σ Q A R P} {front back : List (Paused σ Q A P)} {id : Nat} {α : Type}
      {turns : Nat} {until_ : σ → Bool} {next : Wake → Routine σ Q A α} {report : α → Option P}
      (w : Wake) :
    c.paused = front ++ ⟨id, α, .wait turns until_ next, report⟩ :: back →
    (w = .ready → until_ c.state = true) →
    Step work c (run id report (next w) { c with paused := front ++ back })

/-- What a crowd can come to from a state in which nobody runs. -/
def Reachable (work : R → Routine σ Q A P) (s : σ) (c : Crowd σ Q A R P) : Prop :=
  Relation.ReflTransGen (Step work) { state := s } c

lemma reachable_start (work : R → Routine σ Q A P) (s : σ) : Reachable work s { state := s } := .refl

lemma Reachable.call {work : R → Routine σ Q A P} {s : σ} {c : Crowd σ Q A R P}
    (h : Reachable work s c) (r : R) : Reachable work s (c.call work r) := h.tail (.call c r)

lemma Reachable.answer {work : R → Routine σ Q A P} {s : σ} {c : Crowd σ Q A R P}
    {front back : List (Paused σ Q A P)} {id : Nat} {q : Q} {next : A q → Routine σ Q A α}
    {report : α → Option P} (h : Reachable work s c) (a : A q)
    (hp : c.paused = front ++ ⟨id, α, .ask q next, report⟩ :: back) :
    Reachable work s (run id report (next a)
      { c with paused := front ++ back, history := .answered id q a :: c.history }) :=
  h.tail (.answer a hp)

lemma Reachable.wake {work : R → Routine σ Q A P} {s : σ} {c : Crowd σ Q A R P}
    {front back : List (Paused σ Q A P)} {id turns : Nat} {until_ : σ → Bool}
    {next : Wake → Routine σ Q A α} {report : α → Option P} (h : Reachable work s c) (w : Wake)
    (hp : c.paused = front ++ ⟨id, α, .wait turns until_ next, report⟩ :: back)
    (hu : w = .ready → until_ c.state = true) :
    Reachable work s (run id report (next w) { c with paused := front ++ back }) :=
  h.tail (.wake w hp hu)

/-! ## What a run adds -/

/-- A run adds to those that pause and to what has happened, and takes nothing away. -/
lemma run_adds (id : Nat) (report : α → Option P) (x : Routine σ Q A α) (c : Crowd σ Q A R P) :
    ∃ front news, (run id report x c).paused = front ++ c.paused ∧
      (run id report x c).history = news ++ c.history := by
  induction x generalizing c with
  | done a =>
    unfold run
    cases report a with
    | none => exact ⟨[], [], rfl, rfl⟩
    | some p => exact ⟨[], [.returned id p], rfl, rfl⟩
  | step change next ih => exact ih c.state report { c with state := change c.state }
  | ask q next _ => exact ⟨[⟨id, _, .ask q next, report⟩], [.put id q], rfl, rfl⟩
  | wait turns until_ next _ => exact ⟨[⟨id, _, .wait turns until_ next, report⟩], [], rfl, rfl⟩
  | spawn child next _ ih =>
    obtain ⟨front, news, hp, hh⟩ := ih c.fresh report (c.spawn child)
    exact ⟨front ++ [_], news, hp.trans (List.append_cons _ _ _), hh⟩

/-- When a request comes, those that pause go on pausing. -/
lemma Reachable.exists_call {work : R → Routine σ Q A P} {s : σ} {c : Crowd σ Q A R P}
    (h : Reachable work s c) (r : R) :
    ∃ c', Reachable work s c' ∧ ∃ front news, c'.paused = front ++ c.paused ∧
      c'.history = news ++ .begun c.fresh r :: c.history := by
  obtain ⟨front, news, hp, hh⟩ := run_adds c.fresh some (work r)
    { c with fresh := c.fresh + 1, history := .begun c.fresh r :: c.history }
  exact ⟨_, h.call r, front, news, hp, hh⟩

/-! ## Requests that keep an account -/

/-- The terms on which a request runs in a crowd: all changes are such as time brings, and the
answers are those that the history tells of. -/
def terms (later : σ → σ → Prop) (id : Nat) (h : List (Event Q A R P)) : Terms σ Q A where
  own := later
  others := later
  answer q a := .answered id q a ∈ h
  number _ := True

lemma terms_within (later : σ → σ → Prop) (id : Nat) {h h' : List (Event Q A R P)}
    (hh : h ⊆ h') : (terms later id h).Within (terms later id h') where
  own _ _ h := h
  others _ _ h := h
  answer _ _ ha := hh ha
  number _ h := h

/-- Requests whose work keeps a state in accord with the history: the first step of a request
accounts for its beginning, and all that comes later, and the work of others, changes nothing about
the account. -/
structure Accounts (work : R → Routine σ Q A P) (L : Law σ Q A) (later : σ → σ → Prop)
    (J : List (Event Q A R P) → σ → Prop) : Prop where
  begins : ∀ r, ∃ change next, work r = .step change next ∧ ∀ id h s, J h s →
    J (.begun id r :: h) (change s) ∧ later s (change s) ∧ (next s).Lawful L
  changes : ∀ h s t, J h s → L.change s t → J h t ∧ later s t
  notes : ∀ e h s, (∀ id r, e ≠ .begun id r) → J h s → J (e :: h) s
  finds : ∀ h s, J h s → L.state s
  hears : ∀ q a, L.answer q a

variable {work : R → Routine σ Q A P} {L : Law σ Q A} {later : σ → σ → Prop}
  {J : List (Event Q A R P) → σ → Prop} {c c' : Crowd σ Q A R P} {id : Nat}
  {h h' : List (Event Q A R P)} {s s' t : σ}

/-- A request is on its walk: it began in a state of which the history up to there tells, and it
has come to the rest of its routine in the given state. -/
def OnWalk (work : R → Routine σ Q A P) (L : Law σ Q A) (later : σ → σ → Prop)
    (J : List (Event Q A R P) → σ → Prop) (h : List (Event Q A R P)) (id : Nat)
    (x : Routine σ Q A P) (s : σ) : Prop :=
  ∃ r mid earlier s₀, h = mid ++ .begun id r :: earlier ∧ J earlier s₀ ∧
    (work r).Leads (terms later id h) s₀ x s ∧ x.Lawful L

/-- What a paused routine is: a request on its walk, or a helper. -/
def Paused.Sound (work : R → Routine σ Q A P) (L : Law σ Q A) (later : σ → σ → Prop)
    (J : List (Event Q A R P) → σ → Prop) (h : List (Event Q A R P)) (s : σ)
    (p : Paused σ Q A P) : Prop :=
  (∃ x s', p = ⟨p.id, P, x, some⟩ ∧ OnWalk work L later J h p.id x s' ∧ later s' s) ∨
    ∃ (α : Type) (x : Routine σ Q A α), p = ⟨p.id, α, x, fun _ => none⟩ ∧ x.Lawful L.forHelpers

/-- What an event tells: a request that puts a question or returns does so on its walk, and helpers
put only questions for helpers. -/
def Event.Sound (work : R → Routine σ Q A P) (L : Law σ Q A) (later : σ → σ → Prop)
    (J : List (Event Q A R P) → σ → Prop) (h : List (Event Q A R P)) : Event Q A R P → Prop
  | .put id q => L.helped q ∨ ∃ r mid earlier s₀ s₁, h = mid ++ .begun id r :: earlier ∧
      J earlier s₀ ∧ J h s₁ ∧ (work r).Puts (terms later id h) s₀ q s₁
  | .returned id p => ∃ r mid earlier s₀ s₁, h = mid ++ .begun id r :: earlier ∧
      J earlier s₀ ∧ J h s₁ ∧ (work r).Ends (terms later id h) s₀ p s₁
  | .begun id _ => ∀ r, .begun id r ∉ h
  | .answered _ _ _ => True

/-- All events of a history tell what they should. -/
def Told (work : R → Routine σ Q A P) (L : Law σ Q A) (later : σ → σ → Prop)
    (J : List (Event Q A R P) → σ → Prop) : List (Event Q A R P) → Prop
  | [] => True
  | e :: h => Event.Sound work L later J h e ∧ Told work L later J h

/-- The invariant of a crowd. -/
structure Inv (work : R → Routine σ Q A P) (L : Law σ Q A) (later : σ → σ → Prop)
    (J : List (Event Q A R P) → σ → Prop) (c : Crowd σ Q A R P) : Prop where
  account : J c.history c.state
  told : Told work L later J c.history
  fresh : ∀ id r, .begun id r ∈ c.history → id < c.fresh
  paused : ∀ p ∈ c.paused, Paused.Sound work L later J c.history c.state p

/-! ## What stays when a crowd moves on -/

lemma OnWalk.mono {x : Routine σ Q A P} (hx : OnWalk work L later J h id x s)
    (e : Event Q A R P) : OnWalk work L later J (e :: h) id x s := by
  obtain ⟨r, mid, earlier, s₀, rfl, hJ, hl, hx⟩ := hx
  exact ⟨r, e :: mid, earlier, s₀, rfl, hJ,
    hl.mono (terms_within later id (List.subset_cons_self e _)), hx⟩

lemma Paused.Sound.note {p : Paused σ Q A P} (hp : Paused.Sound work L later J h s p)
    (e : Event Q A R P) : Paused.Sound work L later J (e :: h) s p := by
  rcases hp with ⟨x, s', hx, hw, hs⟩ | hp
  · exact Or.inl ⟨x, s', hx, hw.mono e, hs⟩
  · exact Or.inr hp

namespace Inv

lemma change [IsPreorder σ later] (ha : Accounts work L later J) (hi : Inv work L later J c)
    (ht : L.change c.state t) : Inv work L later J { c with state := t } where
  account := (ha.changes _ _ _ hi.account ht).1
  told := hi.told
  fresh := hi.fresh
  paused p hp := by
    rcases hi.paused p hp with ⟨x, s', hx, hw, hs⟩ | hp
    · exact Or.inl ⟨x, s', hx, hw, trans_of later hs (ha.changes _ _ _ hi.account ht).2⟩
    · exact Or.inr hp

lemma note (ha : Accounts work L later J) (hi : Inv work L later J c) {e : Event Q A R P}
    (hb : ∀ id r, e ≠ .begun id r) (he : Event.Sound work L later J c.history e) :
    Inv work L later J { c with history := e :: c.history } where
  account := ha.notes e _ _ hb hi.account
  told := ⟨he, hi.told⟩
  fresh id r hr := by
    rcases List.mem_cons.mp hr with hr | hr
    · exact absurd hr.symm (hb id r)
    · exact hi.fresh id r hr
  paused p hp := (hi.paused p hp).note e

lemma pause (hi : Inv work L later J c) {p : Paused σ Q A P}
    (hp : Paused.Sound work L later J c.history c.state p) :
    Inv work L later J { c with paused := p :: c.paused } where
  account := hi.account
  told := hi.told
  fresh := hi.fresh
  paused p' hp' := by
    rcases List.mem_cons.mp hp' with rfl | hp'
    · exact hp
    · exact hi.paused p' hp'

lemma resume (hi : Inv work L later J c) {front back : List (Paused σ Q A P)}
    {p : Paused σ Q A P} (hp : c.paused = front ++ p :: back) :
    Inv work L later J { c with paused := front ++ back } where
  account := hi.account
  told := hi.told
  fresh := hi.fresh
  paused p' hp' := by
    refine hi.paused p' ?_
    rw [hp]
    rcases List.mem_append.mp hp' with hp' | hp'
    · exact List.mem_append_left _ hp'
    · exact List.mem_append_right _ (List.mem_cons_of_mem p hp')

lemma spawn (hi : Inv work L later J c) {child : Routine σ Q A Unit}
    (hc : child.Lawful L.forHelpers) : Inv work L later J (c.spawn child) where
  account := hi.account
  told := hi.told
  fresh id r hr := Nat.lt_succ_of_lt (hi.fresh id r hr)
  paused p hp := by
    rcases List.mem_cons.mp hp with rfl | hp
    · refine Or.inr ⟨_, _, rfl, fun w => ?_⟩
      cases w
      · exact hc
      · trivial
    · exact hi.paused p hp

end Inv

/-! ## A run to the next pause -/

/-- A request that goes on keeps the invariant. -/
theorem inv_run_request [IsPreorder σ later] {x : Routine σ Q A P} (ha : Accounts work L later J)
    (hi : Inv work L later J c) (hx : OnWalk work L later J c.history id x c.state) :
    Inv work L later J (run id some x c) := by
  induction x with
  | done p =>
    obtain ⟨r, mid, earlier, s₀, hh, hJ, hl, -⟩ := hx
    refine hi.note ha (by simp) ?_
    exact ⟨r, mid, earlier, s₀, c.state, hh, hJ, hi.account, hl.ends ⟨rfl, rfl⟩⟩
  | step change next ih =>
    obtain ⟨r, mid, earlier, s₀, hh, hJ, hl, hx⟩ := hx
    have hc := hx _ (ha.finds _ _ hi.account)
    have hlater := (ha.changes _ _ _ hi.account hc.1).2
    exact ih c.state ha (hi.change ha hc.1)
      ⟨r, mid, earlier, s₀, hh, hJ, hl.trans (.step hlater .here), hc.2⟩
  | ask q next _ =>
    -- what the event of the question tells is what the history tells before it
    have hs : Paused.Sound work L later J c.history c.state ⟨id, _, .ask q next, some⟩ :=
      Or.inl ⟨_, _, rfl, hx, refl_of later _⟩
    refine (hi.pause hs).note ha (by simp) (Or.inr ?_)
    obtain ⟨r, mid, earlier, s₀, hh, hJ, hl, -⟩ := hx
    exact ⟨r, mid, earlier, s₀, c.state, hh, hJ, hi.account, hl.puts (Or.inl ⟨rfl, rfl⟩)⟩
  | wait turns until_ next _ =>
    exact hi.pause (Or.inl ⟨_, _, rfl, hx, refl_of later _⟩)
  | spawn child next _ ih =>
    obtain ⟨r, mid, earlier, s₀, hh, hJ, hl, hx⟩ := hx
    exact ih c.fresh ha (hi.spawn hx.1)
      ⟨r, mid, earlier, s₀, hh, hJ, hl.trans (.spawn trivial .here), hx.2 c.fresh⟩

/-- A helper that goes on keeps the invariant. -/
theorem inv_run_helper [IsPreorder σ later] {x : Routine σ Q A α} (ha : Accounts work L later J)
    (hi : Inv work L later J c) (hx : x.Lawful L.forHelpers) :
    Inv work L later J (run id (fun _ => none) x c) := by
  induction x generalizing c with
  | done a => exact hi
  | step change next ih =>
    have hc := hx _ (ha.finds _ _ hi.account)
    exact ih c.state (hi.change ha hc.1) hc.2
  | ask q next _ =>
    exact (hi.pause (Or.inr ⟨_, _, rfl, hx⟩)).note ha (by simp) (Or.inl hx.1)
  | wait turns until_ next _ => exact hi.pause (Or.inr ⟨_, _, rfl, hx⟩)
  | spawn child next _ ih => exact ih c.fresh (hi.spawn hx.1) (hx.2 c.fresh)

/-! ## Reachable crowds -/

lemma inv_start (ha : J [] s) : Inv work L later J { state := s } where
  account := ha
  told := trivial
  fresh := nofun
  paused := nofun

/-- A request that comes keeps the invariant. -/
lemma inv_call [IsPreorder σ later] (ha : Accounts work L later J) (hi : Inv work L later J c)
    (r : R) : Inv work L later J (c.call work r) := by
  -- between the event of its beginning and its first step a request is not accounted for, so that
  -- the invariant is shown of the crowd after this step
  obtain ⟨change, next, hw, hb⟩ := ha.begins r
  obtain ⟨hJ, hlater, hx⟩ := hb c.fresh _ _ hi.account
  have hlead : (work r).Leads (terms later c.fresh (.begun c.fresh r :: c.history)) c.state
      (next c.state) (change c.state) := hw ▸ .step hlater .here
  rw [call, hw]
  show Inv work L later J (run c.fresh some (next c.state)
    { c with
      state := change c.state, fresh := c.fresh + 1, history := .begun c.fresh r :: c.history })
  refine inv_run_request ha ?_ ⟨r, [], c.history, c.state, rfl, hi.account, hlead, hx⟩
  refine ⟨hJ, ⟨fun r' hr' => absurd (hi.fresh _ _ hr') (Nat.lt_irrefl _), hi.told⟩, ?_, ?_⟩
  · intro id r' hr'
    rcases List.mem_cons.mp hr' with hr' | hr'
    · cases hr'
      exact Nat.lt_succ_self _
    · exact Nat.lt_succ_of_lt (hi.fresh id r' hr')
  · intro p hp
    rcases (hi.paused p hp).note (.begun c.fresh r) with ⟨x, s', hx, hw, hs⟩ | hp
    · exact Or.inl ⟨x, s', hx, hw, trans_of later hs hlater⟩
    · exact Or.inr hp

/-- Whatever happens in a crowd keeps the invariant. -/
theorem Step.inv [IsPreorder σ later] (ha : Accounts work L later J) (hs : Step work c c')
    (hi : Inv work L later J c) : Inv work L later J c' := by
  cases hs with
  | call r => exact inv_call ha hi r
  | @answer front back id α q next report a hp =>
    have hn := (hi.resume hp).note (e := .answered id q a) ha (by simp) trivial
    have hmem : ⟨id, α, .ask q next, report⟩ ∈ c.paused := by simp [hp]
    rcases hi.paused _ hmem with ⟨x, s', he, hw, hs⟩ | ⟨β, x, he, hx⟩
    · cases he
      -- the answer is in the history by now, so the terms of the walk allow it
      obtain ⟨r, mid, earlier, s₀, hh, hJ, hl, hx⟩ := hw.mono (.answered id q a)
      refine inv_run_request ha hn ⟨r, mid, earlier, s₀, hh, hJ, ?_, hx.2 a (ha.hears q a)⟩
      exact hl.trans (.ask List.mem_cons_self hs .here)
    · cases he
      exact inv_run_helper ha hn (hx.2 a (ha.hears q a))
  | @wake front back id α turns until_ next report w hp hu =>
    have hn := hi.resume hp
    have hmem : ⟨id, α, .wait turns until_ next, report⟩ ∈ c.paused := by simp [hp]
    rcases hi.paused _ hmem with ⟨x, s', he, hw, hs⟩ | ⟨β, x, he, hx⟩
    · cases he
      obtain ⟨r, mid, earlier, s₀, hh, hJ, hl, hx⟩ := hw
      refine inv_run_request ha hn ⟨r, mid, earlier, s₀, hh, hJ, ?_, hx w⟩
      exact hl.trans (.wait hs hu .here)
    · cases he
      exact inv_run_helper ha hn (hx w)

/-- Every reachable crowd keeps the invariant. -/
theorem Reachable.inv [IsPreorder σ later] (ha : Accounts work L later J) (hs : J [] s)
    (hr : Reachable work s c) : Inv work L later J c := by
  induction hr with
  | refl => exact inv_start hs
  | tail _ hstep ih => exact hstep.inv ha ih

/-! ## Reading a history -/

lemma Told.sound {later' : List (Event Q A R P)} {e : Event Q A R P}
    (ht : Told work L later J (later' ++ e :: h)) : Event.Sound work L later J h e := by
  induction later' with
  | nil => exact ht.1
  | cons _ later' ih => exact ih ht.2

lemma Told.of_append {later' : List (Event Q A R P)}
    (ht : Told work L later J (later' ++ h)) : Told work L later J h := by
  induction later' with
  | nil => exact ht
  | cons _ later' ih => exact ih ht.2

/-- A request has begun once. -/
theorem Told.begun_once {mid earlier : List (Event Q A R P)} {r : R}
    (ht : Told work L later J (mid ++ .begun id r :: earlier)) (r' : R) :
    .begun id r' ∉ mid ++ earlier := by
  induction mid with
  | nil => exact ht.1 r'
  | cons e mid ih =>
    intro hmem
    rcases List.mem_cons.mp hmem with rfl | hmem
    · exact ht.1 r (List.mem_append_right _ List.mem_cons_self)
    · exact ih ht.2 hmem

/-- A history is parted in one way by the beginning of a request. -/
theorem Told.begun_unique {mid mid' earlier earlier' : List (Event Q A R P)} {r r' : R}
    (ht : Told work L later J (mid ++ .begun id r :: earlier))
    (hh : mid ++ .begun id r :: earlier = mid' ++ .begun id r' :: earlier') :
    mid = mid' ∧ r = r' ∧ earlier = earlier' := by
  induction mid generalizing mid' with
  | nil =>
    cases mid' with
    | nil =>
      obtain ⟨he, rfl⟩ := List.cons.inj hh
      cases he
      exact ⟨rfl, rfl, rfl⟩
    | cons e mid' =>
      obtain ⟨rfl, rfl⟩ := List.cons.inj hh
      exact absurd (List.mem_append_right _ List.mem_cons_self) (ht.1 r')
  | cons e mid ih =>
    cases mid' with
    | nil =>
      obtain ⟨rfl, rfl⟩ := List.cons.inj hh
      exact absurd (List.mem_append_right _ List.mem_cons_self) (ht.1 r)
    | cons e' mid' =>
      obtain ⟨rfl, htail⟩ := List.cons.inj hh
      obtain ⟨rfl, rfl, rfl⟩ := ih ht.2 htail
      exact ⟨rfl, rfl, rfl⟩

end Crowd

end SourceBundle
