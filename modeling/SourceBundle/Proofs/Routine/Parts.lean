/-
# Requests in two parts

A request that comes alone may be careful in a first part and not so in a second one.  While it is
careful nothing is asked, by it or by what it starts, that spoils what the answers hang on.  So the first
part walks among the answers that this makes sure of, whatever the second part does afterwards; and what
every such walk leads to can be relied on when the request has returned.
-/
import SourceBundle.Proofs.Routine.Pact
import SourceBundle.Proofs.Routine.Turns

namespace SourceBundle

variable {γ σ Q : Type} {A : Q → Type} {R P α β : Type} {K : Pact γ σ Q A} {L : Law σ Q A} {g : γ}

/-- The terms on which all states are in accord with a pact, and the answers are such as a law reckons
with. -/
def Pact.terms (K : Pact γ σ Q A) (L : Law σ Q A) : Terms σ Q A where
  own _ t := K.Accords t
  others _ t := K.Accords t
  answer := L.answer
  number _ := True

/-- The law that allows everything. -/
def Law.free : Law σ Q A where
  state _ := True
  answer _ _ := True
  change _ _ := True
  question _ := True
  helped _ := True

lemma Routine.lawful_free (x : Routine σ Q A α) : x.Lawful Law.free := by
  induction x with
  | done a => trivial
  | step change next ih => exact fun s _ => ⟨trivial, ih s⟩
  | ask q next ih => exact ⟨trivial, fun a _ => ih a⟩
  | wait turns until_ next ih => exact fun w => ih w
  | spawn child next ihc ih => exact ⟨ihc, fun n => ih n⟩

namespace Crowd

open Routine

variable {told clean : List (Event Q A R P) → Prop} {x : Routine σ Q A α} {f : α → Routine σ Q A P}
  {req : Paused σ Q A P → Prop} {post : P → Prop} {c c' : Crowd σ Q A R P} {id : Nat}

/-- Who obeys the law is careful: what it may ask keeps a history clean, and after a clean history the
answers are such as the law reckons with, if they are what is told. -/
structure Careful (K : Pact γ σ Q A) (L : Law σ Q A) (told clean : List (Event Q A R P) → Prop) :
    Prop where
  state : ∀ s, K.Accords s → L.state s
  helped : L.forHelpers = L
  notes : ∀ e h, (∀ id q a, e ≠ .answered id q a) → clean h → clean (e :: h)
  answers : ∀ id q a h, clean h → L.question q → told (.answered id q a :: h) →
    clean (.answered id q a :: h) ∧ L.answer q a

/-- What is told of a history is told of its earlier part, and the pact reckons with it. -/
structure Telling (K : Pact γ σ Q A) (told : List (Event Q A R P) → Prop) : Prop where
  earlier : ∀ e h, told (e :: h) → told h
  hears : ∀ h, told h → K.Hears h

lemma Telling.of_append (ht : Telling K told) {news h : List (Event Q A R P)} (h' : told (news ++ h)) :
    told h := by
  induction news with
  | nil => exact h'
  | cons e news ih => exact ih (ht.earlier _ _ h')

lemma careful_free : Careful (R := R) (P := P) K Law.free told fun _ => True :=
  ⟨fun _ _ => trivial, rfl, fun _ _ _ _ => trivial, fun _ _ _ _ _ _ _ => ⟨trivial, trivial⟩⟩

/-- A helper that obeys a law pauses. -/
def Paused.Helps (L : Law σ Q A) (p : Paused σ Q A P) : Prop :=
  ∃ (β : Type) (y : Routine σ Q A β), p = ⟨p.id, β, y, fun _ => none⟩ ∧ y.Lawful L

/-- The first request pauses in its first part. -/
inductive Paused.First (K : Pact γ σ Q A) (L : Law σ Q A) (x : Routine σ Q A α)
    (f : α → Routine σ Q A P) : Paused σ Q A P → Prop
  | ask {q : Q} {next : A q → Routine σ Q A α} {s₀ s : σ} : K.Accords s₀ →
    x.Leads (K.terms L) s₀ (.ask q next) s → (Routine.ask q next).Lawful L →
    First K L x f ⟨0, P, .ask q fun a => (next a).bind f, some⟩
  | wait {turns : Nat} {until_ : σ → Bool} {next : Wake → Routine σ Q A α} {s₀ s : σ} : K.Accords s₀ →
    x.Leads (K.terms L) s₀ (.wait turns until_ next) s → (Routine.wait turns until_ next).Lawful L →
    First K L x f ⟨0, P, .wait turns until_ fun w => (next w).bind f, some⟩

/-- The first request pauses in its second part. -/
def Paused.Second (post : P → Prop) (p : Paused σ Q A P) : Prop :=
  ∃ y : Routine σ Q A P, p = ⟨0, P, y, some⟩ ∧ y.Obeys Law.free post

/-- Apart from the first request, which pauses in some way, there are only helpers that obey a law. -/
structure Hosts (L : Law σ Q A) (clean : List (Event Q A R P) → Prop) (req : Paused σ Q A P → Prop)
    (post : P → Prop) (c : Crowd σ Q A R P) : Prop where
  clean : clean c.history
  fresh : 0 < c.fresh
  single : c.paused.countP (fun p => p.id == 0) ≤ 1
  request : ∀ p ∈ c.paused, p.id = 0 → req p
  helpers : ∀ p ∈ c.paused, p.id ≠ 0 → Paused.Helps L p
  returned : ∀ id p, .returned id p ∈ c.history → post p

/-- The request is not among those that pause. -/
def Running (c : Crowd σ Q A R P) : Prop := ∀ p ∈ c.paused, p.id ≠ 0

namespace Hosts

lemma note (h : Hosts L clean req post c) {e : Event Q A R P} (he : clean (e :: c.history))
    (hr : ∀ id p, e = .returned id p → post p) :
    Hosts L clean req post { c with history := e :: c.history } where
  clean := he
  fresh := h.fresh
  single := h.single
  request := h.request
  helpers := h.helpers
  returned id p hp := by
    rcases List.mem_cons.mp hp with he | hp
    · exact hr id p he.symm
    · exact h.returned id p hp

lemma pause_helper (h : Hosts L clean req post c) (hid : id ≠ 0) {y : Routine σ Q A β}
    (hy : y.Lawful L) :
    Hosts L clean req post { c with paused := ⟨id, β, y, fun _ => none⟩ :: c.paused } where
  clean := h.clean
  fresh := h.fresh
  single := by
    rw [List.countP_cons_of_neg (by simpa using hid)]
    exact h.single
  request := List.forall_mem_cons.mpr ⟨fun h0 => absurd h0 hid, h.request⟩
  helpers := List.forall_mem_cons.mpr ⟨fun _ => ⟨β, y, rfl, hy⟩, h.helpers⟩
  returned := h.returned

lemma pause_request (h : Hosts L clean req post c) (hrun : Running c) {p : Paused σ Q A P}
    (hid : p.id = 0) (hp : req p) :
    Hosts L clean req post { c with paused := p :: c.paused } where
  clean := h.clean
  fresh := h.fresh
  single := by
    have hothers : c.paused.countP (fun q => q.id == 0) = 0 :=
      List.countP_eq_zero.mpr fun q hq => by simpa using hrun q hq
    exact Nat.le_of_eq (by rw [List.countP_cons_of_pos (by simpa using hid), hothers])
  request := List.forall_mem_cons.mpr ⟨fun _ => hp, h.request⟩
  helpers := List.forall_mem_cons.mpr ⟨fun h0 => absurd hid h0, h.helpers⟩
  returned := h.returned

lemma spawn (hL : L.forHelpers = L) (h : Hosts L clean req post c) {child : Routine σ Q A Unit}
    (hc : child.Lawful L.forHelpers) : Hosts L clean req post (c.spawn child) := by
  rw [hL] at hc
  have hfresh : Hosts L clean req post { c with fresh := c.fresh + 1 } :=
    ⟨h.clean, Nat.succ_pos _, h.single, h.request, h.helpers, h.returned⟩
  refine hfresh.pause_helper (Nat.ne_of_gt h.fresh) fun w => ?_
  cases w
  · exact hc
  · trivial

lemma running_spawn (h : Hosts L clean req post c) (hrun : Running c) (child : Routine σ Q A Unit) :
    Running (c.spawn child) :=
  List.forall_mem_cons.mpr ⟨Nat.ne_of_gt h.fresh, hrun⟩

lemma resume (h : Hosts L clean req post c) {front back : List (Paused σ Q A P)}
    {p : Paused σ Q A P} (hp : c.paused = front ++ p :: back) :
    Hosts L clean req post { c with paused := front ++ back } ∧
      (p.id = 0 → Running { c with paused := front ++ back }) := by
  have hsub : ∀ q ∈ front ++ back, q ∈ c.paused := by
    intro q hq
    rw [hp]
    exact List.mem_append.mpr ((List.mem_append.mp hq).imp_right (List.mem_cons_of_mem p))
  have hcount : c.paused.countP (fun p => p.id == 0) =
      (p :: (front ++ back)).countP fun p => p.id == 0 := by
    rw [hp]
    exact List.perm_middle.countP_eq _
  have hsingle := hcount ▸ h.single
  refine ⟨⟨h.clean, h.fresh, ?_, fun q hq => h.request q (hsub q hq),
    fun q hq => h.helpers q (hsub q hq), h.returned⟩, fun hid q hq h0 => ?_⟩
  · exact Nat.le_trans (List.sublist_cons_self p _).countP_le hsingle
  · rw [List.countP_cons_of_pos (by simpa using hid)] at hsingle
    have hzero := List.countP_eq_zero.mp (Nat.le_zero.mp (Nat.le_of_succ_le_succ hsingle)) q hq
    exact hzero (by simpa using h0)

/-- A clean history stays clean with an answer to a question that the law allows. -/
lemma answer (hC : Careful K L told clean) (h : Hosts L clean req post c) {q : Q} {a : A q}
    (hq : L.question q) (ht : told (.answered id q a :: c.history)) :
    Hosts L clean req post { c with history := .answered id q a :: c.history } ∧ L.answer q a := by
  obtain ⟨hclean, ha⟩ := hC.answers id q a _ h.clean hq ht
  exact ⟨⟨hclean, h.fresh, h.single, h.request, h.helpers,
    fun id p hp => h.returned id p (by simpa using hp)⟩, ha⟩

/-- A helper that goes on stays a helper. -/
theorem run_helper (hC : Careful K L told clean) {y : Routine σ Q A β} (hs : K.holds g c.state)
    (hh : y.Honors K g fun _ _ => True) (hy : y.Lawful L) (hid : id ≠ 0)
    (h : Hosts L clean req post c) : Hosts L clean req post (run id (fun _ => none) y c) := by
  induction y generalizing c g with
  | done a => exact h
  | step change next ih =>
    obtain ⟨g', -, hs', hh'⟩ := hh _ hs
    exact ih c.state hs' hh' (hy _ (hC.state _ ⟨g, hs⟩)).2
      ⟨h.clean, h.fresh, h.single, h.request, h.helpers, h.returned⟩
  | ask q next _ => exact (h.pause_helper hid hy).note (hC.notes _ _ nofun h.clean) nofun
  | wait turns until_ next _ => exact h.pause_helper hid hy
  | spawn child next _ ih =>
    exact ih c.fresh hs (hh.2 c.fresh) (hy.2 c.fresh) (h.spawn hC.helped hy.1)

/-- The request goes on in its second part. -/
theorem run_second {y : Routine σ Q A P} (hy : y.Obeys Law.free post)
    (h : Hosts Law.free (fun _ => True) (Paused.Second post) post c) (hrun : Running c) :
    Hosts Law.free (fun _ => True) (Paused.Second post) post (run 0 some y c) := by
  induction y with
  | done p =>
    refine h.note trivial ?_
    rintro id' p' ⟨⟩
    exact hy
  | step change next ih =>
    exact ih c.state (hy _ trivial).2
      ⟨h.clean, h.fresh, h.single, h.request, h.helpers, h.returned⟩ hrun
  | ask q next _ => exact (h.pause_request hrun rfl ⟨_, rfl, hy⟩).note trivial nofun
  | wait turns until_ next _ => exact h.pause_request hrun rfl ⟨_, rfl, hy⟩
  | spawn child next _ ih =>
    exact ih c.fresh (hy.2 c.fresh) (h.spawn rfl (lawful_free child)) (h.running_spawn hrun child)

end Hosts

/-- The request is in its first part, or in its second. -/
def InParts (K : Pact γ σ Q A) (L : Law σ Q A) (clean : List (Event Q A R P) → Prop)
    (x : Routine σ Q A α) (f : α → Routine σ Q A P) (post : P → Prop) (c : Crowd σ Q A R P) : Prop :=
  Hosts L clean (Paused.First K L x f) post c ∨
    Hosts Law.free (fun _ => True) (Paused.Second post) post c

/-- The request goes on in its first part, and perhaps into its second. -/
theorem inParts_run (hC : Careful K L told clean)
    (hf : ∀ a s t, K.Accords s → K.Accords t → x.Ends (K.terms L) s a t → (f a).Obeys Law.free post)
    {y : Routine σ Q A α} {s : σ} (ht : K.holds g c.state) (hh : (y.bind f).Honors K g fun _ _ => True)
    (hs : K.Accords s) (hl : x.Leads (K.terms L) s y c.state) (hy : y.Lawful L)
    (h : Hosts L clean (Paused.First K L x f) post c) (hrun : Running c) :
    InParts K L clean x f post (run 0 some (y.bind f) c) := by
  induction y generalizing c g with
  | done a =>
    have hsecond : Hosts Law.free (fun _ => True) (Paused.Second post) post c := by
      refine ⟨trivial, h.fresh, h.single, fun p hp h0 => absurd h0 (hrun p hp), fun p hp h0 => ?_,
        h.returned⟩
      obtain ⟨β, y, he, -⟩ := h.helpers p hp h0
      exact ⟨β, y, he, lawful_free y⟩
    exact Or.inr (hsecond.run_second (hf a s c.state hs ⟨g, ht⟩ (hl.ends ⟨rfl, rfl⟩)) hrun)
  | step change next ih =>
    obtain ⟨g', -, ht', hh'⟩ := hh _ ht
    exact ih c.state hf ht' hh' (hl.trans (.step ⟨g', ht'⟩ .here)) (hy _ (hC.state _ ⟨g, ht⟩)).2
      ⟨h.clean, h.fresh, h.single, h.request, h.helpers, h.returned⟩ hrun
  | ask q next _ =>
    exact Or.inl ((h.pause_request hrun rfl (.ask hs hl hy)).note (hC.notes _ _ nofun h.clean) nofun)
  | wait turns until_ next _ => exact Or.inl (h.pause_request hrun rfl (.wait hs hl hy))
  | spawn child next _ ih =>
    exact ih c.fresh hf ht (hh.2 c.fresh) (hl.trans (.spawn trivial .here)) (hy.2 c.fresh)
      (h.spawn hC.helped hy.1) (h.running_spawn hrun child)

variable [IsPreorder γ K.grows]

/-- A turn leaves the request in one of its parts. -/
theorem Turn.inParts (hC : Careful K L told clean) (hT : Telling K told)
    (hf : ∀ a s t, K.Accords s → K.Accords t → x.Ends (K.terms L) s a t → (f a).Obeys Law.free post)
    {work : R → Routine σ Q A P} (hk : Keeps K work g c) (h : InParts K L clean x f post c)
    (hturn : Turn c c') (ht : told c'.history) : InParts K L clean x f post c' := by
  have hfree : Careful K Law.free told fun _ => True := careful_free
  cases hturn with
  | @answer front back id α q next report a hp =>
    have hmem : ⟨id, α, .ask q next, report⟩ ∈ c.paused := by simp [hp]
    have hanswered : told (.answered id q a :: c.history) := by
      obtain ⟨-, news, -, hh⟩ := run_adds id report (next a)
        { c with paused := front ++ back, history := .answered id q a :: c.history }
      exact hT.of_append (hh ▸ ht)
    have hhonors := hk.honors _ hmem g (refl_of K.grows g) a g
      (hT.hears _ hanswered id q a List.mem_cons_self) (refl_of K.grows g)
    rcases h with h | h
    · obtain ⟨hr, hrun⟩ := h.resume hp
      by_cases hid : id = 0
      · cases h.request _ hmem hid with
        | ask hs hl hy =>
          obtain ⟨hr', ha⟩ := hr.answer hC hy.1 hanswered
          exact inParts_run hC hf hk.state hhonors hs (hl.trans (.ask ha ⟨g, hk.state⟩ .here)) (hy.2 a ha)
            hr' (hrun rfl)
      · obtain ⟨β, y, he, hy⟩ := h.helpers _ hmem hid
        cases he
        obtain ⟨hr', ha⟩ := hr.answer hC hy.1 hanswered
        exact Or.inl (hr'.run_helper hC hk.state hhonors (hy.2 a ha) hid)
    · obtain ⟨hr, hrun⟩ := h.resume hp
      obtain ⟨hr', -⟩ := hr.answer hfree trivial hanswered
      by_cases hid : id = 0
      · obtain ⟨y, he, hy⟩ := h.request _ hmem hid
        cases he
        exact Or.inr (hr'.run_second (hy.2 a trivial) (hrun rfl))
      · obtain ⟨β, y, he, hy⟩ := h.helpers _ hmem hid
        cases he
        exact Or.inr (hr'.run_helper hfree hk.state hhonors (hy.2 a trivial) hid)
  | @wake front back id α turns until_ next report hp hu =>
    have hmem : ⟨id, α, .wait turns until_ next, report⟩ ∈ c.paused := by simp [hp]
    have hhonors := hk.honors _ hmem g (refl_of K.grows g) .ready g (refl_of K.grows g)
    rcases h with h | h
    · obtain ⟨hr, hrun⟩ := h.resume hp
      by_cases hid : id = 0
      · cases h.request _ hmem hid with
        | wait hs hl hy =>
          exact inParts_run hC hf hk.state hhonors hs
            (hl.trans (.wait ⟨g, hk.state⟩ (fun _ => hu) .here)) (hy .ready) hr (hrun rfl)
      · obtain ⟨β, y, he, hy⟩ := h.helpers _ hmem hid
        cases he
        exact Or.inl (hr.run_helper hC hk.state hhonors (hy .ready) hid)
    · obtain ⟨hr, hrun⟩ := h.resume hp
      by_cases hid : id = 0
      · obtain ⟨y, he, hy⟩ := h.request _ hmem hid
        cases he
        exact Or.inr (hr.run_second (hy .ready) (hrun rfl))
      · obtain ⟨β, y, he, hy⟩ := h.helpers _ hmem hid
        cases he
        exact Or.inr (hr.run_helper hfree hk.state hhonors (hy .ready) hid)

/-- What the ends of the first part lead to holds of what the request returns. -/
theorem returned_of_turns (hC : Careful K L told clean) (hT : Telling K told)
    (hf : ∀ a s t, K.Accords s → K.Accords t → x.Ends (K.terms L) s a t → (f a).Obeys Law.free post)
    {s : σ} {r : R} (hx : x.Lawful L) (hh : ∀ g, (x.bind f).Honors K g fun _ _ => True)
    (hs : K.Accords s) (hclean : clean [.begun 0 r])
    (h : Relation.ReflTransGen Turn (call (fun _ => x.bind f) { state := s } r) c)
    (ht : told c.history) {p : P} (hp : .returned id p ∈ c.history) : post p := by
  have hreach : Reachable (fun _ : R => x.bind f) s (call (fun _ => x.bind f) { state := s } r) :=
    (reachable_start _ _).call r
  suffices hparts : InParts K L clean x f post c from hparts.elim (·.returned id p hp) (·.returned id p hp)
  clear hp
  induction h with
  | refl =>
    obtain ⟨g, hg⟩ := hs
    exact inParts_run hC hf hg (hh g) ⟨g, hg⟩ .here hx
      ⟨hclean, Nat.one_pos, Nat.zero_le _, nofun, nofun, by simp⟩ nofun
  | @tail c c' hturns hturn ih =>
    have hcalled := hreach.turns hturns
    obtain ⟨news, hnews⟩ := (hturn.step fun _ : R => x.bind f).history
    have ht' : told c.history := hT.of_append (hnews ▸ ht)
    obtain ⟨g, hk⟩ := hcalled.keeps (fun _ => hh) hs (hT.hears _ ht')
    exact hturn.inParts hC hT hf hk (ih ht') ht

end Crowd

end SourceBundle
