/-
# Turns

While no request comes and nobody is cancelled, those that pause in a crowd take turns: one gets an
answer, or sees that what it waits for has come about.  Something is inevitable if every way of
taking turns comes to it.  What a routine inevitably brings about is put together from what its
parts bring about, as long as nobody else can take a turn.
-/
import SourceBundle.Proofs.Routine.Crowd

namespace SourceBundle

namespace Crowd

variable {σ Q : Type} {A : Q → Type} {R P α β : Type} {work : R → Routine σ Q A P}
  {c c' : Crowd σ Q A R P} {id : Nat}

/-- A turn: a question is answered, or a routine stops waiting for what has come about. -/
inductive Turn : Crowd σ Q A R P → Crowd σ Q A R P → Prop
  | answer {c : Crowd σ Q A R P} {front back : List (Paused σ Q A P)} {id : Nat} {α : Type} {q : Q}
      {next : A q → Routine σ Q A α} {report : α → Option P} (a : A q) :
    c.paused = front ++ ⟨id, α, .ask q next, report⟩ :: back →
    Turn c (run id report (next a)
      { c with paused := front ++ back, history := .answered id q a :: c.history })
  | wake {c : Crowd σ Q A R P} {front back : List (Paused σ Q A P)} {id : Nat} {α : Type}
      {turns : Nat} {until_ : σ → Bool} {next : Wake → Routine σ Q A α} {report : α → Option P} :
    c.paused = front ++ ⟨id, α, .wait turns until_ next, report⟩ :: back →
    until_ c.state = true →
    Turn c (run id report (next .ready) { c with paused := front ++ back })

lemma Turn.step (work : R → Routine σ Q A P) (h : Turn c c') : Step work c c' := by
  cases h with
  | answer a hp => exact .answer a hp
  | wake hp hu => exact .wake .ready hp fun _ => hu

/-! ## Turns by the position of who takes them -/

/-- The turn of the one at a position among those that pause, with the answer that a collaborator
gives in view of what has happened. -/
def turnAt (reply : List (Event Q A R P) → (q : Q) → A q) (c : Crowd σ Q A R P) (n : Nat) :
    Option (Crowd σ Q A R P) :=
  match c.paused[n]? with
  | some ⟨id, _, .ask q next, report⟩ =>
    let a := reply c.history q
    some (run id report (next a)
      { c with paused := c.paused.eraseIdx n, history := .answered id q a :: c.history })
  | some ⟨id, _, .wait _ until_ next, report⟩ =>
    if until_ c.state then
      some (run id report (next .ready) { c with paused := c.paused.eraseIdx n })
    else none
  | _ => none

/-- Several turns. -/
def turnsAt (reply : List (Event Q A R P) → (q : Q) → A q) (c : Crowd σ Q A R P)
    (ns : List Nat) : Option (Crowd σ Q A R P) := ns.foldlM (turnAt reply) c

lemma turn_of_turnAt {reply : List (Event Q A R P) → (q : Q) → A q} {n : Nat}
    (h : turnAt reply c n = some c') : Turn c c' := by
  unfold turnAt at h
  split at h
  · next id _ q next report hn =>
    obtain ⟨hlt, hget⟩ := List.getElem?_eq_some_iff.mp hn
    obtain rfl := Option.some.inj h
    rw [List.eraseIdx_eq_take_drop_succ]
    refine .answer _ ?_
    rw [← hget, List.getElem_cons_drop, List.take_append_drop]
  · next id _ turns until_ next report hn =>
    obtain ⟨hlt, hget⟩ := List.getElem?_eq_some_iff.mp hn
    obtain ⟨hu, h⟩ := Option.ite_none_right_eq_some.mp h
    obtain rfl := Option.some.inj h
    have hp : c.paused = c.paused.take n ++ ⟨id, _, .wait turns until_ next, report⟩ ::
        c.paused.drop (n + 1) := by
      rw [← hget, List.getElem_cons_drop, List.take_append_drop]
    rw [List.eraseIdx_eq_take_drop_succ]
    exact .wake hp hu
  · exact nomatch h

lemma turns_of_turnsAt {reply : List (Event Q A R P) → (q : Q) → A q} {ns : List Nat}
    (h : turnsAt reply c ns = some c') : Relation.ReflTransGen Turn c c' := by
  induction ns generalizing c with
  | nil =>
    obtain rfl := Option.some.inj h
    exact .refl
  | cons n ns ih =>
    obtain ⟨d, hd, h'⟩ := Option.bind_eq_some_iff.mp h
    exact .head (turn_of_turnAt hd) (ih h')

lemma Reachable.turns {s : σ} (hr : Reachable work s c) (h : Relation.ReflTransGen Turn c c') :
    Reachable work s c' := by
  induction h with
  | refl => exact hr
  | tail _ ht ih => exact ih.tail (ht.step work)

/-! ## What is inevitable -/

/-- In whatever order turns are taken, and with whatever answers, a crowd of a kind is come to. -/
inductive Inevitable (goal : Crowd σ Q A R P → Prop) : Crowd σ Q A R P → Prop
  | now {c : Crowd σ Q A R P} : goal c → Inevitable goal c
  | later {c : Crowd σ Q A R P} : (∃ c', Turn c c') → (∀ c', Turn c c' → Inevitable goal c') →
    Inevitable goal c

namespace Inevitable

variable {goal goal' : Crowd σ Q A R P → Prop}

theorem trans (h : Inevitable goal c) (hg : ∀ c', goal c' → Inevitable goal' c') :
    Inevitable goal' c := by
  induction h with
  | now hc => exact hg _ hc
  | later hex _ ih => exact .later hex ih

theorem imp (h : Inevitable goal c) (hg : ∀ c', goal c' → goal' c') : Inevitable goal' c :=
  h.trans fun c' hc => .now (hg c' hc)

/-- When nobody can take a turn any more, what was inevitable has come about on the way. -/
theorem exists_goal (h : Inevitable goal c) (ht : Relation.ReflTransGen Turn c c')
    (hstop : ¬ ∃ d, Turn c' d) :
    ∃ d, Relation.ReflTransGen Turn c d ∧ goal d ∧ Relation.ReflTransGen Turn d c' := by
  induction h with
  | now hc => exact ⟨_, .refl, hc, ht⟩
  | later hex _ ih =>
    rcases ht.cases_head with rfl | ⟨d, hd, ht⟩
    · exact absurd hex hstop
    · obtain ⟨e, he, hgoal, ht'⟩ := ih d hd ht
      exact ⟨e, .head hd he, hgoal, ht'⟩

end Inevitable

/-! ## What a routine brings about -/

/-- Nobody in the crowd can take a turn. -/
def Resting (c : Crowd σ Q A R P) : Prop :=
  ∀ p ∈ c.paused, ∃ turns until_ next, p.rest = .wait turns until_ next ∧ until_ c.state = false

/-- A routine that goes on in the crowd inevitably comes to its end, with a result and in a crowd as
given, unless an answer is not as it should be. -/
def Brings (lost : List (Event Q A R P) → Prop) (id : Nat) (x : Routine σ Q A α)
    (c : Crowd σ Q A R P) (post : α → Crowd σ Q A R P → Prop) : Prop :=
  ∀ (β : Type) (f : α → Routine σ Q A β) (report : β → Option P),
    Inevitable (fun w => lost w.history ∨ ∃ a c', post a c' ∧ w = run id report (f a) c')
      (run id report (x.bind f) c)

/-- Once an answer was not as it should be, it does not matter what happens. -/
def Final (lost : List (Event Q A R P) → Prop) : Prop := ∀ e h, lost h → lost (e :: h)

variable {lost : List (Event Q A R P) → Prop} {post : α → Crowd σ Q A R P → Prop}

lemma lost_run (hl : Final lost) (report : α → Option P) (x : Routine σ Q A α)
    (hc : lost c.history) : lost (run id report x c).history := by
  obtain ⟨-, news, -, hh⟩ := run_adds id report x c
  rw [hh]
  clear hh
  induction news with
  | nil => exact hc
  | cons e news ih => exact hl e _ ih

/-- In a crowd in which only one routine can take a turn, it is this routine that takes the next
one. -/
lemma turn_of_resting_among {front back : List (Paused σ Q A P)} {p : Paused σ Q A P}
    (hrest : Resting { c with paused := front ++ back })
    (ht : Turn { c with paused := front ++ p :: back } c') :
    (∃ q next, p.rest = .ask q next ∧ ∃ a : A q, c' = run p.id p.report (next a)
      { c with paused := front ++ back, history := .answered p.id q a :: c.history }) ∨
    (∃ turns until_ next, p.rest = .wait turns until_ next ∧ until_ c.state = true ∧
      c' = run p.id p.report (next .ready) { c with paused := front ++ back }) := by
  -- who takes a turn stands at the place of `p` or is one of those who rest
  have hplace : ∀ {front' back' : List (Paused σ Q A P)} {q : Paused σ Q A P},
      front ++ p :: back = front' ++ q :: back' →
        (front' = front ∧ q = p ∧ back' = back) ∨ q ∈ front ++ back := by
    intro front' back' q h
    rcases List.append_eq_append_iff.mp h with ⟨as, rfl, hback⟩ | ⟨as, rfl, hback⟩
    · cases as with
      | nil =>
        obtain ⟨rfl, rfl⟩ := List.cons.inj hback
        exact Or.inl ⟨List.append_nil _, rfl, rfl⟩
      | cons p' as =>
        obtain ⟨rfl, rfl⟩ := List.cons.inj hback
        exact Or.inr (by simp)
    · cases as with
      | nil =>
        obtain ⟨rfl, rfl⟩ := List.cons.inj hback
        exact Or.inl ⟨(List.append_nil _).symm, rfl, rfl⟩
      | cons p' as =>
        obtain ⟨rfl, rfl⟩ := List.cons.inj hback
        exact Or.inr (by simp)
  generalize hd : ({ c with paused := front ++ p :: back } : Crowd σ Q A R P) = d at ht
  cases ht with
  | @answer front' back' id α q next report a hp =>
    subst hd
    rcases hplace hp with ⟨rfl, rfl, rfl⟩ | hmem
    · exact Or.inl ⟨q, next, rfl, a, rfl⟩
    · obtain ⟨_, _, _, hwait, -⟩ := hrest _ hmem
      exact nomatch hwait
  | @wake front' back' id α turns until_ next report hp hu =>
    subst hd
    rcases hplace hp with ⟨rfl, rfl, rfl⟩ | hmem
    · exact Or.inr ⟨turns, until_, next, rfl, hu, rfl⟩
    · obtain ⟨_, _, _, hwait, hu'⟩ := hrest _ hmem
      cases hwait
      exact absurd hu (by simp [hu'])

lemma turn_of_resting {p : Paused σ Q A P} (hrest : Resting c)
    (ht : Turn { c with paused := p :: c.paused } c') :
    (∃ q next, p.rest = .ask q next ∧ ∃ a : A q, c' = run p.id p.report (next a)
      { c with history := .answered p.id q a :: c.history }) ∨
    (∃ turns until_ next, p.rest = .wait turns until_ next ∧ until_ c.state = true ∧
      c' = run p.id p.report (next .ready) c) :=
  @turn_of_resting_among _ _ _ _ _ c c' [] c.paused p hrest ht

/-- One who waits alone goes on when the condition has come about. -/
theorem Inevitable.wake {goal : Crowd σ Q A R P → Prop} {turns : Nat} {until_ : σ → Bool}
    {next : Wake → Routine σ Q A α} {report : α → Option P} (hrest : Resting c)
    (hu : until_ c.state = true) (h : Inevitable goal (run id report (next .ready) c)) :
    Inevitable goal
      { c with paused := ⟨id, α, .wait turns until_ next, report⟩ :: c.paused } := by
  refine .later ⟨_, .wake (List.nil_append _).symm hu⟩ fun c' ht => ?_
  rcases turn_of_resting hrest ht with ⟨_, _, hask, -⟩ | ⟨_, _, _, hwait, -, rfl⟩
  · exact nomatch hask
  · cases hwait
    exact h

namespace Brings

variable {x : Routine σ Q A α}

theorem done {a : α} (h : post a c) : Brings lost id (.done a) c post :=
  fun _ _ _ => .now (Or.inr ⟨a, c, h, rfl⟩)

theorem imp {post' : α → Crowd σ Q A R P → Prop} (h : Brings lost id x c post)
    (hp : ∀ a c', post a c' → post' a c') : Brings lost id x c post' :=
  fun β f report => (h β f report).imp fun _ hw =>
    hw.imp_right fun ⟨a, c', hpost, hw⟩ => ⟨a, c', hp a c' hpost, hw⟩

theorem bind {f : α → Routine σ Q A β} {post' : β → Crowd σ Q A R P → Prop}
    (h : Brings lost id x c post) (hf : ∀ a c', post a c' → Brings lost id (f a) c' post') :
    Brings lost id (x.bind f) c post' := by
  intro γ g report
  rw [Routine.bind_assoc]
  refine (h γ _ report).trans ?_
  rintro w (hl | ⟨a, c', hpost, rfl⟩)
  · exact .now (Or.inl hl)
  · exact hf a c' hpost γ g report

theorem step {change : σ → σ} {next : σ → Routine σ Q A α}
    (h : Brings lost id (next c.state) { c with state := change c.state } post) :
    Brings lost id (.step change next) c post := h

theorem spawn {child : Routine σ Q A Unit} {next : Nat → Routine σ Q A α}
    (h : Brings lost id (next c.fresh) (c.spawn child) post) :
    Brings lost id (.spawn child next) c post := h

theorem ask {q : Q} {next : A q → Routine σ Q A α} (hl : Final lost) (hq : Nonempty (A q))
    (hrest : Resting c)
    (h : ∀ a, lost (.answered id q a :: .put id q :: c.history) ∨
      Brings lost id (next a)
        { c with history := .answered id q a :: .put id q :: c.history } post) :
    Brings lost id (.ask q next) c post := by
  intro β f report
  obtain ⟨a⟩ := hq
  refine .later ⟨_, .answer a (List.nil_append _).symm⟩ fun c' ht => ?_
  have hrest' : Resting { c with history := .put id q :: c.history } := hrest
  rcases turn_of_resting hrest' ht with ⟨q', next', hask, a', rfl⟩ | ⟨_, _, _, hwait, -⟩
  · cases hask
    rcases h a' with hlost | h
    · exact .now (Or.inl (lost_run hl _ _ hlost))
    · exact h β f report
  · exact nomatch hwait

theorem wait {turns : Nat} {until_ : σ → Bool} {next : Wake → Routine σ Q A α}
    (hrest : Resting c) (hu : until_ c.state = true) (h : Brings lost id (next .ready) c post) :
    Brings lost id (.wait turns until_ next) c post :=
  fun β f report => .wake hrest hu (h β f report)

/-- One who starts a helper and waits for it goes on when the helper has brought about what is
waited for, as long as nobody else can take a turn. -/
theorem delegate {child : Routine σ Q A Unit} {turns : Nat} {until_ : σ → Bool}
    {next : Wake → Routine σ Q A α} (hrest : Resting c) (hu : until_ c.state = false)
    (hchild : ∀ p : Paused σ Q A P, (∃ next', p.rest = .wait turns until_ next') →
      Brings lost c.fresh child { c with fresh := c.fresh + 1, paused := p :: c.paused } fun _ c' =>
        ∃ d, c' = { d with paused := p :: d.paused } ∧ Resting d ∧ until_ d.state = true ∧
          Brings lost id (next .ready) d post) :
    Brings lost id (.spawn child fun _ => .wait turns until_ next) c post := by
  intro β f report
  obtain ⟨p, hp⟩ : ∃ p : Paused σ Q A P,
    p = ⟨id, β, .wait turns until_ fun v => (next v).bind f, report⟩ := ⟨_, rfl⟩
  have hwaits : ∃ next', p.rest = .wait turns until_ next' := by
    subst hp
    exact ⟨_, rfl⟩
  have hrest' : Resting { c with fresh := c.fresh + 1, paused := [p] ++ c.paused } := by
    intro q hq
    rcases List.mem_cons.mp hq with rfl | hq
    · obtain ⟨next', hn⟩ := hwaits
      exact ⟨turns, until_, next', hn, hu⟩
    · exact hrest q hq
  have hgoal := hchild p hwaits Unit .done fun _ => none
  rw [Routine.bind_done] at hgoal
  obtain ⟨begin, hbegin, hready⟩ : ∃ begin : Wake → Routine σ Q A Unit, (c.spawn child).paused =
      ⟨c.fresh, Unit, .wait 0 (fun _ => true) begin, fun _ => none⟩ :: c.paused ∧
      begin .ready = child := ⟨_, rfl, rfl⟩
  refine .later ⟨_, .wake (List.singleton_append).symm rfl⟩ fun c' ht => ?_
  have ht' : Turn { c with
      fresh := c.fresh + 1
      paused := [p] ++ ⟨c.fresh, Unit, .wait 0 (fun _ => true) begin, fun _ => none⟩ :: c.paused }
      c' := by
    subst hp
    rw [← hbegin]
    exact ht
  rcases @turn_of_resting_among _ _ _ _ _ { c with fresh := c.fresh + 1 } _ [p] _ _ hrest' ht' with
    ⟨_, _, hask, -⟩ | ⟨_, _, next', hwait, -, rfl⟩
  · cases hask
  · cases hwait
    rw [hready]
    refine hgoal.trans ?_
    rintro w (hl | ⟨_, c', ⟨d, rfl, hd, hdone, hnext⟩, rfl⟩)
    · exact .now (Or.inl hl)
    · subst hp
      exact .wake hd hdone (hnext β f report)

end Brings

end Crowd

end SourceBundle
