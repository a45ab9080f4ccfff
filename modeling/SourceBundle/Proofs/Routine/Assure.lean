/-
# What routines assure

A footing says which states a routine may find, which answers it may get, and how its pauses may
end.  On a footing a routine assures a property of its results if it leaves only states of the kind
that it may find, and every walk through it that keeps to the footing ends as promised.  Between two
pauses the state is known as it is, so that what a routine has waited for holds when it goes on.

In a crowd that keeps to a footing, all requests return what they assure.
-/
import SourceBundle.Proofs.Routine.Plain
import SourceBundle.Proofs.Routine.Turns

namespace SourceBundle

/-- What a routine stands on. -/
structure Footing (σ Q : Type) (A : Q → Type) where
  /-- Which states it may find. -/
  state : σ → Prop
  /-- Which answers it may get. -/
  answer : (q : Q) → A q → Prop
  /-- How its pauses may end. -/
  wake : Wake → Prop

variable {σ Q : Type} {A : Q → Type} {R P α β δ : Type} {F : Footing σ Q A} {s s' : σ}

namespace Routine

/-- In a state: the routine, and all that it starts, leaves states as they should be, and something
holds of its result and of the state at its end. -/
def Assures (F : Footing σ Q A) {α : Type} : Routine σ Q A α → σ → (α → σ → Prop) → Prop
  | .done a, s, post => post a s
  | .step change next, s, post => F.state (change s) ∧ (next s).Assures F (change s) post
  | .ask q next, _, post => ∀ a s, F.answer q a → F.state s → (next a).Assures F s post
  | .wait _ until_ next, _, post => ∀ w s, F.wake w → F.state s →
    (w = .ready → until_ s = true) → (next w).Assures F s post
  | .spawn child next, s, post =>
    (∀ s, F.state s → child.Assures F s fun _ _ => True) ∧ ∀ n, (next n).Assures F s post

/-- Begun in any state as it should be, the routine leaves such states, and its result has a
property. -/
def Secures (F : Footing σ Q A) (x : Routine σ Q A α) (post : α → Prop) : Prop :=
  ∀ s, F.state s → x.Assures F s fun a s' => F.state s' ∧ post a

namespace Assures

theorem chain {x : Routine σ Q A α} {f : α → Routine σ Q A β} {mid : α → σ → Prop} {post : β → σ → Prop}
    (h : x.Assures F s mid) (hf : ∀ a s', mid a s' → (f a).Assures F s' post) : (x.bind f).Assures F s post := by
  induction x generalizing s with
  | done a => exact hf a s h
  | step change next ih => exact ⟨h.1, ih s h.2 hf⟩
  | ask q next ih => exact fun a s' ha hs => ih a (h a s' ha hs) hf
  | wait turns until_ next ih => exact fun w s' hw hs hu => ih w (h w s' hw hs hu) hf
  | spawn child next _ ih => exact ⟨h.1, fun n => ih n (h.2 n) hf⟩

theorem imp {x : Routine σ Q A α} {post post' : α → σ → Prop} (h : x.Assures F s post)
    (hp : ∀ a s, post a s → post' a s) : x.Assures F s post' := by
  have hdone : (x.bind done).Assures F s post' := h.chain hp
  rwa [bind_done] at hdone

theorem bind {x : Routine σ Q A α} {f : α → Routine σ Q A β} {post : β → σ → Prop}
    (h : x.Assures F s fun a s' => (f a).Assures F s' post) : (x.bind f).Assures F s post :=
  h.chain fun _ _ ha => ha

end Assures

namespace Secures

variable {x : Routine σ Q A α} {post : α → Prop}

theorem imp {post' : α → Prop} (h : x.Secures F post) (hp : ∀ a, post a → post' a) :
    x.Secures F post' :=
  fun s hs => (h s hs).imp fun a _ ha => ⟨ha.1, hp a ha.2⟩

theorem done {a : α} (h : post a) : (Routine.done a : Routine σ Q A α).Secures F post :=
  fun _ hs => ⟨hs, h⟩

theorem bind {f : α → Routine σ Q A β} {post' : β → Prop} (hx : x.Secures F post)
    (hf : ∀ a, post a → (f a).Secures F post') : (x.bind f).Secures F post' :=
  fun s hs => Assures.bind ((hx s hs).imp fun a s' ha => hf a ha.2 s' ha.1)

theorem put {q : Q} {post : A q → Prop} (h : ∀ a, F.answer q a → post a) :
    (Routine.put q : Routine σ Q A (A q)).Secures F post :=
  fun _ _ a _ ha hs => ⟨hs, h a ha⟩

theorem modify {f : σ → σ} (h : ∀ s, F.state s → F.state (f s)) :
    (Routine.modify f : Routine σ Q A Unit).Secures F fun _ => True :=
  fun s hs => ⟨h s hs, h s hs, trivial⟩

theorem modifyGet {f : σ → α × σ} (h : ∀ s, F.state s → F.state (f s).2 ∧ post (f s).1) :
    (Routine.modifyGet f : Routine σ Q A α).Secures F post :=
  fun s hs => ⟨(h s hs).1, h s hs⟩

theorem gets {f : σ → α} (h : ∀ s, F.state s → post (f s)) :
    (Routine.gets f : Routine σ Q A α).Secures F post :=
  fun s hs => ⟨hs, hs, h s hs⟩

theorem await (turns : Nat) (until_ : σ → Bool) :
    (Routine.await turns until_ : Routine σ Q A Wake).Secures F F.wake :=
  fun _ _ _ _ hw hs _ => ⟨hs, hw⟩

theorem start {child : Routine σ Q A Unit} (h : child.Secures F fun _ => True) :
    (Routine.start child : Routine σ Q A Nat).Secures F fun _ => True :=
  fun _ hs => ⟨fun s hs => (h s hs).imp fun _ _ _ => trivial, fun _ => ⟨hs, trivial⟩⟩

/-- Plain work stands on every footing whose states it does not disturb. -/
theorem of_plain {m : Manner σ Q A δ} (hx : x.Plain m post)
    (hc : ∀ s t, F.state s → m.change s t → F.state t) : x.Secures F post := by
  induction x with
  | done a => exact done hx
  | step change next ih =>
    intro s hs
    have ht := hc _ _ hs (hx.1 s)
    exact ⟨ht, ih s (hx.2.2 s) _ ht⟩
  | ask q next ih => exact fun _ _ a s hs => ih a (hx.2.1 a) s
  | wait turns until_ next _ => exact hx.elim
  | spawn child next _ _ => exact hx.elim

end Secures

end Routine

/-! ## Routines that may fail and keep notes -/

/-- The result is as it should be, or the fault is one that is admitted. -/
def Except.Within {ε : Type} (fault : ε → Prop) (post : α → Prop) : Except ε α → Prop
  | .ok a => post a
  | .error e => fault e

/-- The attempt assures a property of its result, and has no faults but those that are admitted. -/
def Attempt.Secures {ε : Type} (F : Footing σ Q A) (fault : ε → Prop) (x : Attempt σ Q A ε α)
    (post : α → Prop) : Prop :=
  x.run.Secures F (Except.Within fault post)

/-- Begun with a private state of a kind, the run leaves such a state, assures a property of its
result, and has no faults but those that are admitted. -/
def Run.Secures {ε ρ : Type} (F : Footing σ Q A) (fault : ε → Prop) (I : ρ → Prop)
    (x : Run σ Q A ε ρ α) (post : α → Prop) : Prop :=
  ∀ t, I t → (x.run t).Secures F fun p => I p.2 ∧ Except.Within fault post p.1

namespace Attempt.Secures

variable {ε : Type} {fault : ε → Prop} {x : Attempt σ Q A ε α} {post post' : α → Prop}

theorem imp (h : Attempt.Secures F fault x post) (hp : ∀ a, post a → post' a) :
    Attempt.Secures F fault x post' := by
  refine Routine.Secures.imp h fun r hr => ?_
  cases r with
  | ok a => exact hp a hr
  | error e => exact hr

theorem widen {fault' : ε → Prop} (h : Attempt.Secures F fault x post)
    (hf : ∀ e, fault e → fault' e) : Attempt.Secures F fault' x post := by
  refine Routine.Secures.imp h fun r hr => ?_
  cases r with
  | ok a => exact hr
  | error e => exact hf e hr

theorem pure {a : α} (h : post a) :
    Attempt.Secures F fault (Pure.pure a : Attempt σ Q A ε α) post :=
  Routine.Secures.done h

theorem throw {e : ε} (h : fault e) :
    Attempt.Secures F fault (MonadExcept.throw e : Attempt σ Q A ε α) post :=
  Routine.Secures.done h

theorem bind {f : α → Attempt σ Q A ε β} {post : β → Prop} {mid : α → Prop}
    (hx : Attempt.Secures F fault x mid) (hf : ∀ a, mid a → Attempt.Secures F fault (f a) post) :
    Attempt.Secures F fault (x >>= f) post := by
  refine Routine.Secures.bind hx fun r hr => ?_
  cases r with
  | ok a => exact hf a hr
  | error e => exact Routine.Secures.done hr

theorem tryCatch {fault' : ε → Prop} {h : ε → Attempt σ Q A ε α}
    (hx : Attempt.Secures F fault x post)
    (hh : ∀ e, fault e → Attempt.Secures F fault' (h e) post) :
    Attempt.Secures F fault' (MonadExcept.tryCatch x h) post := by
  refine Routine.Secures.bind hx fun r hr => ?_
  cases r with
  | ok a => exact Routine.Secures.done hr
  | error e => exact hh e hr

theorem forM {f : β → Attempt σ Q A ε PUnit} {bs : List β}
    (hf : ∀ b ∈ bs, Attempt.Secures F fault (f b) fun _ => True) :
    Attempt.Secures F fault (bs.forM f) fun _ => True := by
  induction bs with
  | nil => exact pure trivial
  | cons b bs ih =>
    exact bind (hf b List.mem_cons_self) fun _ _ => ih fun b' hb => hf b' (List.mem_cons_of_mem b hb)

end Attempt.Secures

namespace Run.Secures

variable {ε ρ τ : Type} {fault : ε → Prop} {I : ρ → Prop} {x : Run σ Q A ε ρ α} {post post' : α → Prop}

theorem imp (h : Run.Secures F fault I x post) (hp : ∀ a, post a → post' a) :
    Run.Secures F fault I x post' := by
  refine fun t ht => (h t ht).imp fun p hpost => ⟨hpost.1, ?_⟩
  obtain ⟨e | a, u⟩ := p
  · exact hpost.2
  · exact hp a hpost.2

theorem pure {a : α} (h : post a) : Run.Secures F fault I (Pure.pure a : Run σ Q A ε ρ α) post :=
  fun _ ht => Routine.Secures.done ⟨ht, h⟩

theorem throw {e : ε} (h : fault e) :
    Run.Secures F fault I (MonadExcept.throw e : Run σ Q A ε ρ α) post :=
  fun _ ht => Routine.Secures.done ⟨ht, h⟩

theorem get : Run.Secures F fault I (getThe ρ : Run σ Q A ε ρ ρ) I :=
  fun _ ht => Routine.Secures.done ⟨ht, ht⟩

theorem modify {f : ρ → ρ} (h : ∀ t, I t → I (f t)) :
    Run.Secures F fault I (modifyThe ρ f : Run σ Q A ε ρ PUnit) fun _ => True :=
  fun t ht => Routine.Secures.done ⟨h t ht, trivial⟩

theorem bind {f : α → Run σ Q A ε ρ β} {post : β → Prop} {mid : α → Prop}
    (hx : Run.Secures F fault I x mid) (hf : ∀ a, mid a → Run.Secures F fault I (f a) post) :
    Run.Secures F fault I (x >>= f) post := by
  intro t ht
  rw [run_bind]
  refine Routine.Secures.bind (hx t ht) ?_
  rintro ⟨e | a, u⟩ ⟨hu, hr⟩
  · exact Routine.Secures.done ⟨hu, hr⟩
  · exact hf a hr u hu

theorem tryCatch {h : ε → Run σ Q A ε ρ α} (hx : Run.Secures F fault I x post)
    (hh : ∀ e, fault e → Run.Secures F fault I (h e) post) :
    Run.Secures F fault I (MonadExcept.tryCatch x h) post := by
  intro t ht
  rw [run_tryCatch]
  refine Routine.Secures.bind (hx t ht) ?_
  rintro ⟨e | a, u⟩ ⟨hu, hr⟩
  · exact hh e hr u hu
  · exact Routine.Secures.done ⟨hu, hr⟩

theorem lift {x : Attempt σ Q A ε α} (hx : Attempt.Secures F fault x post) :
    Run.Secures F fault I (Run.lift x : Run σ Q A ε ρ α) post :=
  fun _ ht => Routine.Secures.bind hx fun _ hr => Routine.Secures.done ⟨ht, hr⟩

theorem zoom {J : τ → Prop} {view : ρ → τ} {set : τ → ρ → ρ} {x : Run σ Q A ε τ α}
    (hx : Run.Secures F fault J x post) (hview : ∀ t, I t → J (view t))
    (hset : ∀ t u, I t → J u → I (set u t)) :
    Run.Secures F fault I (Run.zoom view set x) post :=
  fun t ht => Routine.Secures.bind (hx (view t) (hview t ht)) fun p hp =>
    Routine.Secures.done ⟨hset t p.2 ht hp.1, hp.2⟩

theorem forM {f : β → Run σ Q A ε ρ PUnit} {bs : List β}
    (hf : ∀ b ∈ bs, Run.Secures F fault I (f b) fun _ => True) :
    Run.Secures F fault I (bs.forM f) fun _ => True := by
  induction bs with
  | nil => exact pure trivial
  | cons b bs ih =>
    exact bind (hf b List.mem_cons_self) fun _ _ => ih fun b' hb => hf b' (List.mem_cons_of_mem b hb)

end Run.Secures

/-! ## Crowds -/

/-- All answers of a history are such as a footing expects. -/
def Footing.Hears (F : Footing σ Q A) (h : List (Event Q A R P)) : Prop :=
  ∀ id q a, .answered id q a ∈ h → F.answer q a

/-- Whether an event is not an answer that a footing does not expect. -/
def Footing.hears (F : Footing σ Q A) [∀ q a, Decidable (F.answer q a)] : Event Q A R P → Bool
  | .answered _ q a => decide (F.answer q a)
  | _ => true

lemma Footing.hears_of_all [∀ q a, Decidable (F.answer q a)] {h : List (Event Q A R P)}
    (hall : h.all F.hears = true) : F.Hears h :=
  fun _ _ _ hmem => of_decide_eq_true (List.all_eq_true.mp hall _ hmem)

namespace Crowd

open Routine

variable {work : R → Routine σ Q A P} {good : P → Prop} {c c' : Crowd σ Q A R P} {id : Nat}

/-- The state is as it should be, all who pause assure that they report what is good, and so was all
that has been returned. -/
structure Assured (F : Footing σ Q A) (good : P → Prop) (c : Crowd σ Q A R P) : Prop where
  state : F.state c.state
  paused : ∀ p ∈ c.paused, ∀ s, p.rest.Assures F s fun a _ => ∀ r, p.report a = some r → good r
  returned : ∀ id r, .returned id r ∈ c.history → good r

namespace Assured

lemma note (hc : Assured F good c) {e : Event Q A R P} (he : ∀ id r, e = .returned id r → good r) :
    Assured F good { c with history := e :: c.history } where
  state := hc.state
  paused := hc.paused
  returned id r hr := by
    rcases List.mem_cons.mp hr with rfl | hr
    · exact he id r rfl
    · exact hc.returned id r hr

lemma pause (hc : Assured F good c) {p : Paused σ Q A P}
    (hp : ∀ s, p.rest.Assures F s fun a _ => ∀ r, p.report a = some r → good r) :
    Assured F good { c with paused := p :: c.paused } :=
  ⟨hc.state, List.forall_mem_cons.mpr ⟨hp, hc.paused⟩, hc.returned⟩

lemma resume (hc : Assured F good c) {front back : List (Paused σ Q A P)} {p : Paused σ Q A P}
    (hp : c.paused = front ++ p :: back) : Assured F good { c with paused := front ++ back } := by
  refine ⟨hc.state, fun q hq => hc.paused q ?_, hc.returned⟩
  rw [hp]
  exact List.mem_append.mpr ((List.mem_append.mp hq).imp_right (List.mem_cons_of_mem p))

/-- One that goes on as it assures leaves the crowd assured. -/
lemma run {x : Routine σ Q A α} {report : α → Option P} (hc : Assured F good c)
    (hx : x.Assures F c.state fun a _ => ∀ r, report a = some r → good r) :
    Assured F good (Crowd.run id report x c) := by
  induction x generalizing c with
  | done a =>
    unfold Crowd.run
    cases hr : report a with
    | none => exact hc
    | some r =>
      refine hc.note ?_
      rintro _ _ ⟨⟩
      exact hx r hr
  | step change next ih => exact ih c.state ⟨hx.1, hc.paused, hc.returned⟩ hx.2
  | ask q next _ =>
    have hp : Assured F good { c with paused := ⟨id, _, .ask q next, report⟩ :: c.paused } :=
      hc.pause fun _ => hx
    refine hp.note ?_
    rintro _ _ ⟨⟩
  | wait turns until_ next _ => exact hc.pause fun _ => hx
  | spawn child next _ ih =>
    have hchild : Assured F good (c.spawn child) := by
      refine ⟨hc.state, List.forall_mem_cons.mpr ⟨fun _ w s _ hs _ => ?_, hc.paused⟩, hc.returned⟩
      cases w with
      | ready =>
        refine (hx.1 s hs).imp ?_
        rintro _ _ _ _ ⟨⟩
      | cancelled =>
        rintro _ ⟨⟩
    exact ih c.fresh hchild (hx.2 c.fresh)

/-- A question is answered as the footing expects. -/
lemma answer (hc : Assured F good c) {front back : List (Paused σ Q A P)} {q : Q}
    {next : A q → Routine σ Q A α} {report : α → Option P} {a : A q}
    (hp : c.paused = front ++ ⟨id, α, .ask q next, report⟩ :: back) (ha : F.answer q a) :
    Assured F good (Crowd.run id report (next a)
      { c with paused := front ++ back, history := .answered id q a :: c.history }) := by
  have hmem : (⟨id, α, .ask q next, report⟩ : Paused σ Q A P) ∈ c.paused := by simp [hp]
  have hnote := (hc.resume hp).note (e := .answered id q a) nofun
  exact hnote.run (hc.paused _ hmem c.state a c.state ha hc.state)

/-- A pause ends as the footing expects. -/
lemma wake (hc : Assured F good c) {front back : List (Paused σ Q A P)} {turns : Nat}
    {until_ : σ → Bool} {next : Wake → Routine σ Q A α} {report : α → Option P} {w : Wake}
    (hp : c.paused = front ++ ⟨id, α, .wait turns until_ next, report⟩ :: back) (hw : F.wake w)
    (hu : w = .ready → until_ c.state = true) :
    Assured F good (Crowd.run id report (next w) { c with paused := front ++ back }) := by
  have hmem : (⟨id, α, .wait turns until_ next, report⟩ : Paused σ Q A P) ∈ c.paused := by simp [hp]
  exact (hc.resume hp).run (hc.paused _ hmem c.state w c.state hw hc.state hu)

/-- A request comes. -/
lemma call (hc : Assured F good c) (hwork : ∀ r, (work r).Secures F good) (r : R) :
    Assured F good (c.call work r) := by
  have hb := hc.note (e := .begun c.fresh r) nofun
  have hfresh : Assured F good
      { c with fresh := c.fresh + 1, history := .begun c.fresh r :: c.history } :=
    ⟨hb.state, hb.paused, hb.returned⟩
  exact hfresh.run ((hwork r c.state hc.state).imp fun _ _ h _ hr => Option.some.inj hr ▸ h.2)

end Assured

/-- The answer that a run begins with stays in the history. -/
lemma answered_mem_run {x : Routine σ Q A α} {report : α → Option P} {e : Event Q A R P}
    (he : e ∈ c.history) : e ∈ (Crowd.run id report x c).history := by
  obtain ⟨-, news, -, hh⟩ := run_adds id report x c
  rw [hh]
  exact List.mem_append_right _ he

/-- What can happen in a crowd whose answers and pauses are such as a footing expects. -/
inductive Orderly (F : Footing σ Q A) (work : R → Routine σ Q A P) :
    Crowd σ Q A R P → Crowd σ Q A R P → Prop
  | call (c : Crowd σ Q A R P) (r : R) : Orderly F work c (c.call work r)
  | answer {c : Crowd σ Q A R P} {front back : List (Paused σ Q A P)} {id : Nat} {α : Type} {q : Q}
      {next : A q → Routine σ Q A α} {report : α → Option P} (a : A q) :
    c.paused = front ++ ⟨id, α, .ask q next, report⟩ :: back → F.answer q a →
    Orderly F work c (Crowd.run id report (next a)
      { c with paused := front ++ back, history := .answered id q a :: c.history })
  | wake {c : Crowd σ Q A R P} {front back : List (Paused σ Q A P)} {id : Nat} {α : Type}
      {turns : Nat} {until_ : σ → Bool} {next : Wake → Routine σ Q A α} {report : α → Option P}
      (w : Wake) :
    c.paused = front ++ ⟨id, α, .wait turns until_ next, report⟩ :: back → F.wake w →
    (w = .ready → until_ c.state = true) →
    Orderly F work c (Crowd.run id report (next w) { c with paused := front ++ back })

/-- What is orderly leaves a crowd assured. -/
theorem Assured.orderly (hc : Assured F good c) (hwork : ∀ r, (work r).Secures F good)
    (h : Orderly F work c c') : Assured F good c' := by
  cases h with
  | call r => exact hc.call hwork r
  | answer a hp ha => exact hc.answer hp ha
  | wake w hp hw hu => exact hc.wake hp hw hu

/-- In an orderly crowd all requests return what they assure. -/
theorem assured_of_orderly (hwork : ∀ r, (work r).Secures F good) (hs : F.state s)
    (h : Relation.ReflTransGen (Orderly F work) { state := s } c) : Assured F good c := by
  induction h with
  | refl => exact ⟨hs, nofun, nofun⟩
  | tail _ hstep ih => exact ih.orderly hwork hstep

/-- Turns are orderly if their answers are such as the footing expects. -/
theorem orderly_of_turns (ht : Relation.ReflTransGen Turn c c') (hw : F.wake .ready)
    (ha : F.Hears c'.history) : Relation.ReflTransGen (Orderly F work) c c' := by
  induction ht with
  | refl => exact .refl
  | tail _ ht ih =>
    cases ht with
    | answer a hp =>
      refine (ih fun id q b hmem => ha id q b (answered_mem_run (List.mem_cons_of_mem _ hmem))).tail ?_
      exact .answer a hp (ha _ _ a (answered_mem_run List.mem_cons_self))
    | wake hp hu =>
      exact (ih fun id q b hmem => ha id q b (answered_mem_run hmem)).tail (.wake .ready hp hw fun _ => hu)

end Crowd

end SourceBundle
