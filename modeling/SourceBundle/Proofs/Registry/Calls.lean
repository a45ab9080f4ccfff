/-
# What a call of the client does

A call takes the client and its network from one exchange to another, and gives a result or a fault; either
way what it has done stays done.  Here is what each of the basic calls gives and leaves, and how a property of
exchanges is carried through calls one after the other.
-/
import Mathlib.Tactic.Common
import SourceBundle.Registry.Client

namespace SourceBundle.Registry

variable {α β : Type} {x : Exchange} {m : Calls α} {f : α → Calls β} {P Q R : Exchange → Prop}

/-! ## Performing a call -/

/-- What a call gives in an exchange, and the exchange that it leaves. -/
def Calls.exec (m : Calls α) (x : Exchange) : Except Fault α × Exchange := m.run x

/-- The exchange that a call leaves. -/
def Calls.after (m : Calls α) (x : Exchange) : Exchange := (m.exec x).2

lemma after_modify (g : Exchange → Exchange) (x : Exchange) : (modify g : Calls Unit).after x = g x := rfl

/-- A call goes on from where the call before it has left off, unless that has failed. -/
lemma exec_bind (m : Calls α) (f : α → Calls β) (x : Exchange) :
    (m >>= f).exec x = match m.exec x with
      | (.ok a, y) => (f a).exec y
      | (.error e, y) => (.error e, y) := by
  unfold Calls.exec ExceptT.run
  simp only [bind, ExceptT.bind, ExceptT.mk, StateT.bind]
  cases m x with
  | mk result y => cases result <;> rfl

/-- A connection that there is stays in use. -/
lemma after_start_of_some {c : Connection} (h : x.client.connection? = some c) : start.after x = x := by
  rw [start, after_modify, h]

/-- Without a connection one is opened, and then belongs to the client. -/
lemma after_start_of_none (h : x.client.connection? = none) :
    start.after x =
      { client :=
          { x.client with connection? := some (.own x.network.opened.length), ownsConnection := true }
        network := x.network.note (.opened (.own x.network.opened.length)) } := by
  rw [start, after_modify, h]
  rfl

/-- No connection is in use any more; if there has been one that the client owns, it is closed. -/
lemma after_stop (x : Exchange) :
    stop.after x =
      { client := { x.client with connection? := none }
        network := match x.client.connection? with
          | some c => if x.client.ownsConnection then x.network.note (.closed c) else x.network
          | none => x.network } := rfl

/-! ## What holds before and after a call -/

/-- A call leads from exchanges with one property to exchanges with another, whether it succeeds or not. -/
def Calls.Leads (P Q : Exchange → Prop) (m : Calls α) : Prop := ∀ x, P x → Q (m.after x)

/-- A property of exchanges holds after a call if it has held before. -/
abbrev Calls.Keeps (P : Exchange → Prop) (m : Calls α) : Prop := m.Leads P P

namespace Calls

lemma Leads.bind (hm : m.Leads P Q) (hf : ∀ a, (f a).Leads Q R) (hfail : ∀ x, Q x → R x) :
    (m >>= f).Leads P R := by
  intro x hx
  have hy := hm x hx
  unfold after at hy ⊢
  rw [exec_bind]
  cases hexec : m.exec x with
  | mk result y =>
    rw [hexec] at hy
    cases result with
    | error e => exact hfail y hy
    | ok a => exact hf a y hy

lemma Leads.mono (hm : m.Leads P Q) (h : ∀ x, Q x → R x) : m.Leads P R := fun x hx => h _ (hm x hx)

lemma Keeps.bind (hm : m.Keeps P) (hf : ∀ a, (f a).Keeps P) : (m >>= f).Keeps P :=
  Leads.bind hm hf fun _ h => h

lemma keeps_pure (a : α) : (pure a : Calls α).Keeps P := fun _ hx => hx

lemma keeps_throw (e : Fault) : (throw e : Calls α).Keeps P := fun _ hx => hx

lemma keeps_getThe : (getThe Exchange : Calls Exchange).Keeps P := fun _ hx => hx

lemma keeps_outcome (e : Except Fault α) : (outcome e).Keeps P := fun _ hx => hx

/-- What each step of an attempt keeps, all attempts keep. -/
lemma keeps_tryFrom_of_steps
    (hsend : ∀ address headers?, (send address headers?).Keeps P)
    (hrecord : ∀ l, (record l).Keeps P) {s : Settings} (hwait : ∀ k, (wait s k).Keeps P)
    (address shown : String) (headers? : Option (List (String × String))) (left attempt : Nat)
    (reason : String) : (tryFrom s address shown headers? left attempt reason).Keeps P := by
  induction left generalizing attempt reason with
  | zero => exact keeps_throw _
  | succ left ih =>
    rw [tryFrom]
    refine (hsend address headers?).bind fun reply => ?_
    cases reply.outcome with
    | ok answer => exact (hrecord _).bind fun _ => keeps_pure _
    | error reason =>
      refine (hrecord _).bind fun _ => ?_
      dsimp only
      split
      · exact (hwait attempt).bind fun _ => ih _ _
      · exact ih _ _

end Calls

end SourceBundle.Registry
