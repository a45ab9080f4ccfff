/-
# Laws that a routine obeys

A law says how a routine may change the state and what it may ask, as long as every state it finds
and every answer it gets is of a given kind.  That a routine obeys a law is read off its tree and
holds in every company; what its walks end with follows from it.
-/
import SourceBundle.Proofs.Routine.Walk
import Mathlib.Order.Defs.Unbundled

namespace SourceBundle

/-- A law for routines. -/
structure Law (σ Q : Type) (A : Q → Type) where
  /-- Which states a routine may find. -/
  state : σ → Prop
  /-- Which answers it may get. -/
  answer : (q : Q) → A q → Prop
  /-- How it may change the state. -/
  change : σ → σ → Prop
  /-- What it may ask. -/
  question : Q → Prop
  /-- What the routines that it starts may ask. -/
  helped : Q → Prop

/-- The law for the routines that a routine starts. -/
def Law.forHelpers {σ Q : Type} {A : Q → Type} (L : Law σ Q A) : Law σ Q A :=
  { L with question := L.helped }

namespace Routine

variable {σ Q : Type} {A : Q → Type} {α β : Type} {L L' : Law σ Q A} {T : Terms σ Q A}

/-- The routine, and all that it starts, obeys a law, and its result has a property. -/
def Obeys (L : Law σ Q A) {α : Type} : Routine σ Q A α → (α → Prop) → Prop
  | .done a, post => post a
  | .step change next, post =>
    ∀ s, L.state s → L.change s (change s) ∧ (next s).Obeys L post
  | .ask q next, post => L.question q ∧ ∀ a, L.answer q a → (next a).Obeys L post
  | .wait _ _ next, post => ∀ w, (next w).Obeys L post
  | .spawn child next, post =>
    child.Obeys L.forHelpers (fun _ => True) ∧ ∀ n, (next n).Obeys L post

/-- The routine obeys a law, whatever its result. -/
def Lawful (L : Law σ Q A) (x : Routine σ Q A α) : Prop := x.Obeys L fun _ => True

namespace Obeys

theorem bind {x : Routine σ Q A α} {f : α → Routine σ Q A β} {mid : α → Prop} {post : β → Prop}
    (hx : x.Obeys L mid) (hf : ∀ a, mid a → (f a).Obeys L post) : (x.bind f).Obeys L post := by
  induction x with
  | done a => exact hf a hx
  | step change next ih => exact fun s hs => ⟨(hx s hs).1, ih s (hx s hs).2 hf⟩
  | ask q next ih => exact ⟨hx.1, fun a ha => ih a (hx.2 a ha) hf⟩
  | wait turns until_ next ih => exact fun w => ih w (hx w) hf
  | spawn child next _ ih => exact ⟨hx.1, fun n => ih n (hx.2 n) hf⟩

theorem imp {x : Routine σ Q A α} {post post' : α → Prop} (h : x.Obeys L post)
    (hp : ∀ a, post a → post' a) : x.Obeys L post' := by
  have hdone : (x.bind done).Obeys L post' := h.bind hp
  rwa [bind_done] at hdone

theorem and {x : Routine σ Q A α} {post post' : α → Prop} (h : x.Obeys L post)
    (h' : x.Obeys L post') : x.Obeys L fun a => post a ∧ post' a := by
  induction x with
  | done a => exact ⟨h, h'⟩
  | step change next ih => exact fun s hs => ⟨(h s hs).1, ih s (h s hs).2 (h' s hs).2⟩
  | ask q next ih => exact ⟨h.1, fun a ha => ih a (h.2 a ha) (h'.2 a ha)⟩
  | wait turns until_ next ih => exact fun w => ih w (h w) (h' w)
  | spawn child next _ ih => exact ⟨h.1, fun n => ih n (h.2 n) (h'.2 n)⟩

/-- A law that forbids less is obeyed as well. -/
theorem relax {x : Routine σ Q A α} {post : α → Prop} (h : x.Obeys L post)
    (hs : ∀ s, L'.state s → L.state s) (ha : ∀ q a, L'.answer q a → L.answer q a)
    (hc : ∀ s t, L.change s t → L'.change s t) (hq : ∀ q, L.question q → L'.question q)
    (hh : ∀ q, L.helped q → L'.helped q) : x.Obeys L' post := by
  induction x generalizing L L' with
  | done a => exact h
  | step change next ih =>
    exact fun s hs' =>
      ⟨hc _ _ (h s (hs s hs')).1, ih s (h s (hs s hs')).2 hs ha hc hq hh⟩
  | ask q next ih => exact ⟨hq q h.1, fun a ha' => ih a (h.2 a (ha q a ha')) hs ha hc hq hh⟩
  | wait turns until_ next ih => exact fun w => ih w (h w) hs ha hc hq hh
  | spawn child next ihc ih =>
    exact ⟨ihc h.1 hs ha hc hh hh, fun n => ih n (h.2 n) hs ha hc hq hh⟩

end Obeys

namespace Lawful

theorem of_obeys {x : Routine σ Q A α} {post : α → Prop} (h : x.Obeys L post) : x.Lawful L :=
  h.imp fun _ _ => trivial

theorem done (a : α) : (Routine.done a : Routine σ Q A α).Lawful L := trivial

theorem bind {x : Routine σ Q A α} {f : α → Routine σ Q A β} (hx : x.Lawful L)
    (hf : ∀ a, (f a).Lawful L) : (x.bind f).Lawful L :=
  Obeys.bind hx fun a _ => hf a

theorem modify {f : σ → σ} (h : ∀ s, L.state s → L.change s (f s)) :
    (Routine.modify f : Routine σ Q A Unit).Lawful L :=
  fun s hs => ⟨h s hs, trivial⟩

theorem modifyGet {f : σ → α × σ} (h : ∀ s, L.state s → L.change s (f s).2) :
    (Routine.modifyGet f : Routine σ Q A α).Lawful L :=
  fun s hs => ⟨h s hs, trivial⟩

theorem gets {f : σ → α} (h : ∀ s, L.state s → L.change s s) :
    (Routine.gets f : Routine σ Q A α).Lawful L :=
  fun s hs => ⟨h s hs, trivial⟩

theorem put {q : Q} (h : L.question q) : (Routine.put q : Routine σ Q A (A q)).Lawful L :=
  ⟨h, fun _ _ => trivial⟩

theorem await (turns : Nat) (until_ : σ → Bool) :
    (Routine.await turns until_ : Routine σ Q A Wake).Lawful L :=
  fun _ => trivial

theorem start {child : Routine σ Q A Unit} (h : child.Lawful L.forHelpers) :
    (Routine.start child : Routine σ Q A Nat).Lawful L :=
  ⟨h, fun _ => trivial⟩

end Lawful

end Routine

/-! ## What follows for the walks -/

/-- On these terms a routine finds only states and answers for which the law is made. -/
structure Terms.Meet {σ Q : Type} {A : Q → Type} (T : Terms σ Q A) (L : Law σ Q A) : Prop where
  own : ∀ s t, L.state s → T.own s t → L.state t
  others : ∀ s t, L.state s → T.others s t → L.state t
  answer : ∀ q a, T.answer q a → L.answer q a

namespace Routine.Obeys

variable {σ Q : Type} {A : Q → Type} {α : Type} {L : Law σ Q A} {T : Terms σ Q A}

/-- A walk through a routine that obeys a law ends with a result as promised. -/
theorem ends {x : Routine σ Q A α} {post : α → Prop} {s t : σ} {a : α} (h : x.Obeys L post)
    (hT : T.Meet L) (hs : L.state s) (hx : x.Ends T s a t) : post a ∧ L.state t := by
  induction x generalizing s with
  | done b =>
    obtain ⟨rfl, rfl⟩ := hx
    exact ⟨h, hs⟩
  | step change next ih => exact ih s (h s hs).2 (hT.own _ _ hs hx.1) hx.2
  | ask q next ih =>
    obtain ⟨b, s', hb, hs', hx⟩ := hx
    exact ih b (h.2 b (hT.answer q b hb)) (hT.others _ _ hs hs') hx
  | wait turns until_ next ih =>
    obtain ⟨w, s', hs', -, hx⟩ := hx
    exact ih w (h w) (hT.others _ _ hs hs') hx
  | spawn child next _ ih =>
    obtain ⟨n, -, hx⟩ := hx
    exact ih n (h.2 n) hs hx

/-- The questions put on a walk through a routine that obeys a law are among those that the law
allows. -/
theorem puts {x : Routine σ Q A α} {post : α → Prop} {s t : σ} {q : Q} (h : x.Obeys L post)
    (hT : T.Meet L) (hs : L.state s) (hx : x.Puts T s q t) : L.question q ∧ L.state t := by
  induction x generalizing s with
  | done b => exact hx.elim
  | step change next ih => exact ih s (h s hs).2 (hT.own _ _ hs hx.1) hx.2
  | ask p next ih =>
    rcases hx with ⟨rfl, rfl⟩ | ⟨b, s', hb, hs', hx⟩
    · exact ⟨h.1, hs⟩
    · exact ih b (h.2 b (hT.answer p b hb)) (hT.others _ _ hs hs') hx
  | wait turns until_ next ih =>
    obtain ⟨w, s', hs', -, hx⟩ := hx
    exact ih w (h w) (hT.others _ _ hs hs') hx
  | spawn child next _ ih =>
    obtain ⟨n, -, hx⟩ := hx
    exact ih n (h.2 n) hs hx

/-- What the changes of the law and those of the others have in common holds between the beginning
and the end of a walk. -/
theorem related {x : Routine σ Q A α} {post : α → Prop} {s t : σ} {a : α} {R : σ → σ → Prop}
    [IsPreorder σ R] (h : x.Obeys L post) (hT : T.Meet L) (hs : L.state s)
    (hc : ∀ s t, L.change s t → R s t) (ho : ∀ s t, T.others s t → R s t)
    (hx : x.Ends T s a t) : R s t := by
  induction x generalizing s with
  | done b =>
    obtain ⟨rfl, rfl⟩ := hx
    exact Std.Refl.refl s
  | step change next ih =>
    exact IsTrans.trans _ _ _ (hc _ _ (h s hs).1) (ih s (h s hs).2 (hT.own _ _ hs hx.1) hx.2)
  | ask q next ih =>
    obtain ⟨b, s', hb, hs', hx⟩ := hx
    exact IsTrans.trans _ _ _ (ho _ _ hs') (ih b (h.2 b (hT.answer q b hb)) (hT.others _ _ hs hs') hx)
  | wait turns until_ next ih =>
    obtain ⟨w, s', hs', -, hx⟩ := hx
    exact IsTrans.trans _ _ _ (ho _ _ hs') (ih w (h w) (hT.others _ _ hs hs') hx)
  | spawn child next _ ih =>
    obtain ⟨n, -, hx⟩ := hx
    exact ih n (h.2 n) hs hx

end Routine.Obeys

end SourceBundle
