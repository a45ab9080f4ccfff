/-
# Routines alone

To run a routine alone, with a fixed answer to every question, computes one of its walks; and so
does to run it with the aid of others who do one fixed thing whenever it waits.  Such runs show that
a statement on walks is not empty.
-/
import SourceBundle.Proofs.Routine.Law

namespace SourceBundle.Routine

variable {σ Q : Type} {A : Q → Type} {α : Type} {L : Law σ Q A} {T : Terms σ Q A}

/-- The result and the state that a routine alone ends with.  Nothing comes of it if it starts
another routine or waits for something that has not come about. -/
def alone (reply : (q : Q) → A q) {α : Type} : Routine σ Q A α → σ → Option (α × σ)
  | .done a, s => some (a, s)
  | .step change next, s => (next s).alone reply (change s)
  | .ask q next, s => (next (reply q)).alone reply s
  | .wait _ until_ next, s => if until_ s then (next .ready).alone reply s else none
  | .spawn _ _, _ => none

/-- A routine that goes on with the result of another one ends as the second one does from there. -/
lemma alone_bind {β : Type} {reply : (q : Q) → A q} {x : Routine σ Q A α} {f : α → Routine σ Q A β}
    {s t : σ} {a : α} (h : x.alone reply s = some (a, t)) :
    (x.bind f).alone reply s = (f a).alone reply t := by
  induction x generalizing s with
  | done b =>
    obtain ⟨rfl, rfl⟩ := Prod.mk.inj (Option.some.inj h)
    rfl
  | step change next ih => exact ih s h
  | ask q next ih => exact ih (reply q) h
  | wait turns until_ next ih =>
    simp only [bind, alone] at h ⊢
    split at h
    · next hu =>
      rw [if_pos hu]
      exact ih .ready h
    · cases h
  | spawn child next _ _ => cases h

/-- What a lawful routine does alone is a walk on all terms under which it may do what the law
allows, the others may do nothing, and the answers may be as they are. -/
theorem ends_of_alone {reply : (q : Q) → A q} {x : Routine σ Q A α} {post : α → Prop} {s t : σ}
    {a : α} (hx : x.Obeys L post) (hT : T.Meet L)
    (hown : ∀ s t, L.state s → L.change s t → T.own s t) (hrefl : ∀ s, L.state s → T.others s s)
    (hreply : ∀ q, T.answer q (reply q)) (hs : L.state s) (h : x.alone reply s = some (a, t)) :
    x.Ends T s a t := by
  induction x generalizing s with
  | done b =>
    obtain ⟨rfl, rfl⟩ := Prod.mk.inj (Option.some.inj h)
    exact ⟨rfl, rfl⟩
  | step change next ih =>
    have hc := hown _ _ hs (hx s hs).1
    exact ⟨hc, ih s (hx s hs).2 (hT.own _ _ hs hc) h⟩
  | ask q next ih =>
    exact ⟨reply q, s, hreply q, hrefl s hs, ih _ (hx.2 _ (hT.answer q _ (hreply q))) hs h⟩
  | wait turns until_ next ih =>
    rw [alone] at h
    split at h
    · next hu => exact ⟨.ready, s, hrefl s hs, fun _ => hu, ih _ (hx _) hs h⟩
    · exact nomatch h
  | spawn child next _ _ => exact nomatch h

/-- The result and the state that a routine ends with while the others do one fixed thing whenever
it waits.  What it starts is left to them. -/
def aided (reply : (q : Q) → A q) (aid : σ → σ) {α : Type} : Routine σ Q A α → σ → Option (α × σ)
  | .done a, s => some (a, s)
  | .step change next, s => (next s).aided reply aid (change s)
  | .ask q next, s => (next (reply q)).aided reply aid s
  | .wait _ until_ next, s =>
    if until_ (aid s) then (next .ready).aided reply aid (aid s) else none
  | .spawn _ next, s => (next 0).aided reply aid s

/-- What a lawful routine does with the aid of others is a walk on all terms under which it may do
what the law allows, the others may do nothing or what they do, and the answers may be as they
are. -/
theorem ends_of_aided {reply : (q : Q) → A q} {aid : σ → σ} {x : Routine σ Q A α}
    {post : α → Prop} {s t : σ} {a : α} (hx : x.Obeys L post) (hT : T.Meet L)
    (hown : ∀ s t, L.state s → L.change s t → T.own s t) (hrefl : ∀ s, L.state s → T.others s s)
    (haid : ∀ s, L.state s → T.others s (aid s)) (hreply : ∀ q, T.answer q (reply q))
    (hnumber : T.number 0) (hs : L.state s) (h : x.aided reply aid s = some (a, t)) :
    x.Ends T s a t := by
  induction x generalizing s with
  | done b =>
    obtain ⟨rfl, rfl⟩ := Prod.mk.inj (Option.some.inj h)
    exact ⟨rfl, rfl⟩
  | step change next ih =>
    have hc := hown _ _ hs (hx s hs).1
    exact ⟨hc, ih s (hx s hs).2 (hT.own _ _ hs hc) h⟩
  | ask q next ih =>
    exact ⟨reply q, s, hreply q, hrefl s hs, ih _ (hx.2 _ (hT.answer q _ (hreply q))) hs h⟩
  | wait turns until_ next ih =>
    obtain ⟨hu, h⟩ := Option.ite_none_right_eq_some.mp h
    have hs' := hT.others _ _ hs (haid s hs)
    exact ⟨.ready, aid s, haid s hs, fun _ => hu, ih _ (hx _) hs' h⟩
  | spawn child next _ ih => exact ⟨0, hnumber, ih 0 (hx.2 0) hs h⟩

end SourceBundle.Routine
