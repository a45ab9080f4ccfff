/-
# Routines that fail and keep notes

The laws and the walks of routines that may fail, and of those that also have a private state.  A
failure ends them at once, and what it leaves of the private state is kept.
-/
import SourceBundle.Proofs.Routine.Law

namespace SourceBundle

variable {σ Q : Type} {A : Q → Type} {ε ρ τ α β : Type} {L : Law σ Q A} {T : Terms σ Q A}

/-! ## Routines that may fail -/

namespace Attempt

/-- The attempt obeys a law. -/
def Lawful (L : Law σ Q A) (x : Attempt σ Q A ε α) : Prop := x.run.Lawful L

/-- The attempt, begun in a state, can end with a result and leave another state. -/
def Ends (T : Terms σ Q A) (x : Attempt σ Q A ε α) (s : σ) (r : Except ε α) (t : σ) : Prop :=
  x.run.Ends T s r t

/-- The attempt, begun in a state, can come to put a question in another state. -/
def Puts (T : Terms σ Q A) (x : Attempt σ Q A ε α) (s : σ) (q : Q) (t : σ) : Prop :=
  x.run.Puts T s q t

namespace Lawful

theorem pure (a : α) : Attempt.Lawful L (Pure.pure a : Attempt σ Q A ε α) := trivial

theorem throw (e : ε) : Attempt.Lawful L (MonadExcept.throw e : Attempt σ Q A ε α) := trivial

theorem mk {x : Routine σ Q A (Except ε α)} (h : x.Lawful L) :
    Attempt.Lawful L (ExceptT.mk x : Attempt σ Q A ε α) := h

theorem bind {x : Attempt σ Q A ε α} {f : α → Attempt σ Q A ε β} (hx : Attempt.Lawful L x)
    (hf : ∀ a, Attempt.Lawful L (f a)) : Attempt.Lawful L (x >>= f) := by
  refine Routine.Lawful.bind hx fun r => ?_
  cases r with
  | ok a => exact hf a
  | error e => trivial

theorem tryCatch {x : Attempt σ Q A ε α} {h : ε → Attempt σ Q A ε α} (hx : Attempt.Lawful L x)
    (hh : ∀ e, Attempt.Lawful L (h e)) : Attempt.Lawful L (MonadExcept.tryCatch x h) := by
  refine Routine.Lawful.bind hx fun r => ?_
  cases r with
  | ok a => trivial
  | error e => exact hh e

theorem forM {f : β → Attempt σ Q A ε PUnit} (hf : ∀ b, Attempt.Lawful L (f b)) (bs : List β) :
    Attempt.Lawful L (bs.forM f) := by
  induction bs with
  | nil => exact pure _
  | cons b bs ih => exact bind (hf b) fun _ => ih

end Lawful

/-- The attempt obeys a law, and something holds of its result if it does not fail. -/
def Yields (L : Law σ Q A) (x : Attempt σ Q A ε α) (post : α → Prop) : Prop :=
  x.run.Obeys L fun r => ∀ a, r = .ok a → post a

namespace Yields

variable {x : Attempt σ Q A ε α} {mid : α → Prop} {post : β → Prop}

theorem pure {b : β} (h : post b) : Attempt.Yields L (Pure.pure b : Attempt σ Q A ε β) post := by
  rintro _ ⟨⟩
  exact h

theorem throw (e : ε) : Attempt.Yields L (MonadExcept.throw e : Attempt σ Q A ε β) post := nofun

theorem of_lawful (h : Attempt.Lawful L x) : Attempt.Yields L x fun _ => True :=
  h.imp fun _ _ _ _ => trivial

theorem bind {f : α → Attempt σ Q A ε β} (hx : Attempt.Yields L x mid)
    (hf : ∀ a, mid a → Attempt.Yields L (f a) post) : Attempt.Yields L (x >>= f) post := by
  refine Routine.Obeys.bind hx fun r hr => ?_
  cases r with
  | ok a => exact hf a (hr a rfl)
  | error e => exact nofun

theorem forM {f : α → Attempt σ Q A ε PUnit} {as : List α}
    (hf : ∀ a ∈ as, Attempt.Yields L (f a) fun _ => True) : Attempt.Yields L (as.forM f) fun _ => True := by
  induction as with
  | nil => exact pure trivial
  | cons a as ih =>
    exact (hf a List.mem_cons_self).bind fun _ _ => ih fun b hb => hf b (List.mem_cons_of_mem a hb)

theorem tryCatch {x : Attempt σ Q A ε β} {h : ε → Attempt σ Q A ε β} (hx : Attempt.Yields L x post)
    (hh : ∀ e, Attempt.Yields L (h e) post) : Attempt.Yields L (MonadExcept.tryCatch x h) post := by
  refine Routine.Obeys.bind hx fun r hr => ?_
  cases r with
  | ok b => exact hr
  | error e => exact hh e

end Yields

@[simp] lemma ends_pure {a : α} {s t : σ} {r : Except ε α} :
    Ends T (pure a : Attempt σ Q A ε α) s r t ↔ .ok a = r ∧ s = t := Iff.rfl

@[simp] lemma ends_throw {e : ε} {s t : σ} {r : Except ε α} :
    Ends T (throw e : Attempt σ Q A ε α) s r t ↔ .error e = r ∧ s = t := Iff.rfl

lemma not_ends_throw {e : ε} {a : α} {s t : σ} :
    ¬ Ends T (throw e : Attempt σ Q A ε α) s (.ok a) t := by
  simp

@[simp] lemma puts_pure {a : α} {s t : σ} {q : Q} :
    ¬ Puts T (pure a : Attempt σ Q A ε α) s q t := id

@[simp] lemma puts_throw {e : ε} {s t : σ} {q : Q} :
    ¬ Puts T (throw e : Attempt σ Q A ε α) s q t := id

lemma run_bind (x : Attempt σ Q A ε α) (f : α → Attempt σ Q A ε β) :
    (x >>= f).run = x.run.bind fun r => match r with
      | .ok a => (f a).run
      | .error e => .done (.error e) := rfl

theorem ends_bind {x : Attempt σ Q A ε α} {f : α → Attempt σ Q A ε β} {s t : σ}
    {r : Except ε β} :
    Ends T (x >>= f) s r t ↔ (∃ e, Ends T x s (.error e) t ∧ .error e = r) ∨
      ∃ a s', Ends T x s (.ok a) s' ∧ Ends T (f a) s' r t := by
  unfold Ends
  rw [run_bind, Routine.ends_bind]
  constructor
  · rintro ⟨r' | a, s', hx, h⟩
    · obtain ⟨rfl, rfl⟩ := h
      exact Or.inl ⟨r', hx, rfl⟩
    · exact Or.inr ⟨a, s', hx, h⟩
  · rintro (⟨e, hx, rfl⟩ | ⟨a, s', hx, h⟩)
    · exact ⟨.error e, t, hx, rfl, rfl⟩
    · exact ⟨.ok a, s', hx, h⟩

theorem ends_bind_ok {x : Attempt σ Q A ε α} {f : α → Attempt σ Q A ε β} {s t : σ} {b : β} :
    Ends T (x >>= f) s (.ok b) t ↔
      ∃ a s', Ends T x s (.ok a) s' ∧ Ends T (f a) s' (.ok b) t := by
  simp [ends_bind]

/-- After the success of a first attempt a walk goes on with the second. -/
theorem leads_bind {x : Attempt σ Q A ε α} {f : α → Attempt σ Q A ε β} {s t u : σ} {a : α}
    {y : Routine σ Q A (Except ε β)} (hx : Ends T x s (.ok a) t) (hf : (f a).run.Leads T t y u) :
    (x >>= f).run.Leads T s y u := by
  rw [run_bind]
  exact Routine.Leads.bind_of_ends hx hf

/-- A walk that comes to the last question of a first attempt goes on with the second when that is
answered. -/
theorem leads_bind_ask {x : Attempt σ Q A ε α} (f : α → Attempt σ Q A ε β) {s t : σ} {q : Q}
    {next : A q → Routine σ Q A (Except ε α)} {a : A q} {b : α}
    (hx : x.run.Leads T s (.ask q next) t) (hnext : next a = .done (.ok b)) :
    ∃ next', (x >>= f).run.Leads T s (.ask q next') t ∧ next' a = (f b).run := by
  rw [run_bind]
  refine ⟨_, hx.bind _, ?_⟩
  show (next a).bind _ = _
  rw [hnext]
  rfl

theorem puts_bind {x : Attempt σ Q A ε α} {f : α → Attempt σ Q A ε β} {s t : σ} {q : Q} :
    Puts T (x >>= f) s q t ↔ Puts T x s q t ∨
      ∃ a s', Ends T x s (.ok a) s' ∧ Puts T (f a) s' q t := by
  unfold Puts Ends
  rw [run_bind, Routine.puts_bind]
  refine or_congr_right ⟨?_, ?_⟩
  · rintro ⟨r' | a, s', hx, h⟩
    · exact h.elim
    · exact ⟨a, s', hx, h⟩
  · rintro ⟨a, s', hx, h⟩
    exact ⟨.ok a, s', hx, h⟩

end Attempt

/-! ## Routines with a private state -/

namespace Run

/-- The run obeys a law, and its private state at the beginning, its result and its private state
at the end are related as given. -/
def Obeys (L : Law σ Q A) (x : Run σ Q A ε ρ α) (post : ρ → Except ε α → ρ → Prop) : Prop :=
  ∀ t, (x.run t).Obeys L fun p => post t p.1 p.2

/-- The run obeys a law, and its private states at the beginning and at the end are related as
given, whatever its result. -/
def Keeps (L : Law σ Q A) (I : ρ → ρ → Prop) (x : Run σ Q A ε ρ α) : Prop :=
  Obeys L x fun t _ t' => I t t'

/-- The run, begun with a private state in a state, can end with a result and leave other ones. -/
def Ends (T : Terms σ Q A) (x : Run σ Q A ε ρ α) (t : ρ) (s : σ) (r : Except ε α) (t' : ρ)
    (s' : σ) : Prop :=
  (x.run t).Ends T s (r, t') s'

lemma run_bind (x : Run σ Q A ε ρ α) (f : α → Run σ Q A ε ρ β) (t : ρ) :
    (x >>= f).run t = (x.run t).bind fun p => match p.1 with
      | .ok a => (f a).run p.2
      | .error e => .done (.error e, p.2) := by
  show (x.run t).bind _ = _
  congr 1
  funext ⟨r, u⟩
  cases r <;> rfl

lemma run_tryCatch (x : Run σ Q A ε ρ α) (h : ε → Run σ Q A ε ρ α) (t : ρ) :
    (tryCatch x h).run t = (x.run t).bind fun p => match p.1 with
      | .ok a => .done (.ok a, p.2)
      | .error e => (h e).run p.2 := by
  show (x.run t).bind _ = _
  congr 1
  funext ⟨r, u⟩
  cases r <;> rfl

namespace Obeys

variable {x : Run σ Q A ε ρ α} {post post' : ρ → Except ε α → ρ → Prop}

theorem imp (h : Obeys L x post) (hp : ∀ t r t', post t r t' → post' t r t') : Obeys L x post' :=
  fun t => (h t).imp fun _ => hp t _ _

theorem and (h : Obeys L x post) (h' : Obeys L x post') :
    Obeys L x fun t r t' => post t r t' ∧ post' t r t' :=
  fun t => (h t).and (h' t)

/-- Of two runs in a row, either the first fails, or the second follows on its result. -/
theorem bind {f : α → Run σ Q A ε ρ β} {postf : α → ρ → Except ε β → ρ → Prop}
    {postb : ρ → Except ε β → ρ → Prop} (hx : Obeys L x post) (hf : ∀ a, Obeys L (f a) (postf a))
    (herr : ∀ t e t', post t (.error e) t' → postb t (.error e) t')
    (hok : ∀ t a u r t', post t (.ok a) u → postf a u r t' → postb t r t') :
    Obeys L (x >>= f) postb := by
  intro t
  rw [run_bind]
  refine Routine.Obeys.bind (hx t) ?_
  rintro ⟨r | a, u⟩ h
  · exact herr t r u h
  · exact (hf a u).imp fun p hp => hok t a u p.1 p.2 h hp

end Obeys

namespace Keeps

variable {I : ρ → ρ → Prop} {x : Run σ Q A ε ρ α}

theorem of_obeys {post : ρ → Except ε α → ρ → Prop} (h : Obeys L x post)
    (hp : ∀ t r t', post t r t' → I t t') : Keeps L I x := Obeys.imp h hp

theorem modify {f : ρ → ρ} (h : ∀ t, I t (f t)) :
    Keeps L I (modifyThe ρ f : Run σ Q A ε ρ PUnit) := fun t => h t

theorem lift {x : Attempt σ Q A ε α} (h : ∀ t, I t t) (hx : Attempt.Lawful L x) :
    Keeps L I (Run.lift x : Run σ Q A ε ρ α) :=
  fun t => Routine.Obeys.bind hx fun _ _ => h t

theorem zoom {J : τ → τ → Prop} {view : ρ → τ} {set : τ → ρ → ρ} {x : Run σ Q A ε τ α}
    (hx : Keeps L J x) (h : ∀ t u, J (view t) u → I t (set u t)) :
    Keeps L I (Run.zoom view set x) :=
  fun t => Routine.Obeys.bind (hx (view t)) fun p hp => h t p.2 hp

variable [IsPreorder ρ I]

theorem pure (a : α) : Keeps L I (Pure.pure a : Run σ Q A ε ρ α) := fun t => refl_of I t

theorem throw (e : ε) : Keeps L I (MonadExcept.throw e : Run σ Q A ε ρ α) := fun t => refl_of I t

theorem get : Keeps L I (getThe ρ : Run σ Q A ε ρ ρ) := fun t => refl_of I t

theorem bind {f : α → Run σ Q A ε ρ β} (hx : Keeps L I x) (hf : ∀ a, Keeps L I (f a)) :
    Keeps L I (x >>= f) :=
  Obeys.bind hx hf (fun _ _ _ h => h) fun _ _ _ _ _ h h' => trans_of I h h'

theorem tryCatch {h : ε → Run σ Q A ε ρ α} (hx : Keeps L I x) (hh : ∀ e, Keeps L I (h e)) :
    Keeps L I (MonadExcept.tryCatch x h) := by
  intro t
  rw [run_tryCatch]
  refine Routine.Obeys.bind (hx t) ?_
  rintro ⟨r | a, u⟩ hu
  · exact (hh r u).imp fun p hp => trans_of I hu hp
  · exact hu

theorem forM {f : β → Run σ Q A ε ρ PUnit} (hf : ∀ b, Keeps L I (f b)) (bs : List β) :
    Keeps L I (bs.forM f) := by
  induction bs with
  | nil => exact pure _
  | cons b bs ih => exact bind (hf b) fun _ => ih

end Keeps

/-- A walk through a run that obeys a law ends as promised. -/
theorem Obeys.ends {x : Run σ Q A ε ρ α} {post : ρ → Except ε α → ρ → Prop} {t t' : ρ} {s s' : σ}
    {r : Except ε α} (h : Obeys L x post) (hT : T.Meet L) (hs : L.state s)
    (hx : Ends T x t s r t' s') : post t r t' ∧ L.state s' := by
  have h' := (h t).ends hT hs hx
  exact h'

/-- The run obeys a law, and something holds of its result if it does not fail. -/
def Yields (L : Law σ Q A) (x : Run σ Q A ε ρ α) (post : α → Prop) : Prop :=
  Obeys L x fun _ r _ => ∀ a, r = .ok a → post a

namespace Yields

variable {x : Run σ Q A ε ρ α} {mid : α → Prop} {post : β → Prop}

theorem pure {b : β} (h : post b) : Yields L (Pure.pure b : Run σ Q A ε ρ β) post := by
  rintro t _ ⟨⟩
  exact h

theorem throw (e : ε) : Yields L (MonadExcept.throw e : Run σ Q A ε ρ β) post := fun _ => nofun

theorem get : Yields L (getThe ρ : Run σ Q A ε ρ ρ) fun _ => True := fun _ _ _ => trivial

theorem modify (f : ρ → ρ) : Yields L (modifyThe ρ f : Run σ Q A ε ρ PUnit) fun _ => True :=
  fun _ _ _ => trivial

theorem lift {x : Attempt σ Q A ε β} (h : Attempt.Yields L x post) :
    Yields L (Run.lift x : Run σ Q A ε ρ β) post :=
  fun _ => Routine.Obeys.bind h fun _ hr => hr

theorem zoom {view : ρ → τ} {set : τ → ρ → ρ} {x : Run σ Q A ε τ β} (h : Yields L x post) :
    Yields L (Run.zoom view set x) post :=
  fun t => Routine.Obeys.bind (h (view t)) fun _ hp => hp

theorem bind {f : α → Run σ Q A ε ρ β} (hx : Yields L x mid)
    (hf : ∀ a, mid a → Yields L (f a) post) : Yields L (x >>= f) post := by
  intro t
  rw [run_bind]
  refine Routine.Obeys.bind (hx t) ?_
  rintro ⟨e | a, u⟩ h
  · exact nofun
  · exact hf a (h a rfl) u

theorem forM {f : α → Run σ Q A ε ρ PUnit} {as : List α} (hf : ∀ a ∈ as, Yields L (f a) fun _ => True) :
    Yields L (as.forM f) fun _ => True := by
  induction as with
  | nil => exact pure trivial
  | cons a as ih =>
    exact (hf a List.mem_cons_self).bind fun _ _ => ih fun b hb => hf b (List.mem_cons_of_mem a hb)

/-- What a walk yields has the property. -/
theorem ends {x : Run σ Q A ε ρ β} {b : β} {t t' : ρ} {s s' : σ} (h : Yields L x post)
    (hT : T.Meet L) (hs : L.state s) (hx : Ends T x t s (.ok b) t' s') : post b :=
  (Obeys.ends h hT hs hx).1 b rfl

end Yields

lemma ends_pure {a : α} {t t' : ρ} {s s' : σ} {r : Except ε α} :
    Ends T (pure a : Run σ Q A ε ρ α) t s r t' s' ↔ r = .ok a ∧ t' = t ∧ s' = s := by
  constructor
  · rintro ⟨⟨⟩, rfl⟩
    exact ⟨rfl, rfl, rfl⟩
  · rintro ⟨rfl, rfl, rfl⟩
    exact ⟨rfl, rfl⟩

lemma ends_throw {e : ε} {t t' : ρ} {s s' : σ} {r : Except ε α} :
    Ends T (throw e : Run σ Q A ε ρ α) t s r t' s' ↔ r = .error e ∧ t' = t ∧ s' = s := by
  constructor
  · rintro ⟨⟨⟩, rfl⟩
    exact ⟨rfl, rfl, rfl⟩
  · rintro ⟨rfl, rfl, rfl⟩
    exact ⟨rfl, rfl⟩

lemma not_ends_throw {e : ε} {a : α} {t t' : ρ} {s s' : σ} :
    ¬ Ends T (throw e : Run σ Q A ε ρ α) t s (.ok a) t' s' := by
  simp [ends_throw]

lemma ends_get {t t' : ρ} {s s' : σ} {r : Except ε ρ} :
    Ends T (getThe ρ : Run σ Q A ε ρ ρ) t s r t' s' ↔ r = .ok t ∧ t' = t ∧ s' = s :=
  ends_pure

lemma ends_modify {f : ρ → ρ} {t t' : ρ} {s s' : σ} {r : Except ε PUnit} :
    Ends T (modifyThe ρ f : Run σ Q A ε ρ PUnit) t s r t' s' ↔
      r = .ok ⟨⟩ ∧ t' = f t ∧ s' = s := by
  constructor
  · rintro ⟨⟨⟩, rfl⟩
    exact ⟨rfl, rfl, rfl⟩
  · rintro ⟨rfl, rfl, rfl⟩
    exact ⟨rfl, rfl⟩

theorem ends_bind {x : Run σ Q A ε ρ α} {f : α → Run σ Q A ε ρ β} {t t' : ρ} {s s' : σ}
    {r : Except ε β} :
    Ends T (x >>= f) t s r t' s' ↔ (∃ e, Ends T x t s (.error e) t' s' ∧ .error e = r) ∨
      ∃ a u v, Ends T x t s (.ok a) u v ∧ Ends T (f a) u v r t' s' := by
  unfold Ends
  rw [run_bind, Routine.ends_bind]
  constructor
  · rintro ⟨⟨e | a, u⟩, v, hx, h⟩
    · obtain ⟨h, rfl⟩ := h
      obtain ⟨rfl, rfl⟩ := Prod.mk.inj h
      exact Or.inl ⟨e, hx, rfl⟩
    · exact Or.inr ⟨a, u, v, hx, h⟩
  · rintro (⟨e, hx, rfl⟩ | ⟨a, u, v, hx, h⟩)
    · exact ⟨(.error e, t'), s', hx, rfl, rfl⟩
    · exact ⟨(.ok a, u), v, hx, h⟩

theorem ends_bind_ok {x : Run σ Q A ε ρ α} {f : α → Run σ Q A ε ρ β} {t t' : ρ} {s s' : σ}
    {b : β} :
    Ends T (x >>= f) t s (.ok b) t' s' ↔
      ∃ a u v, Ends T x t s (.ok a) u v ∧ Ends T (f a) u v (.ok b) t' s' := by
  simp [ends_bind]

/-- A walk through an attempt that is part of a run leaves the private state as it is. -/
theorem ends_lift {x : Attempt σ Q A ε α} {t t' : ρ} {s s' : σ} {r : Except ε α} :
    Ends T (lift x : Run σ Q A ε ρ α) t s r t' s' ↔ Attempt.Ends T x s r s' ∧ t = t' := by
  unfold Ends
  show ((x.run).bind fun r => .done (r, t)).Ends T s (r, t') s' ↔ _
  rw [Routine.ends_bind]
  constructor
  · rintro ⟨r', v, hx, h, rfl⟩
    obtain ⟨rfl, rfl⟩ := Prod.mk.inj h
    exact ⟨hx, rfl⟩
  · rintro ⟨hx, rfl⟩
    exact ⟨r, s', hx, rfl, rfl⟩

/-- A walk through a run on a part of the private state leaves the rest as it is. -/
theorem ends_zoom {view : ρ → τ} {set : τ → ρ → ρ} {x : Run σ Q A ε τ α} {t t' : ρ} {s s' : σ}
    {r : Except ε α} :
    Ends T (zoom view set x) t s r t' s' ↔ ∃ u, Ends T x (view t) s r u s' ∧ t' = set u t := by
  unfold Ends
  show ((x.run (view t)).bind fun p => .done (p.1, set p.2 t)).Ends T s (r, t') s' ↔ _
  rw [Routine.ends_bind]
  constructor
  · rintro ⟨⟨r', u⟩, v, hx, h, rfl⟩
    obtain ⟨rfl, rfl⟩ := Prod.mk.inj h
    exact ⟨u, hx, rfl⟩
  · rintro ⟨u, hx, rfl⟩
    exact ⟨(r, u), s', hx, rfl, rfl⟩

/-- A walk through a run for every element of a list comes through the one for a given element. -/
theorem ends_forM_mem {f : β → Run σ Q A ε ρ PUnit} {bs : List β} {b : β} {t t' : ρ} {s s' : σ}
    {a : PUnit} (hb : b ∈ bs) (h : Ends T (bs.forM f) t s (.ok a) t' s') :
    ∃ front back u v w x, bs = front ++ b :: back ∧ Ends T (front.forM f) t s (.ok ⟨⟩) u v ∧
      Ends T (f b) u v (.ok ⟨⟩) w x ∧ Ends T (back.forM f) w x (.ok a) t' s' := by
  induction bs generalizing t s with
  | nil => exact nomatch hb
  | cons c cs ih =>
    obtain ⟨_, u, v, hc, hcs⟩ := ends_bind_ok.mp h
    rcases List.mem_cons.mp hb with rfl | hb
    · exact ⟨[], cs, t, s, u, v, rfl, ends_pure.mpr ⟨rfl, rfl, rfl⟩, hc, hcs⟩
    · obtain ⟨front, back, t₁, s₁, w, x, rfl, hf, hb, hback⟩ := ih hb hcs
      exact ⟨c :: front, back, t₁, s₁, w, x, rfl, ends_bind_ok.mpr ⟨_, u, v, hc, hf⟩, hb, hback⟩

end Run

end SourceBundle
