/-
# Conversations

The questions that a routine puts on a walk, each with the answer that it gets, are the conversation
of the walk.  What is said by two routines in a row is what the first says and then what the
second says.  What every walk says and comes to, under given answers and whatever others do, is read
off the tree of the routine.
-/
import SourceBundle.Proofs.Routine.Layers

namespace SourceBundle

/-- Questions with their answers, in the order in which they were put. -/
abbrev Talk (Q : Type) (A : Q → Type) := List (Sigma A)

/-- The terms on which nothing matters but the answers. -/
def Terms.answering {σ Q : Type} {A : Q → Type} (ans : (q : Q) → A q → Prop) : Terms σ Q A where
  own _ _ := True
  others _ _ := True
  answer := ans
  number _ := True

namespace Routine

variable {σ Q : Type} {A : Q → Type} {α β : Type} {T : Terms σ Q A} {ans : (q : Q) → A q → Prop}

/-- The routine, begun in a state, can lead a conversation, end with a result and leave another
state. -/
def Converses (T : Terms σ Q A) {α : Type} : Routine σ Q A α → σ → Talk Q A → α → σ → Prop
  | .done a, s, talk, b, t => talk = [] ∧ a = b ∧ s = t
  | .step change next, s, talk, b, t =>
    T.own s (change s) ∧ (next s).Converses T (change s) talk b t
  | .ask q next, s, talk, b, t =>
    ∃ a rest s', talk = ⟨q, a⟩ :: rest ∧ T.answer q a ∧ T.others s s' ∧
      (next a).Converses T s' rest b t
  | .wait _ until_ next, s, talk, b, t =>
    ∃ w s', T.others s s' ∧ (w = .ready → until_ s' = true) ∧ (next w).Converses T s' talk b t
  | .spawn _ next, s, talk, b, t => ∃ n, T.number n ∧ (next n).Converses T s talk b t

/-- Every walk leads a conversation. -/
theorem ends_iff_converses {x : Routine σ Q A α} {s t : σ} {b : α} :
    x.Ends T s b t ↔ ∃ talk, x.Converses T s talk b t := by
  induction x generalizing s with
  | done a => simp [Ends, Converses]
  | step change next ih => simp [Ends, Converses, ih]
  | ask q next ih =>
    simp only [Ends, Converses, ih]
    constructor
    · rintro ⟨a, s', ha, ho, talk, h⟩
      exact ⟨_, a, talk, s', rfl, ha, ho, h⟩
    · rintro ⟨_, a, talk, s', rfl, ha, ho, h⟩
      exact ⟨a, s', ha, ho, talk, h⟩
  | wait turns until_ next ih => simp [Ends, Converses, ih]; grind
  | spawn child next _ ih => simp [Ends, Converses, ih]; grind

/-- Where every question has an answer, a routine comes to an end. -/
theorem exists_converses (hans : ∀ q, ∃ a, ans q a) (x : Routine σ Q A α) (s : σ) :
    ∃ talk b t, x.Converses (.answering ans) s talk b t := by
  induction x generalizing s with
  | done a => exact ⟨[], a, s, rfl, rfl, rfl⟩
  | step change next ih =>
    obtain ⟨talk, b, t, h⟩ := ih s (change s)
    exact ⟨talk, b, t, trivial, h⟩
  | ask q next ih =>
    obtain ⟨a, ha⟩ := hans q
    obtain ⟨talk, b, t, h⟩ := ih a s
    exact ⟨⟨q, a⟩ :: talk, b, t, a, talk, s, rfl, ha, trivial, h⟩
  | wait turns until_ next ih =>
    -- nothing has come about, and the routine is cancelled
    obtain ⟨talk, b, t, h⟩ := ih .cancelled s
    exact ⟨talk, b, t, .cancelled, s, trivial, nofun, h⟩
  | spawn child next _ ih =>
    obtain ⟨talk, b, t, h⟩ := ih 0 s
    exact ⟨talk, b, t, 0, trivial, h⟩

/-! ## What every walk says and comes to -/

/-- Under given answers, and whatever the others do, the conversation and the result of the routine
are related as given. -/
def Says (ans : (q : Q) → A q → Prop) {α : Type} : Routine σ Q A α → (Talk Q A → α → Prop) → Prop
  | .done a, post => post [] a
  | .step _ next, post => ∀ s, (next s).Says ans post
  | .ask q next, post => ∀ a, ans q a → (next a).Says ans fun talk b => post (⟨q, a⟩ :: talk) b
  | .wait _ _ next, post => ∀ w, (next w).Says ans post
  | .spawn _ next, post => ∀ n, (next n).Says ans post

namespace Says

theorem imp {x : Routine σ Q A α} {post post' : Talk Q A → α → Prop} (h : x.Says ans post)
    (hp : ∀ talk a, post talk a → post' talk a) : x.Says ans post' := by
  induction x with
  | done a => exact hp [] a h
  | step change next ih => exact fun s => ih s (h s) hp
  | ask q next ih => exact fun a ha => ih a (h a ha) fun talk b => hp (⟨q, a⟩ :: talk) b
  | wait turns until_ next ih => exact fun w => ih w (h w) hp
  | spawn child next _ ih => exact fun n => ih n (h n) hp

theorem bind {x : Routine σ Q A α} {f : α → Routine σ Q A β} {mid : Talk Q A → α → Prop}
    {post : Talk Q A → β → Prop} (hx : x.Says ans mid)
    (hf : ∀ talk a, mid talk a → (f a).Says ans fun more b => post (talk ++ more) b) :
    (x.bind f).Says ans post := by
  induction x generalizing post with
  | done a => exact hf [] a hx
  | step change next ih => exact fun s => ih s (hx s) hf
  | ask q next ih =>
    intro a ha
    refine ih a (hx a ha) ?_
    intro talk b hb
    exact hf (⟨q, a⟩ :: talk) b hb
  | wait turns until_ next ih => exact fun w => ih w (hx w) hf
  | spawn child next _ ih => exact fun n => ih n (hx n) hf

/-- A walk says and comes to what is read off the tree. -/
theorem converses {x : Routine σ Q A α} {post : Talk Q A → α → Prop} {s t : σ} {talk : Talk Q A}
    {a : α} (hx : x.Says ans post) (hT : ∀ q a, T.answer q a → ans q a)
    (h : x.Converses T s talk a t) : post talk a := by
  induction x generalizing s talk with
  | done b =>
    obtain ⟨rfl, rfl, rfl⟩ := h
    exact hx
  | step change next ih => exact ih s (hx s) h.2
  | ask q next ih =>
    obtain ⟨b, rest, s', rfl, hb, -, h⟩ := h
    have hrest := ih b (hx b (hT q b hb)) h
    exact hrest
  | wait turns until_ next ih =>
    obtain ⟨w, s', -, -, h⟩ := h
    exact ih w (hx w) h
  | spawn child next _ ih =>
    obtain ⟨n, -, h⟩ := h
    exact ih n (hx n) h

end Says

end Routine

/-! ## Routines with a private state -/

namespace Run

variable {σ Q : Type} {A : Q → Type} {ε ρ τ α β : Type} {ans : (q : Q) → A q → Prop}

/-- Under given answers, and whatever the others do, the run that is begun with a private state comes
to an outcome, and its conversation and its private state at the end are related as given. -/
def Gives (ans : (q : Q) → A q → Prop) (x : Run σ Q A ε ρ α) (t : ρ) (out : Except ε α)
    (post : Talk Q A → ρ → Prop) : Prop :=
  (x.run t).Says ans fun talk p => p.1 = out ∧ post talk p.2

namespace Gives

variable {x : Run σ Q A ε ρ α} {t : ρ} {post mid : Talk Q A → ρ → Prop}

theorem imp {out : Except ε α} {post' : Talk Q A → ρ → Prop} (h : Gives ans x t out post)
    (hp : ∀ talk u, post talk u → post' talk u) : Gives ans x t out post' :=
  Routine.Says.imp h fun talk p hout => ⟨hout.1, hp talk p.2 hout.2⟩

theorem pure {a : α} (h : post [] t) : Gives ans (Pure.pure a : Run σ Q A ε ρ α) t (.ok a) post :=
  ⟨rfl, h⟩

theorem throw {e : ε} (h : post [] t) :
    Gives ans (MonadExcept.throw e : Run σ Q A ε ρ α) t (.error e) post :=
  ⟨rfl, h⟩

theorem get (h : post [] t) : Gives ans (getThe ρ : Run σ Q A ε ρ ρ) t (.ok t) post := ⟨rfl, h⟩

theorem modify {f : ρ → ρ} (h : post [] (f t)) :
    Gives ans (modifyThe ρ f : Run σ Q A ε ρ PUnit) t (.ok ⟨⟩) post :=
  ⟨rfl, h⟩

theorem bind_ok {a : α} {f : α → Run σ Q A ε ρ β} {out : Except ε β}
    (hx : Gives ans x t (.ok a) mid)
    (hf : ∀ talk u, mid talk u → Gives ans (f a) u out fun more v => post (talk ++ more) v) :
    Gives ans (x >>= f) t out post := by
  unfold Gives
  rw [run_bind]
  refine Routine.Says.bind hx ?_
  rintro talk ⟨_, u⟩ ⟨rfl, hu⟩
  exact hf talk u hu

theorem bind_error {e : ε} {f : α → Run σ Q A ε ρ β} (hx : Gives ans x t (.error e) post) :
    Gives ans (x >>= f) t (.error e) post := by
  unfold Gives
  rw [run_bind]
  refine Routine.Says.bind hx ?_
  rintro talk ⟨_, u⟩ ⟨rfl, hu⟩
  refine ⟨rfl, ?_⟩
  rw [List.append_nil]
  exact hu

/-- To get the private state asks nothing. -/
theorem get_bind {f : ρ → Run σ Q A ε ρ β} {out : Except ε β} (hf : Gives ans (f t) t out post) :
    Gives ans (getThe ρ >>= f) t out post := by
  have hget : Gives ans (getThe ρ : Run σ Q A ε ρ ρ) t (.ok t) fun talk u => talk = [] ∧ u = t :=
    get ⟨rfl, rfl⟩
  refine bind_ok hget ?_
  rintro _ _ ⟨rfl, rfl⟩
  exact hf

theorem modify_bind {g : ρ → ρ} {f : PUnit → Run σ Q A ε ρ β} {out : Except ε β}
    (hf : Gives ans (f ⟨⟩) (g t) out post) : Gives ans (modifyThe ρ g >>= f) t out post := by
  have hmodify : Gives ans (modifyThe ρ g : Run σ Q A ε ρ PUnit) t (.ok ⟨⟩)
      fun talk u => talk = [] ∧ u = g t := modify ⟨rfl, rfl⟩
  refine bind_ok hmodify ?_
  rintro _ _ ⟨rfl, rfl⟩
  exact hf

theorem zoom {view : ρ → τ} {set : τ → ρ → ρ} {x : Run σ Q A ε τ α} {out : Except ε α}
    (hx : Gives ans x (view t) out fun talk u => post talk (set u t)) :
    Gives ans (Run.zoom view set x) t out post := by
  refine Routine.Says.bind hx ?_
  rintro talk ⟨r, u⟩ ⟨rfl, hu⟩
  refine ⟨rfl, ?_⟩
  rw [List.append_nil]
  exact hu

end Gives

end Run

end SourceBundle
