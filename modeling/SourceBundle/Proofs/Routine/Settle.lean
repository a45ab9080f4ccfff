/-
# Settled results

What a routine comes to while it runs alone is settled if it hangs only on what is seen of the crowd
when the routine begins: whatever turns are taken, it inevitably ends with the same result, and in
crowds that look the same.  Plain routines are settled where the answers to their questions are.
-/
import SourceBundle.Proofs.Routine.Plain
import SourceBundle.Proofs.Routine.Turns

namespace SourceBundle

open Crowd

/-- Circumstances in which routines run alone. -/
structure Setting (σ Q : Type) (A : Q → Type) (R P ε V : Type) where
  /-- The histories that are of no concern to the one with a number. -/
  lost : Nat → List (Event Q A R P) → Prop
  /-- What is seen of a crowd. -/
  see : Crowd σ Q A R P → V
  /-- What is true of the crowd as long as nothing has failed. -/
  holds : Crowd σ Q A R P → Prop
  /-- What is true of the crowd when a failure has been met. -/
  blamed : ε → Crowd σ Q A R P → Prop
  /-- What remains of a crowd. -/
  keeps : Crowd σ Q A R P → Crowd σ Q A R P → Prop
  final : ∀ id, Final (lost id)
  refl : ∀ c, keeps c c
  trans : ∀ {c c' c''}, keeps c c' → keeps c' c'' → keeps c c''

variable {σ Q : Type} {A : Q → Type} {R P ε ρ V α β δ : Type} {W : Setting σ Q A R P ε V}

namespace Routine

variable {pre pre' : Crowd σ Q A R P → Prop}

/-- Begun in crowds of a kind, the routine comes to a result that is settled by what is seen of the
crowd. -/
def Settles (W : Setting σ Q A R P ε V) (pre : Crowd σ Q A R P → Prop) (x : Routine σ Q A α)
    (post : α → Crowd σ Q A R P → Prop) : Prop :=
  ∀ v, ∃ r : Option (α × V), ∀ id c, pre c → W.see c = v →
    Brings (W.lost id) id x c fun a c' => r = some (a, W.see c') ∧ W.keeps c c' ∧ post a c'

namespace Settles

variable {x : Routine σ Q A α} {post post' : α → Crowd σ Q A R P → Prop}

theorem imp (h : Settles W pre x post) (hpre : ∀ c, pre' c → pre c)
    (hpost : ∀ a c, post a c → post' a c) : Settles W pre' x post' := by
  intro v
  obtain ⟨r, hr⟩ := h v
  refine ⟨r, fun id c hc hv => (hr id c (hpre c hc) hv).imp ?_⟩
  rintro a c' ⟨ha, hk, hp⟩
  exact ⟨ha, hk, hpost a c' hp⟩

/-- What does not hang on the crowd may be assumed. -/
theorem of_fact {φ : Prop} (h : φ → Settles W pre x post) :
    Settles W (fun c => φ ∧ pre c) x post := by
  intro v
  by_cases hφ : φ
  · obtain ⟨r, hr⟩ := h hφ v
    exact ⟨r, fun id c hc hv => hr id c hc.2 hv⟩
  · exact ⟨none, fun id c hc _ => absurd hc.1 hφ⟩

theorem done {a : α} (h : ∀ c, pre c → post a c) : Settles W pre (.done a) post := by
  intro v
  refine ⟨some (a, v), fun id c hc hv => .done ⟨?_, W.refl c, h c hc⟩⟩
  rw [hv]

theorem bind {f : α → Routine σ Q A β} {post' : β → Crowd σ Q A R P → Prop}
    (hx : Settles W pre x post) (hf : ∀ a, Settles W (post a) (f a) post') :
    Settles W pre (x.bind f) post' := by
  intro v
  obtain ⟨r, hr⟩ := hx v
  cases r with
  | none =>
    refine ⟨none, fun id c hc hv => (hr id c hc hv).bind ?_⟩
    rintro a c' ⟨ha, -⟩
    cases ha
  | some p =>
    obtain ⟨a, v'⟩ := p
    obtain ⟨r', hr'⟩ := hf a v'
    refine ⟨r', fun id c hc hv => (hr id c hc hv).bind ?_⟩
    rintro a' c' ⟨ha, hk, hp⟩
    obtain ⟨rfl, rfl⟩ := Prod.mk.inj (Option.some.inj ha)
    refine (hr' id c' hp rfl).imp ?_
    rintro b c'' ⟨hb, hk', hp'⟩
    exact ⟨hb, W.trans hk hk', hp'⟩

/-- A change of the state is settled if crowds that look the same look the same afterwards. -/
theorem step (pre' : σ → Crowd σ Q A R P → Prop) {change : σ → σ} {next : σ → Routine σ Q A α}
    (hsee : ∀ c d, pre c → pre d → W.see c = W.see d →
      W.see { c with state := change c.state } = W.see { d with state := change d.state } ∧
        next c.state = next d.state)
    (hkeeps : ∀ c d, pre c → W.see c = W.see d →
      W.keeps c { c with state := change c.state } ∧ pre' d.state { c with state := change c.state })
    (hnext : ∀ c, pre c → Settles W (pre' c.state) (next c.state) post) :
    Settles W pre (.step change next) post := by
  intro v
  by_cases hex : ∃ c, pre c ∧ W.see c = v
  · obtain ⟨c₀, hc₀, rfl⟩ := hex
    obtain ⟨r, hr⟩ := hnext c₀ hc₀ (W.see { c₀ with state := change c₀.state })
    refine ⟨r, fun id c hc hv => Brings.step ?_⟩
    obtain ⟨hv', hn⟩ := hsee c c₀ hc hc₀ hv
    obtain ⟨hk, hp⟩ := hkeeps c c₀ hc hv
    rw [hn]
    refine (hr id _ hp hv').imp ?_
    rintro a c' ⟨ha, hk', hp'⟩
    exact ⟨ha, W.trans hk hk', hp'⟩
  · exact ⟨none, fun id c hc hv => absurd ⟨c, hc, hv⟩ hex⟩

theorem modify {f : σ → σ} {post : Unit → Crowd σ Q A R P → Prop}
    (hsee : ∀ c d, pre c → pre d → W.see c = W.see d →
      W.see { c with state := f c.state } = W.see { d with state := f d.state })
    (hkeeps : ∀ c, pre c →
      W.keeps c { c with state := f c.state } ∧ post () { c with state := f c.state }) :
    Settles W pre (Routine.modify f) post :=
  step (fun _ => post ()) (fun c d hc hd h => ⟨hsee c d hc hd h, rfl⟩) (fun c _ hc _ => hkeeps c hc)
    fun _ _ => done fun _ h => h

/-- A condition that has come about is not waited for. -/
theorem wait {turns : Nat} {until_ : σ → Bool} {next : Wake → Routine σ Q A α}
    (h : Settles W pre (next .ready) post)
    (hc : ∀ c, pre c → Resting c ∧ until_ c.state = true) :
    Settles W pre (.wait turns until_ next) post := by
  intro v
  obtain ⟨r, hr⟩ := h v
  exact ⟨r, fun id c hp hv => Brings.wait (hc c hp).1 (hc c hp).2 (hr id c hp hv)⟩

end Settles

end Routine

/-! ## Plain routines -/

/-- The circumstances suit a manner: what its routines go by is seen, what they do is settled, and
so is every answer unless it is fatal. -/
structure Setting.Suits (W : Setting σ Q A R P ε V) (m : Manner σ Q A β)
    (fated : Q → Crowd σ Q A R P → Prop) : Prop where
  rests : ∀ c, W.holds c → Resting c
  view : ∀ c d, W.see c = W.see d → m.view c.state = m.view d.state
  change : ∀ c s, W.holds c → m.change c.state s →
    W.holds { c with state := s } ∧ W.keeps c { c with state := s }
  sees : ∀ c d s t, W.holds c → W.holds d → W.see c = W.see d → m.change c.state s →
    m.change d.state t → m.view s = m.view t →
    W.see { c with state := s } = W.see { d with state := t }
  answers : ∀ v q, m.question q → ∃ (a : A q) (v' : V), ∀ id c, W.holds c → W.see c = v → ∀ a',
    W.lost id (.answered id q a' :: .put id q :: c.history) ∨
      W.holds { c with history := .answered id q a' :: .put id q :: c.history } ∧
      W.keeps c { c with history := .answered id q a' :: .put id q :: c.history } ∧
      (a' = a ∧ W.see { c with history := .answered id q a' :: .put id q :: c.history } = v' ∨
        m.fatal q a' ∧ fated q { c with history := .answered id q a' :: .put id q :: c.history })
  fated_change : ∀ q c s, fated q c → fated q { c with state := s }
  fated_settles : ∀ q q' id c, fated q c → m.settles q q' → W.lost id (.put id q' :: c.history)
  fated_again : ∀ q id c, W.holds c → fated q c → Nonempty (A q) ∧ ∀ a,
    W.lost id (.answered id q a :: .put id q :: c.history) ∨ m.fatal q a ∧
      W.holds { c with history := .answered id q a :: .put id q :: c.history } ∧
      fated q { c with history := .answered id q a :: .put id q :: c.history }

namespace Setting.Suits

variable {m : Manner σ Q A β} {fated : Q → Crowd σ Q A R P → Prop}

/-- After a fatal answer a routine is inevitably lost. -/
lemma brings_of_doomed (hs : W.Suits m fated) {q : Q} {x : Routine σ Q A α} {id : Nat}
    {c : Crowd σ Q A R P} (hx : x.Doomed m q) (hc : W.holds c) (hf : fated q c) :
    Brings (W.lost id) id x c fun _ _ => False := by
  induction x generalizing c with
  | done a => exact hx.elim
  | step change next ih =>
    exact Brings.step (ih c.state (hx.2 c.state) (hs.change c _ hc (hx.1 c.state)).1
      (hs.fated_change q c _ hf))
  | ask q' next ih =>
    rcases hx with hx | ⟨rfl, hx⟩
    · intro γ g report
      exact .now (Or.inl (hs.fated_settles q q' id c hf hx))
    · obtain ⟨hne, hagain⟩ := hs.fated_again q' id c hc hf
      refine Brings.ask (W.final id) hne (hs.rests c hc) fun a => ?_
      rcases hagain a with hl | ⟨ha, hc', hf'⟩
      · exact Or.inl hl
      · exact Or.inr (ih a (hx a ha) hc' hf')
  | wait turns until_ next _ => exact hx.elim
  | spawn child next _ _ => exact hx.elim

/-- A routine that works in a manner that the circumstances suit is settled. -/
theorem settles (hs : W.Suits m fated) {x : Routine σ Q A α} {post : α → Prop}
    (hx : x.Plain m post) : x.Settles W W.holds fun a c => post a ∧ W.holds c := by
  induction x with
  | done a => exact .done fun c hc => ⟨hx, hc⟩
  | step change next ih =>
    obtain ⟨hchange, hview, hnext⟩ := hx
    refine .step (fun _ => W.holds) ?_ ?_ fun c _ => ih c.state (hnext c.state)
    · intro c d hc hd hsee
      obtain ⟨hv, hn⟩ := hview c.state d.state (hs.view c d hsee)
      exact ⟨hs.sees c d _ _ hc hd hsee (hchange _) (hchange _) hv, hn⟩
    · intro c _ hc _
      obtain ⟨hc', hk⟩ := hs.change c _ hc (hchange c.state)
      exact ⟨hk, hc'⟩
  | ask q next ih =>
    obtain ⟨hq, hnext, hfatal⟩ := hx
    intro v
    obtain ⟨a, v', ha⟩ := hs.answers v q hq
    obtain ⟨r, hr⟩ := ih a (hnext a) v'
    refine ⟨r, fun id c hc hv => Brings.ask (W.final id) ⟨a⟩ (hs.rests c hc) fun a' => ?_⟩
    rcases ha id c hc hv a' with hl | ⟨hc', hk, ⟨rfl, hv'⟩ | ⟨hfa, hf⟩⟩
    · exact Or.inl hl
    · refine Or.inr ((hr id _ hc' hv').imp ?_)
      rintro b c' ⟨hb, hk', hp⟩
      exact ⟨hb, W.trans hk hk', hp⟩
    · exact Or.inr ((hs.brings_of_doomed (hfatal a' hfa) hc' hf).imp fun _ _ => False.elim)
  | wait turns until_ next _ => exact hx.elim
  | spawn child next _ _ => exact hx.elim

end Setting.Suits

/-- The same circumstances when nobody else is there. -/
def Setting.alone (W : Setting σ Q A R P ε V) : Setting σ Q A R P ε V :=
  { W with holds := fun c => W.holds c ∧ c.paused = [] }

lemma Setting.Suits.alone {m : Manner σ Q A β} {fated : Q → Crowd σ Q A R P → Prop}
    (hs : W.Suits m fated) : W.alone.Suits m fated where
  rests c hc := hs.rests c hc.1
  view := hs.view
  change c s hc hm := by
    obtain ⟨hc', hk⟩ := hs.change c s hc.1 hm
    exact ⟨⟨hc', hc.2⟩, hk⟩
  sees c d s t hc hd := hs.sees c d s t hc.1 hd.1
  answers v q hq := by
    obtain ⟨a, v', ha⟩ := hs.answers v q hq
    refine ⟨a, v', fun id c hc hv a' => (ha id c hc.1 hv a').imp_right ?_⟩
    rintro ⟨hc', h⟩
    exact ⟨⟨hc', hc.2⟩, h⟩
  fated_change := hs.fated_change
  fated_settles := hs.fated_settles
  fated_again q id c hc hf := by
    obtain ⟨hne, h⟩ := hs.fated_again q id c hc.1 hf
    refine ⟨hne, fun a => (h a).imp_right ?_⟩
    rintro ⟨ha, hc', hf'⟩
    exact ⟨ha, ⟨hc', hc.2⟩, hf'⟩

/-! ## Routines that may fail -/

/-- What is true of a crowd when something has ended with a result. -/
def Setting.After (W : Setting σ Q A R P ε V) (r : Except ε α) (c : Crowd σ Q A R P) : Prop :=
  W.holds c ∨ ∃ e, r = .error e ∧ W.blamed e c

lemma Setting.After.holds {a : α} {c : Crowd σ Q A R P} (h : W.After (.ok a) c) : W.holds c := by
  rcases h with h | ⟨e, he, -⟩
  · exact h
  · cases he

/-- What an attempt comes to is settled. -/
def Attempt.Settles (W : Setting σ Q A R P ε V) (x : Attempt σ Q A ε α) : Prop :=
  x.run.Settles W W.holds W.After

namespace Attempt.Settles

theorem pure (a : α) : Attempt.Settles W (Pure.pure a : Attempt σ Q A ε α) :=
  .done fun _ hc => Or.inl hc

theorem throw (e : ε) : Attempt.Settles W (MonadExcept.throw e : Attempt σ Q A ε α) :=
  .done fun _ hc => Or.inl hc

theorem bind {x : Attempt σ Q A ε α} {f : α → Attempt σ Q A ε δ} (hx : Attempt.Settles W x)
    (hf : ∀ a, Attempt.Settles W (f a)) : Attempt.Settles W (x >>= f) := by
  refine Routine.Settles.bind hx fun r => ?_
  cases r with
  | ok a => exact (hf a).imp (fun _ hc => hc.holds) fun _ _ h => h
  | error e =>
    refine .done fun c hc => hc.imp_right ?_
    rintro ⟨e', he, hb⟩
    cases he
    exact ⟨e, rfl, hb⟩

theorem tryCatch {x : Attempt σ Q A ε α} {h : ε → Attempt σ Q A ε α} (hx : Attempt.Settles W x)
    (hb : ∀ e c, ¬ W.blamed e c) (hh : ∀ e, Attempt.Settles W (h e)) :
    Attempt.Settles W (MonadExcept.tryCatch x h) := by
  refine Routine.Settles.bind hx fun r => ?_
  cases r with
  | ok a => exact .done fun _ hc => Or.inl hc.holds
  | error e =>
    refine (hh e).imp (fun c hc => hc.elim id ?_) fun _ _ h => h
    rintro ⟨e', -, he⟩
    exact absurd he (hb e' c)

theorem of_plain {m : Manner σ Q A β} {fated : Q → Crowd σ Q A R P → Prop} {x : Attempt σ Q A ε α}
    (hs : W.Suits m fated) (hx : Attempt.Plain m x) : Attempt.Settles W x :=
  (hs.settles hx).imp (fun _ h => h) fun _ _ h => Or.inl h.2

end Attempt.Settles

/-! ## Routines with a private state -/

/-- What a run comes to is settled, and its private states at the beginning and at the end are
related as given. -/
def Run.Settles (W : Setting σ Q A R P ε V) (I : ρ → ρ → Prop) (x : Run σ Q A ε ρ α) : Prop :=
  ∀ t, (x.run t).Settles W W.holds fun p c => I t p.2 ∧ W.After p.1 c

namespace Run.Settles

variable {I : ρ → ρ → Prop} {x : Run σ Q A ε ρ α}

theorem of_plain {m : Manner σ Q A β} {fated : Q → Crowd σ Q A R P → Prop}
    (hs : W.Suits m fated) (hx : Run.Plain m I x) : Run.Settles W I x :=
  fun t => (hs.settles (hx t)).imp (fun _ h => h) fun _ _ h => ⟨h.1, Or.inl h.2⟩

theorem modify {f : ρ → ρ} (h : ∀ t, I t (f t)) :
    Run.Settles W I (modifyThe ρ f : Run σ Q A ε ρ PUnit) :=
  fun t => .done fun _ hc => ⟨h t, Or.inl hc⟩

variable [IsPreorder ρ I]

theorem pure (a : α) : Run.Settles W I (Pure.pure a : Run σ Q A ε ρ α) :=
  fun t => .done fun _ hc => ⟨refl_of I t, Or.inl hc⟩

theorem throw (e : ε) : Run.Settles W I (MonadExcept.throw e : Run σ Q A ε ρ α) :=
  fun t => .done fun _ hc => ⟨refl_of I t, Or.inl hc⟩

theorem get : Run.Settles W I (getThe ρ : Run σ Q A ε ρ ρ) :=
  fun t => .done fun _ hc => ⟨refl_of I t, Or.inl hc⟩

theorem lift {x : Attempt σ Q A ε α} (hx : Attempt.Settles W x) :
    Run.Settles W I (Run.lift x : Run σ Q A ε ρ α) :=
  fun t => Routine.Settles.bind hx fun _ => .done fun _ hc => ⟨refl_of I t, hc⟩

theorem bind {f : α → Run σ Q A ε ρ δ} (hx : Run.Settles W I x)
    (hf : ∀ a, Run.Settles W I (f a)) : Run.Settles W I (x >>= f) := by
  intro t
  rw [run_bind]
  refine Routine.Settles.bind (hx t) ?_
  rintro ⟨e | a, u⟩
  · refine .done fun c hc => ⟨hc.1, hc.2.imp_right ?_⟩
    rintro ⟨e', he, hb⟩
    cases he
    exact ⟨e, rfl, hb⟩
  · refine .of_fact fun hI => ?_
    refine (hf a u).imp (fun _ hc => hc.holds) ?_
    rintro p c ⟨hI', hc⟩
    exact ⟨trans_of I hI hI', hc⟩

theorem forM {f : δ → Run σ Q A ε ρ PUnit} (hf : ∀ b, Run.Settles W I (f b)) (bs : List δ) :
    Run.Settles W I (bs.forM f) := by
  induction bs with
  | nil => exact pure _
  | cons b bs ih => exact bind (hf b) fun _ => ih

end Run.Settles

end SourceBundle
