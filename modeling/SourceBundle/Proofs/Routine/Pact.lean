/-
# Pacts

Not everything that routines rely on can be read off the state that they share: for whom a number was
drawn may matter when the state has forgotten it.  A pact adds a record of such things, which only
grows.  A routine honours the pact if its changes, together with what it adds to the record, leave
states in accord with the record, as long as those of the others do.

In a crowd whose requests honour a pact every request walks through states in accord with it.
-/
import SourceBundle.Proofs.Routine.Crowd
import SourceBundle.Proofs.Routine.Steady

namespace SourceBundle

/-- What routines that run beside each other agree on. -/
structure Pact (γ σ Q : Type) (A : Q → Type) where
  /-- Which states are in accord with a record. -/
  holds : γ → σ → Prop
  /-- How the record may grow. -/
  grows : γ → γ → Prop
  /-- Which answers are reckoned with. -/
  answer : (q : Q) → A q → Prop

variable {γ σ Q : Type} {A : Q → Type} {R P α β : Type} {K : Pact γ σ Q A} {g g' : γ}

/-- The state is in accord with some record. -/
def Pact.Accords (K : Pact γ σ Q A) (s : σ) : Prop := ∃ g, K.holds g s

/-- All answers of a history are reckoned with. -/
def Pact.Hears (K : Pact γ σ Q A) (h : List (Event Q A R P)) : Prop :=
  ∀ id q a, .answered id q a ∈ h → K.answer q a

namespace Routine

/-- With a record, the routine and all that it starts honour a pact, and something holds of its
result and the record at its end. -/
def Honors (K : Pact γ σ Q A) {α : Type} : Routine σ Q A α → γ → (α → γ → Prop) → Prop
  | .done a, g, post => post a g
  | .step change next, g, post => ∀ s, K.holds g s →
    ∃ g', K.grows g g' ∧ K.holds g' (change s) ∧ (next s).Honors K g' post
  | .ask q next, g, post => ∀ a g', K.answer q a → K.grows g g' → (next a).Honors K g' post
  | .wait _ _ next, g, post => ∀ w g', K.grows g g' → (next w).Honors K g' post
  | .spawn child next, g, post =>
    (∀ g', K.grows g g' → child.Honors K g' fun _ _ => True) ∧ ∀ n, (next n).Honors K g post

namespace Honors

theorem chain {x : Routine σ Q A α} {f : α → Routine σ Q A β} {mid : α → γ → Prop} {post : β → γ → Prop}
    (h : x.Honors K g mid) (hf : ∀ a g', mid a g' → (f a).Honors K g' post) : (x.bind f).Honors K g post := by
  induction x generalizing g with
  | done a => exact hf a g h
  | step change next ih =>
    intro s hs
    obtain ⟨g', hg, hs', h'⟩ := h s hs
    exact ⟨g', hg, hs', ih s h' hf⟩
  | ask q next ih => exact fun a g' ha hg => ih a (h a g' ha hg) hf
  | wait turns until_ next ih => exact fun w g' hg => ih w (h w g' hg) hf
  | spawn child next _ ih => exact ⟨h.1, fun n => ih n (h.2 n) hf⟩

theorem imp {x : Routine σ Q A α} {post post' : α → γ → Prop} (h : x.Honors K g post)
    (hp : ∀ a g, post a g → post' a g) : x.Honors K g post' := by
  have hdone : (x.bind done).Honors K g post' := h.chain hp
  rwa [bind_done] at hdone

theorem bind {x : Routine σ Q A α} {f : α → Routine σ Q A β} {post : β → γ → Prop}
    (h : x.Honors K g fun a g' => (f a).Honors K g' post) : (x.bind f).Honors K g post :=
  h.chain fun _ _ ha => ha

end Honors

/-- A steady routine honours a pact if its kind of change leaves states in accord with every record,
and what it starts honours the pact. -/
theorem Steady.honors [Std.Refl K.grows] {change : σ → σ → Prop} {L : Routine σ Q A Unit → Prop}
    {x : Routine σ Q A α} (hx : x.Steady change L)
    (hc : ∀ g s t, K.holds g s → change s t → K.holds g t)
    (hl : ∀ child, L child → ∀ g, child.Honors K g fun _ _ => True) :
    x.Honors K g fun _ _ => True := by
  induction x generalizing g with
  | done a => trivial
  | step change next ih =>
    exact fun s hs => ⟨g, refl_of K.grows g, hc _ _ _ hs (hx s).1, ih s (hx s).2⟩
  | ask q next ih => exact fun a g' _ _ => ih a (hx a)
  | wait turns until_ next ih => exact fun w g' _ => ih w (hx w)
  | spawn child next _ ih => exact ⟨fun g' _ => hl child hx.1 g', fun n => ih n (hx.2 n)⟩

end Routine

namespace Crowd

variable {work : R → Routine σ Q A P} {c c' : Crowd σ Q A R P} {id : Nat}
  {h h' : List (Event Q A R P)} {s t : σ}

/-- A request is on a walk through states in accord with a pact, and has come to the rest of its
routine. -/
def InAccord (K : Pact γ σ Q A) (work : R → Routine σ Q A P) (h : List (Event Q A R P)) (id : Nat)
    (x : Routine σ Q A P) (s : σ) : Prop :=
  ∃ r s₀, .begun id r ∈ h ∧ K.Accords s₀ ∧
    (work r).Leads (terms (fun _ => K.Accords) id h) s₀ x s

/-- A request has come to its end on a walk through states in accord with a pact. -/
def Returns (K : Pact γ σ Q A) (work : R → Routine σ Q A P) (h : List (Event Q A R P)) (id : Nat)
    (p : P) : Prop :=
  ∃ r s₀ s, .begun id r ∈ h ∧ K.Accords s₀ ∧
    (work r).Ends (terms (fun _ => K.Accords) id h) s₀ p s

lemma InAccord.mono {x : Routine σ Q A P} (hx : InAccord K work h id x s) (hh : h ⊆ h') :
    InAccord K work h' id x s := by
  obtain ⟨r, s₀, hr, hs, hl⟩ := hx
  exact ⟨r, s₀, hh hr, hs, hl.mono (terms_within _ id hh)⟩

lemma Returns.mono {p : P} (hp : Returns K work h id p) (hh : h ⊆ h') :
    Returns K work h' id p := by
  obtain ⟨r, s₀, s, hr, hs, he⟩ := hp
  exact ⟨r, s₀, s, hh hr, hs, Routine.ends_mono he (terms_within _ id hh)⟩

/-- What a paused routine is: a request in accord with a pact, or a helper. -/
def Paused.InAccord (K : Pact γ σ Q A) (work : R → Routine σ Q A P) (h : List (Event Q A R P))
    (p : Paused σ Q A P) : Prop :=
  (∃ x s, p = ⟨p.id, P, x, some⟩ ∧ Crowd.InAccord K work h p.id x s) ∨
    ∃ (α : Type) (x : Routine σ Q A α), p = ⟨p.id, α, x, fun _ => none⟩

/-- A crowd keeps a pact with a record: all who pause in it honour the pact, the requests among them
are in accord with it, and so have been those that have returned. -/
structure Keeps (K : Pact γ σ Q A) (work : R → Routine σ Q A P) (g : γ) (c : Crowd σ Q A R P) :
    Prop where
  state : K.holds g c.state
  honors : ∀ p ∈ c.paused, ∀ g', K.grows g g' → p.rest.Honors K g' fun _ _ => True
  paused : ∀ p ∈ c.paused, Paused.InAccord K work c.history p
  returned : ∀ id p, .returned id p ∈ c.history → Returns K work c.history id p

namespace Keeps

lemma change [IsTrans γ K.grows] (hk : Keeps K work g c) (hg : K.grows g g') (ht : K.holds g' t) :
    Keeps K work g' { c with state := t } where
  state := ht
  honors p hp g'' hg' := hk.honors p hp g'' (trans_of K.grows hg hg')
  paused := hk.paused
  returned := hk.returned

lemma note (hk : Keeps K work g c) {e : Event Q A R P}
    (he : ∀ id p, e = .returned id p → Returns K work (e :: c.history) id p) :
    Keeps K work g { c with history := e :: c.history } where
  state := hk.state
  honors := hk.honors
  paused p hp := by
    rcases hk.paused p hp with ⟨x, s, hx, hw⟩ | hp
    · exact Or.inl ⟨x, s, hx, hw.mono (List.subset_cons_self _ _)⟩
    · exact Or.inr hp
  returned id p hp := by
    rcases List.mem_cons.mp hp with rfl | hp
    · exact he id p rfl
    · exact (hk.returned id p hp).mono (List.subset_cons_self _ _)

lemma pause (hk : Keeps K work g c) {p : Paused σ Q A P}
    (hh : ∀ g', K.grows g g' → p.rest.Honors K g' fun _ _ => True)
    (hp : Paused.InAccord K work c.history p) :
    Keeps K work g { c with paused := p :: c.paused } where
  state := hk.state
  honors := List.forall_mem_cons.mpr ⟨hh, hk.honors⟩
  paused := List.forall_mem_cons.mpr ⟨hp, hk.paused⟩
  returned := hk.returned

lemma resume (hk : Keeps K work g c) {front back : List (Paused σ Q A P)} {p : Paused σ Q A P}
    (hp : c.paused = front ++ p :: back) : Keeps K work g { c with paused := front ++ back } := by
  have hsub : ∀ q ∈ front ++ back, q ∈ c.paused := by
    intro q hq
    rw [hp]
    exact List.mem_append.mpr ((List.mem_append.mp hq).imp_right (List.mem_cons_of_mem p))
  exact ⟨hk.state, fun q hq => hk.honors q (hsub q hq), fun q hq => hk.paused q (hsub q hq),
    hk.returned⟩

lemma spawn [IsTrans γ K.grows] (hk : Keeps K work g c) {child : Routine σ Q A Unit}
    (hc : ∀ g', K.grows g g' → child.Honors K g' fun _ _ => True) :
    Keeps K work g (c.spawn child) where
  state := hk.state
  honors := by
    refine List.forall_mem_cons.mpr ⟨fun g' hg w g'' hg' => ?_, hk.honors⟩
    cases w
    · exact hc g'' (trans_of K.grows hg hg')
    · trivial
  paused := List.forall_mem_cons.mpr ⟨Or.inr ⟨_, _, rfl⟩, hk.paused⟩
  returned := hk.returned

end Keeps

variable [IsPreorder γ K.grows]

/-- A request that goes on keeps the pact. -/
theorem keeps_run_request {x : Routine σ Q A P} (hk : Keeps K work g c)
    (hh : x.Honors K g fun _ _ => True) (hx : InAccord K work c.history id x c.state) :
    ∃ g', Keeps K work g' (run id some x c) := by
  induction x generalizing g with
  | done p =>
    refine ⟨g, hk.note ?_⟩
    rintro id' p' ⟨⟩
    obtain ⟨r, s₀, hr, hs, hl⟩ := hx.mono (List.subset_cons_self _ _)
    exact ⟨r, s₀, c.state, hr, hs, hl.ends ⟨rfl, rfl⟩⟩
  | step change next ih =>
    obtain ⟨g', hg, ht, hnext⟩ := hh _ hk.state
    obtain ⟨r, s₀, hr, hs, hl⟩ := hx
    exact ih c.state (hk.change hg ht) hnext ⟨r, s₀, hr, hs, hl.trans (.step ⟨g', ht⟩ .here)⟩
  | ask q next _ =>
    have hp : Keeps K work g { c with paused := ⟨id, _, .ask q next, some⟩ :: c.paused } :=
      hk.pause (fun g' hg a g'' ha hg' => hh a g'' ha (trans_of K.grows hg hg'))
        (Or.inl ⟨_, _, rfl, hx⟩)
    exact ⟨g, hp.note nofun⟩
  | wait turns until_ next _ =>
    exact ⟨g, hk.pause (fun g' hg w g'' hg' => hh w g'' (trans_of K.grows hg hg'))
      (Or.inl ⟨_, _, rfl, hx⟩)⟩
  | spawn child next _ ih =>
    obtain ⟨r, s₀, hr, hs, hl⟩ := hx
    exact ih c.fresh (hk.spawn hh.1) (hh.2 c.fresh)
      ⟨r, s₀, hr, hs, hl.trans (.spawn trivial .here)⟩

/-- A helper that goes on keeps the pact. -/
theorem keeps_run_helper {x : Routine σ Q A α} (hk : Keeps K work g c)
    (hh : x.Honors K g fun _ _ => True) : ∃ g', Keeps K work g' (run id (fun _ => none) x c) := by
  induction x generalizing c g with
  | done a => exact ⟨g, hk⟩
  | step change next ih =>
    obtain ⟨g', hg, ht, hnext⟩ := hh _ hk.state
    exact ih c.state (hk.change hg ht) hnext
  | ask q next _ =>
    have hp : Keeps K work g
        { c with paused := ⟨id, _, .ask q next, fun _ => none⟩ :: c.paused } :=
      hk.pause (fun g' hg a g'' ha hg' => hh a g'' ha (trans_of K.grows hg hg'))
        (Or.inr ⟨_, _, rfl⟩)
    exact ⟨g, hp.note nofun⟩
  | wait turns until_ next _ =>
    exact ⟨g, hk.pause (fun g' hg w g'' hg' => hh w g'' (trans_of K.grows hg hg'))
      (Or.inr ⟨_, _, rfl⟩)⟩
  | spawn child next _ ih => exact ih c.fresh (hk.spawn hh.1) (hh.2 c.fresh)

/-- Whatever happens keeps the pact, if every request honours it and the answers are reckoned
with. -/
theorem Step.keeps (hwork : ∀ r g, (work r).Honors K g fun _ _ => True) (hs : Step work c c')
    (hk : Keeps K work g c) (ha : K.Hears c'.history) : ∃ g', Keeps K work g' c' := by
  cases hs with
  | call r =>
    have hb := hk.note (e := .begun c.fresh r) nofun
    have hfresh : Keeps K work g
        { c with fresh := c.fresh + 1, history := .begun c.fresh r :: c.history } :=
      ⟨hb.state, hb.honors, hb.paused, hb.returned⟩
    exact keeps_run_request hfresh (hwork r g)
      ⟨r, c.state, List.mem_cons_self, ⟨g, hk.state⟩, .here⟩
  | @answer front back id α q next report a hp =>
    have hn := (hk.resume hp).note (e := .answered id q a) nofun
    have hmem : ⟨id, α, .ask q next, report⟩ ∈ c.paused := by simp [hp]
    have hanswer : K.answer q a := by
      refine ha id q a ?_
      obtain ⟨-, news, -, hh⟩ := run_adds id report (next a)
        { c with paused := front ++ back, history := .answered id q a :: c.history }
      rw [hh]
      exact List.mem_append_right _ List.mem_cons_self
    have hh := hk.honors _ hmem g (refl_of K.grows g) a g hanswer (refl_of K.grows g)
    rcases hk.paused _ hmem with ⟨x, s, he, hw⟩ | ⟨β, x, he⟩
    · cases he
      obtain ⟨r, s₀, hr, hs, hl⟩ := hw.mono (List.subset_cons_self (.answered id q a) _)
      exact keeps_run_request hn hh
        ⟨r, s₀, hr, hs, hl.trans (.ask List.mem_cons_self ⟨g, hk.state⟩ .here)⟩
    · cases he
      exact keeps_run_helper hn hh
  | @wake front back id α turns until_ next report w hp hu =>
    have hn := hk.resume hp
    have hmem : ⟨id, α, .wait turns until_ next, report⟩ ∈ c.paused := by simp [hp]
    have hh := hk.honors _ hmem g (refl_of K.grows g) w g (refl_of K.grows g)
    rcases hk.paused _ hmem with ⟨x, s, he, hw⟩ | ⟨β, x, he⟩
    · cases he
      obtain ⟨r, s₀, hr, hs, hl⟩ := hw
      exact keeps_run_request hn hh ⟨r, s₀, hr, hs, hl.trans (.wait ⟨g, hk.state⟩ hu .here)⟩
    · cases he
      exact keeps_run_helper hn hh

/-- What happens in a step leaves what has happened before. -/
lemma Step.history (hs : Step work c c') : ∃ news, c'.history = news ++ c.history := by
  cases hs with
  | call r =>
    obtain ⟨-, news, -, hh⟩ := run_adds c.fresh some (work r)
      { c with fresh := c.fresh + 1, history := .begun c.fresh r :: c.history }
    exact ⟨news ++ [.begun c.fresh r], hh.trans (List.append_cons _ _ _)⟩
  | @answer front back id α q next report a hp =>
    obtain ⟨-, news, -, hh⟩ := run_adds id report (next a)
      { c with paused := front ++ back, history := .answered id q a :: c.history }
    exact ⟨news ++ [.answered id q a], hh.trans (List.append_cons _ _ _)⟩
  | @wake front back id α turns until_ next report w hp hu =>
    obtain ⟨-, news, -, hh⟩ := run_adds id report (next w) { c with paused := front ++ back }
    exact ⟨news, hh⟩

/-- In every crowd that is come to with answers that are reckoned with, the pact is kept. -/
theorem Reachable.keeps (hwork : ∀ r g, (work r).Honors K g fun _ _ => True) (hs : K.Accords s)
    (hr : Reachable work s c) (ha : K.Hears c.history) : ∃ g, Keeps K work g c := by
  induction hr with
  | refl =>
    obtain ⟨g, hg⟩ := hs
    exact ⟨g, hg, nofun, nofun, nofun⟩
  | tail _ hstep ih =>
    obtain ⟨news, hh⟩ := hstep.history
    obtain ⟨g, hk⟩ := ih fun id q a hmem => ha id q a (by rw [hh]; exact List.mem_append_right _ hmem)
    exact hstep.keeps hwork hk ha

/-- A request that has returned has been on a walk through states in accord with the pact. -/
theorem Reachable.returns (hwork : ∀ r g, (work r).Honors K g fun _ _ => True)
    (hs : K.Accords s) (hr : Reachable work s c) (ha : K.Hears c.history) {p : P}
    (hp : .returned id p ∈ c.history) : Returns K work c.history id p := by
  obtain ⟨g, hk⟩ := hr.keeps hwork hs ha
  exact hk.returned id p hp

end Crowd

end SourceBundle
