/-
# Circumstances in which a build may be repeated

A build leaves its mark on the service and on the workspace: packages are in the cache and written to
the workspace, and the index has been committed and saved.  What it goes by stays as it is: the
settings, the files that do not change, and what becomes of requests for packages.  To write a package
to the workspace or to read the records of the index goes unnoticed.
-/
import SourceBundle.Proofs.Routine.Settle
import SourceBundle.Proofs.Service.Calm
import SourceBundle.Bundle.Build

namespace SourceBundle

open Crowd

namespace Bundle

/-- What builds can rely on: the files and the versions of packages, and what there is in the
workspace outside the places that may change. -/
structure Grounds where
  /-- The places of the workspace that may change. -/
  shifting : String → Prop
  /-- The files of each package. -/
  fetch : PackageKey → Except Fault (Table String String)
  /-- The published versions of each package. -/
  versions : String → Except Fault (List String)
  /-- Whether there is something at a place that does not change. -/
  probe : String → Except WorkspaceFault Bool
  /-- The content of a file that does not change. -/
  read : String → Except WorkspaceFault String

variable {R P : Type} {A : Grounds} {φ : Index → Prop}

/-- An answer of the workspace: if it failed, it was for a reason of its own. -/
def FromWorkspace {α : Type} (a : Except Fault α) : Prop :=
  ∀ f, a = .error f → ∃ g, f = .workspace g

lemma FromWorkspace.retype {α β : Type} {f : Fault} (h : FromWorkspace (.error f : Except Fault α)) :
    FromWorkspace (.error f : Except Fault β) := by
  rintro _ ⟨⟩
  exact h f rfl

/-- Whether an answer is as it should be.  What has been found at a place that may change stays
there. -/
def Grounds.Fits (A : Grounds) (h : List (Event Question Question.Answer R P)) :
    (q : Question) → q.Answer → Prop
  | .probe path, a =>
    (¬ A.shifting path → a = (A.probe path).mapError .workspace) ∧
      (A.shifting path → a = .ok true ∨
        a = .ok false ∧ ∀ id, .answered id (.probe path) (.ok true) ∉ h)
  | .read path, a =>
    FromWorkspace a ∧ (¬ A.shifting path → a = (A.read path).mapError .workspace)
  | .write _ _, a => FromWorkspace a
  | .mkdir _, a => FromWorkspace a
  | .versions name, a => a = A.versions name
  | .files name version, a => a = A.fetch ⟨name, version⟩
  | .compile _ _ _, _ => True

/-- Some answer is not as it should be. -/
def Grounds.Strays (A : Grounds) : List (Event Question Question.Answer R P) → Prop
  | [] => False
  | .answered _ q a :: h => ¬ A.Fits h q a ∨ A.Strays h
  | _ :: h => A.Strays h

/-- Some answer is not as it should be, or the one with a number has read a place that may change. -/
def Grounds.Lost (A : Grounds) (id : Nat) (h : List (Event Question Question.Answer R P)) : Prop :=
  A.Strays h ∨ ∃ path, A.shifting path ∧ .put id (.read path) ∈ h

lemma Grounds.final_strays : Final (R := R) (P := P) A.Strays := by
  intro e h hl
  cases e with
  | answered id q a => exact Or.inr hl
  | begun id r => exact hl
  | put id q => exact hl
  | returned id p => exact hl

lemma Grounds.final_lost (id : Nat) : Final (R := R) (P := P) (A.Lost id) := by
  rintro e h (hl | ⟨path, hp, hmem⟩)
  · exact Or.inl (A.final_strays e h hl)
  · exact Or.inr ⟨path, hp, List.mem_cons_of_mem e hmem⟩

lemma Grounds.lost_of_unfit {id id' : Nat} {q : Question} {a : q.Answer}
    {h : List (Event Question Question.Answer R P)} (ha : ¬ A.Fits h q a) :
    A.Lost id (.answered id' q a :: h) := Or.inl (Or.inl ha)

/-- What builds go by: the outlook of the service, and what becomes of requests for packages. -/
def Grounds.sight (A : Grounds) (w : Users R P) : Outlook × (PackageKey → Except Fault Node) :=
  (w.state.outlook, w.state.cache.supply A.fetch)

/-- Those who pause go on pausing, and what builds go by stays as it is. -/
structure Grounds.Keeps (A : Grounds) (w w' : Users R P) : Prop where
  paused : w'.paused = w.paused
  sight : A.sight w' = A.sight w

lemma Grounds.Keeps.refl (w : Users R P) : A.Keeps w w := ⟨rfl, rfl⟩

lemma Grounds.Keeps.trans {w w' w'' : Users R P} (h : A.Keeps w w') (h' : A.Keeps w' w'') :
    A.Keeps w w'' := ⟨h'.paused.trans h.paused, h'.sight.trans h.sight⟩

/-- The crowd is calm, the permit can be shown any number of times, and the index is as given. -/
structure Serene (φ : Index → Prop) (w : Users R P) : Prop where
  calm : w.Calm
  permit : w.state.permit.checks? = none
  index : φ w.state.index

lemma Serene.of_history {w : Users R P} (hw : Serene φ w)
    (h : List (Event Question Question.Answer R P)) : Serene φ { w with history := h } :=
  ⟨⟨hw.calm.waits, hw.calm.inflight, hw.calm.numbers⟩, hw.permit, hw.index⟩

/-- The circumstances in which a build may be repeated: what it goes by stays as it is, and so does
the index. -/
def repeatable (R P : Type) (A : Grounds) :
    Setting Service Question Question.Answer R P Fault
      (Outlook × (PackageKey → Except Fault Node)) where
  lost := A.Lost
  see := A.sight
  holds := Serene fun _ => True
  blamed _ _ := False
  keeps w w' := A.Keeps w w' ∧ w'.state.index = w.state.index
  final := A.final_lost
  refl w := ⟨.refl w, rfl⟩
  trans h h' := ⟨h.1.trans h'.1, h'.2.trans h.2⟩

lemma permit_of_noted {s t : Service} (h : Noted s t) (hp : s.permit.checks? = none) :
    t.permit = s.permit := by
  rcases h.permit with h | h
  · exact h
  · rw [h, Permit.show, hp]

lemma outlook_of_noted {s t : Service} (h : Noted s t) (hp : s.permit.checks? = none) :
    t.outlook = s.outlook := by
  rw [Service.outlook, h.rest, permit_of_noted h hp]
  rfl

/-- Some place that may change has been found to be there. -/
def Grounds.Found (A : Grounds) (q : Question) (w : Users R P) : Prop :=
  ∃ path id, q = .probe path ∧ A.shifting path ∧
    .answered id (.probe path) (.ok true) ∈ w.history

/-- The circumstances suit plain work that does not change the workspace, but for which it is fatal to
find a place that may change. -/
lemma repeatable_suits :
    (repeatable R P A).Suits (plainly false A.shifting) A.Found where
  rests w hw := hw.calm.resting
  view w v h := congrArg Prod.fst h
  change w s hw hm := by
    have hindex : s.index = w.state.index := by rw [hm.rest]
    have hcache : s.cache = w.state.cache := by rw [hm.rest]
    have hpermit := permit_of_noted hm hw.permit
    refine ⟨⟨hw.calm.noted hm, ?_, trivial⟩, ⟨rfl, ?_⟩, hindex⟩
    · exact hpermit ▸ hw.permit
    · show (s.outlook, s.cache.supply A.fetch) = _
      rw [outlook_of_noted hm hw.permit, hcache]
      rfl
  sees w v s t _ _ h hs ht hv := by
    have hcs : s.cache = w.state.cache := by rw [hs.rest]
    have hct : t.cache = v.state.cache := by rw [ht.rest]
    show (s.outlook, s.cache.supply A.fetch) = (t.outlook, t.cache.supply A.fetch)
    rw [hcs, hct]
    exact congrArg₂ Prod.mk hv (congrArg Prod.snd h)
  answers v q hq := by
    -- an answer that is known beforehand
    have hknown : ∀ a, (∀ (h : List (Event Question Question.Answer R P)) a',
        A.Fits h q a' → a' = a) → ∀ id (w : Users R P), Serene (fun _ => True) w → A.sight w = v → ∀ a',
          A.Lost id (.answered id q a' :: .put id q :: w.history) ∨
          Serene (fun _ => True)
            { w with history := .answered id q a' :: .put id q :: w.history } ∧
          (A.Keeps w { w with history := .answered id q a' :: .put id q :: w.history } ∧
            w.state.index = w.state.index) ∧
          (a' = a ∧ A.sight { w with history := .answered id q a' :: .put id q :: w.history } = v ∨
          (plainly false A.shifting).fatal q a' ∧ A.Found q
            { w with history := .answered id q a' :: .put id q :: w.history }) := by
      intro a ha id w hw hv a'
      by_cases hfit : A.Fits (.put id q :: w.history) q a'
      · exact Or.inr ⟨hw.of_history _, ⟨⟨rfl, rfl⟩, rfl⟩, Or.inl ⟨ha _ _ hfit, hv⟩⟩
      · exact Or.inl (A.lost_of_unfit hfit)
    obtain ⟨hplain, hbusy⟩ := hq
    cases q with
    | probe path =>
      by_cases hp : A.shifting path
      · -- what is found at a place that may change must be read
        refine ⟨.ok false, v, fun id w hw hv a => ?_⟩
        by_cases hfit : A.Fits (.put id (.probe path) :: w.history) (.probe path) a
        · refine Or.inr ⟨hw.of_history _, ⟨⟨rfl, rfl⟩, rfl⟩, ?_⟩
          rcases hfit.2 hp with rfl | ⟨rfl, -⟩
          · exact Or.inr ⟨⟨hp, rfl⟩, path, id, rfl, hp, List.mem_cons_self⟩
          · exact Or.inl ⟨rfl, hv⟩
        · exact Or.inl (A.lost_of_unfit hfit)
      · exact ⟨_, v, hknown _ fun _ _ hfit => hfit.1 hp⟩
    | read path =>
      by_cases hp : A.shifting path
      · exact ⟨.ok "", v, fun id w _ _ a =>
          Or.inl (Or.inr ⟨path, hp, List.mem_cons_of_mem _ List.mem_cons_self⟩)⟩
      · exact ⟨_, v, hknown _ fun _ _ hfit => hfit.2 hp⟩
    | versions name => exact ⟨_, v, hknown _ fun _ _ hfit => hfit⟩
    | write path content => exact nomatch hbusy rfl
    | mkdir path => exact nomatch hbusy rfl
    | files name version => exact nomatch hplain
    | compile sources target context => exact nomatch hplain
  fated_change _ _ _ h := h
  fated_settles := by
    rintro q q' id w ⟨path, id', rfl, hp, hmem⟩ ⟨path', hq, rfl⟩
    cases hq
    exact Or.inr ⟨path, hp, List.mem_cons_self⟩
  fated_again := by
    rintro q id w hw ⟨path, id', rfl, hp, hmem⟩
    refine ⟨⟨.ok true⟩, fun a => ?_⟩
    by_cases hfit : A.Fits (.put id (.probe path) :: w.history) (.probe path) a
    · rcases hfit.2 hp with rfl | ⟨-, hnot⟩
      · exact Or.inr ⟨⟨hp, rfl⟩, hw.of_history _, path, id, rfl, hp, List.mem_cons_self⟩
      · exact absurd (List.mem_cons_of_mem _ hmem) (hnot id')
    · exact Or.inl (A.lost_of_unfit hfit)

/-- The circumstances stay while the shelves and the journal change, and the index in a way that does
not matter. -/
lemma Serene.change {ψ : Index → Prop} {w : Users R P} {s : Service}
    (hw : Serene φ w)
    (hs : s = { w.state with index := s.index, shelves := s.shelves, journal := s.journal })
    (hloads : s.index.loads = w.state.index.loads) (hψ : ψ s.index) :
    Serene ψ { w with state := s } ∧
      A.Keeps w { w with state := s } := by
  refine ⟨⟨⟨fun p hp => ?_, ?_, ?_⟩, ?_, hψ⟩, rfl, ?_⟩
  · obtain ⟨turns, ticket, next, hrest, hnone⟩ := hw.calm.waits p hp
    refine ⟨turns, ticket, next, hrest, ?_⟩
    rw [Index.loadOutcome?, hloads]
    exact hnone
  · show ∀ k, s.cache.inflight.get? k = none
    rw [hs]
    exact hw.calm.inflight
  · show ∀ d ∈ s.delivered, d.1.2 < s.deliveries
    rw [hs]
    exact hw.calm.numbers
  · show s.permit.checks? = none
    rw [hs]
    exact hw.permit
  · show (s.outlook, s.cache.supply A.fetch) = _
    rw [hs]
    rfl

/-! ## Work that goes unnoticed -/

/-- Whatever the workspace answers, the work comes to its end with a result as promised, and leaves
what builds go by as it is. -/
def Unnoticed (R P : Type) (A : Grounds) (φ : Index → Prop) {α : Type} (x : Task α)
    (post : Except Fault α → Prop) : Prop :=
  ∀ me id (w : Users R P), Serene φ w →
    Brings (A.Lost me) id x.run w fun r w' =>
      post r ∧ Serene φ w' ∧ A.Keeps w w'

namespace Unnoticed

variable {α β : Type} {post : Except Fault α → Prop}

lemma pure {a : α} (h : post (.ok a)) : Unnoticed R P A φ (Pure.pure a) post :=
  fun _ _ w hw => .done ⟨h, hw, .refl w⟩

lemma bind {x : Task α} {f : α → Task β} {post' : Except Fault β → Prop}
    (hx : Unnoticed R P A φ x post) (hf : ∀ a, Unnoticed R P A φ (f a) post')
    (he : ∀ f, post (.error f) → post' (.error f)) : Unnoticed R P A φ (x >>= f) post' := by
  intro me id w hw
  refine (hx me id w hw).bind ?_
  rintro (f | a) w' ⟨hr, hw', hk⟩
  · exact .done ⟨he f hr, hw', hk⟩
  · refine (hf a me id w' hw').imp ?_
    rintro r w'' ⟨hr', hw'', hk'⟩
    exact ⟨hr', hw'', hk.trans hk'⟩

/-- If failures of the workspace are answered, what they are answered with is what counts. -/
lemma handle {x : Task α} {k : WorkspaceFault → Task α} {post' : Except Fault α → Prop}
    (hx : Unnoticed R P A φ x post') (hk : ∀ f, Unnoticed R P A φ (k f) post)
    (hr : ∀ r, post' r → (∀ g, r ≠ .error (.workspace g)) → post r) :
    Unnoticed R P A φ (Task.handle x fun | .workspace f => some (k f) | _ => none) post := by
  intro me id w hw
  refine (hx me id w hw).bind ?_
  rintro (f | a) w' ⟨hpost, hw', hkeeps⟩
  · cases f with
    | workspace g =>
      refine (hk g me id w' hw').imp ?_
      rintro r w'' ⟨hr', hw'', hk'⟩
      exact ⟨hr', hw'', hkeeps.trans hk'⟩
    | _ => exact .done ⟨hr _ hpost nofun, hw', hkeeps⟩
  · exact .done ⟨hr _ hpost nofun, hw', hkeeps⟩

lemma put {q : Question} {post : q.Answer → Prop}
    (h : ∀ (h : List (Event Question Question.Answer R P)) a, A.Fits h q a → post a) :
    Unnoticed R P A φ (Work.put q) post := by
  intro me id w hw
  refine Brings.ask (A.final_lost me) ⟨.error .cancelled⟩ hw.calm.resting fun a => ?_
  by_cases hfit : A.Fits (.put id q :: w.history) q a
  · exact Or.inr (.done ⟨h _ _ hfit, hw.of_history _, rfl, rfl⟩)
  · exact Or.inl (A.lost_of_unfit hfit)

/-- A change of the shelves, of the journal and of what is known of the index goes unnoticed. -/
lemma step {f : Service → Service} {k : Service → Work (Except Fault α)}
    (hf : ∀ s, f s = { s with
      index := (f s).index, shelves := (f s).shelves, journal := (f s).journal })
    (hindex : ∀ s, φ s.index → φ (f s).index ∧ (f s).index.loads = s.index.loads)
    (h : ∀ s, Unnoticed R P A φ (ExceptT.mk (k s)) post) :
    Unnoticed R P A φ (ExceptT.mk (.step f k)) post := by
  intro me id w hw
  obtain ⟨hφ, hloads⟩ := hindex w.state hw.index
  obtain ⟨hholds, hkeeps⟩ := Serene.change hw (hf w.state) hloads hφ
  refine Brings.step ((h w.state me id _ hholds).imp ?_)
  rintro r w' ⟨hr, hw', hk⟩
  exact ⟨hr, hw', hkeeps.trans hk⟩

lemma modify {f : Service → Service} {post : Except Fault Unit → Prop} (h : post (.ok ()))
    (hf : ∀ s, f s = { s with
      index := (f s).index, shelves := (f s).shelves, journal := (f s).journal })
    (hindex : ∀ s, φ s.index → φ (f s).index ∧ (f s).index.loads = s.index.loads) :
    Unnoticed R P A φ (Task.work (Routine.modify f)) post :=
  step hf hindex fun _ => pure h

lemma log {post : Except Fault Unit → Prop} (h : post (.ok ())) (r : LogRecord) :
    Unnoticed R P A φ (Task.work (Work.log r)) post :=
  modify h (fun _ => rfl) fun _ h => ⟨h, rfl⟩

lemma probe (path : String) : Unnoticed R P A φ (Work.probe path) FromWorkspace := by
  refine put fun h a hfit f hf => ?_
  by_cases hp : A.shifting path
  · rcases hfit.2 hp with rfl | ⟨rfl, -⟩ <;> cases hf
  · obtain rfl := hfit.1 hp
    cases hprobe : A.probe path with
    | ok b =>
      rw [hprobe] at hf
      cases hf
    | error g =>
      rw [hprobe] at hf
      exact ⟨g, (Except.error.inj hf).symm⟩

lemma write (path content : String) :
    Unnoticed R P A φ (Work.write path content) FromWorkspace := put fun _ _ hfit => hfit

lemma ensureDirectory (path : String) :
    Unnoticed R P A φ (Workspace.ensureDirectory path) FromWorkspace := by
  unfold Workspace.ensureDirectory
  split
  · exact pure nofun
  · refine bind (probe _) (fun there => ?_) fun _ h => h.retype
    split
    · exact put fun _ _ hfit => hfit
    · exact pure nofun

end Unnoticed

lemma unnoticed_writePackage (node : Node) :
    Unnoticed R P A φ (writePackage node) FromWorkspace := by
  have hwrite : ∀ entry : String × String, Unnoticed R P A φ (do
      let s ← Task.work Work.settings
      let place := node.pathFor s entry.1
      Workspace.ensureDirectory place
      Work.write place entry.2) FromWorkspace := by
    intro entry
    refine Unnoticed.step (fun _ => rfl) (fun _ h => ⟨h, rfl⟩) fun s => ?_
    exact Unnoticed.bind (.ensureDirectory _) (fun _ => .write _ _) fun _ h => h
  unfold writePackage
  induction node.files.entries with
  | nil => exact .pure nofun
  | cons entry entries ih => exact Unnoticed.bind (hwrite entry) (fun _ => ih) fun _ h => h

/-- To write a package to the workspace goes unnoticed. -/
lemma unnoticed_materialize (shelf : Nat) (node : Node) :
    Unnoticed R P A φ (materialize shelf node) fun r => r = .ok () := by
  refine Unnoticed.step (fun _ => rfl) (fun _ h => ⟨h, rfl⟩) fun s => ?_
  show Unnoticed R P A φ (ite _ _ _) _
  split
  · exact .pure rfl
  · have hwritten : Unnoticed R P A φ (do
        writePackage node
        Task.work (Routine.modify fun s =>
          { s with shelves := s.shelves.modify shelf fun keys => keys ++ [node.key] }))
        FromWorkspace :=
      Unnoticed.bind (unnoticed_writePackage node)
        (fun _ => .modify nofun (fun _ => rfl) fun _ h => ⟨h, rfl⟩) fun _ h => h
    refine hwritten.handle (fun f => .log (by rfl) _) fun r hr hnot => ?_
    rcases r with f | u
    · obtain ⟨g, rfl⟩ := hr f rfl
      exact absurd rfl (hnot g)
    · rfl

/-- Work whose result does not matter. -/
lemma Unnoticed.bind_any {α β : Type} {x : Task α} {f : α → Task β}
    (hx : Unnoticed R P A φ x fun _ => True) (hf : ∀ a, Unnoticed R P A φ (f a) fun _ => True) :
    Unnoticed R P A φ (x >>= f) fun _ => True :=
  hx.bind hf fun _ _ => trivial

/-- To read the records of the index goes unnoticed. -/
lemma unnoticed_readRecords (path : String) :
    Unnoticed R P A φ (Index.readRecords path) fun _ => True := by
  have hlog : ∀ r, Unnoticed R P A φ (Task.work (Work.log r)) fun _ => True := fun r =>
    .log trivial r
  have hprobe : Unnoticed R P A φ (Work.probe path) fun _ => True := .put fun _ _ _ => trivial
  have hread : Unnoticed R P A φ (Work.read path) fun _ => True := .put fun _ _ _ => trivial
  have hcontent : Unnoticed R P A φ (Workspace.readTwice path) fun _ => True :=
    hread.handle (fun f => (hlog _).bind_any fun _ => hread) fun _ _ _ => trivial
  refine Unnoticed.handle (hprobe.bind_any fun there => ?_)
    (fun f => (hlog _).bind_any fun _ => .pure trivial) fun _ _ _ => trivial
  split
  · refine hcontent.bind_any fun content => ?_
    split
    · exact .pure trivial
    · exact fun _ _ w hw => .done ⟨trivial, hw, .refl w⟩
    · exact (hlog _).bind_any fun _ => .pure trivial
  · exact .pure trivial

end Bundle

end SourceBundle
