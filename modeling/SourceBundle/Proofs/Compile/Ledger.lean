/-
# The ledger of the index

Whatever requests run beside each other, every change of the records of the index is one entry of a
ledger: the load of the file, the reset with which a switch of the workspace begins, or the commit
of a run.  A run is entitled to its commit only while it is current and before its request returns,
and only by a complete traversal; what it has found until then is in no entry.
-/
import SourceBundle.Proofs.Bundle.Navigation
import SourceBundle.Proofs.Compile.Newest
import SourceBundle.Proofs.Compile.Whole
import SourceBundle.Proofs.Routine.Guard
import SourceBundle.Proofs.Service.Play

namespace SourceBundle

/-- Neither the account of the requests nor the records of the index have changed. -/
def Unmoved (s t : Service) : Prop := Kept s t ∧ Still s t

variable {α β ρ : Type} {s s' t : Service} {K : Work Unit → Prop}

lemma unmoved_of_still {x : Work α} (hx : x.Lawful (loud fun _ => True)) (hs : x.Steady Still K) :
    x.Steady Unmoved K :=
  ((hx.steady (fun _ => trivial) fun _ _ => trivial).and hs).imp (fun _ _ h => h) fun _ h => h.2

lemma Routine.Plain.unmoved {x : Work α} {post : α → Prop} (h : x.Plain busily post) :
    x.Steady Unmoved K :=
  h.steady fun _ _ hn => ⟨kept_of_noted hn, still_of_noted hn⟩

namespace Compile

open SourceBundle.Bundle

variable {budget : Nat} {s₀ : Service} {sources bundle : Bundle} {target content : String}
  {given? : Option String} {c c' : Context} {id : Nat} {h h' : List Happening}
  {d d' : IndexData} {w : Crowd Service Question Question.Answer Request Reply}

/-! ## What leaves the index alone -/

lemma still_dropped (c : Context) : (dropped c).Steady Still Helper :=
  (Work.plain_log _).modest.bind fun _ => trivial

lemma still_writeSnapshot (target : String) (bundle : Bundle) :
    Attempt.Steady Still Helper (writeSnapshot target bundle) := by
  refine (Task.steady_work Work.plain_settings.modest).bind fun s => ?_
  refine Task.steady_handle_workspace ?_ fun f => Task.steady_work (Work.plain_log _).modest
  exact (Workspace.plain_ensureDirectory _).modest.bind fun _ _ => trivial

lemma still_forward (sources : Bundle) (c : Context) :
    Attempt.Steady Still Helper (forward sources c) := by
  refine Attempt.Steady.bind (fun _ => trivial) fun v => Task.steady_work ?_
  refine (Work.plain_contextIsCurrent c).modest.bind fun current => ?_
  cases current
  · exact still_dropped c
  · trivial

lemma still_compileBundle (bundle : Bundle) (c : Context) :
    Attempt.Steady Still Helper (compileBundle bundle c) := by
  refine (Task.steady_work (Work.plain_log _).modest).bind fun _ => ?_
  refine (Task.steady_work Work.plain_settings.modest).bind fun s => ?_
  split
  · exact (still_writeSnapshot _ _).bind fun _ => still_forward bundle c
  · exact still_forward bundle c

lemma still_afterResolution (result : Except Fault Bundle) (c : Context) :
    Attempt.Steady Still Helper (afterResolution result c) := by
  cases result with
  | error f =>
    unfold afterResolution
    dsimp only
    split
    · refine Task.steady_work ((Work.plain_contextIsCurrent c).modest.bind fun current => ?_)
      cases current
      · exact still_dropped c
      · exact (Work.plain_log _).modest.bind fun _ => trivial
    · exact Attempt.Steady.throw f
  | ok bundle =>
    refine (Task.steady_work (Work.plain_contextIsCurrent c).modest).bind fun current => ?_
    cases current
    · exact Task.steady_work (still_dropped c)
    · exact still_compileBundle bundle c

lemma unmoved_load : Attempt.Steady Unmoved Helper Index.load :=
  unmoved_of_still (loud_of_quiet Index.lawful_load) Index.modest_load

lemma unmoved_save : Attempt.Steady Unmoved Helper Index.save :=
  unmoved_of_still (loud_of_quiet Index.lawful_save) Index.modest_save

lemma unmoved_navigate (file? : Option String) (literal : String) :
    Attempt.Steady Unmoved Helper (navigate file? literal) := by
  refine unmoved_of_still (loud_of_quiet (lawful_navigate file? literal)) ?_
  refine Index.modest_load.bind fun _ => (Task.steady_work (modest_gets _)).bind fun i => ?_
  split
  · exact Attempt.Steady.pure _
  · exact Attempt.Steady.pure _

/-! ## The ledger -/

/-- The records are those of the index file, as an answer tells; none if nothing is read from it. -/
def Persisted (path : String) (h : List Happening) (d : IndexData) : Prop :=
  d = ∅ ∨ ∃ id content, .answered id (.read path) (.ok content) ∈ h ∧
    IndexData.parse content = .ok d

/-- At a point of the history a run is entitled to commit: it is that of a compile request that has
not returned, nothing that has happened since it began ends it, and its traversal is complete and
has left it as it is. -/
def Entitled (s₀ : Service) (h : List Happening) (id : Nat) (c : Context) : Prop :=
  ∃ sources target mid earlier, h = mid ++ .begun id (.compile sources target) :: earlier ∧
    Unreturned id h ∧ (¬ ∃ e ∈ mid, Supersedes target e) ∧
    ∃ b content rules ls first t v t' v', Accord s₀ earlier first ∧
      StartsFrom (Crowd.terms SameSettings id h) (sources.get? target) target content ∧
      Went (Crowd.terms SameSettings id h) b target content (beginRun target first).1 rules ls true
        t v t' v' ∧ Traversal.SameNotes { context := (beginRun target first).1 } t ∧
      c = { t'.context with bundle? := some t'.bundle }

/-- How the records of the index have come about since a given state. -/
inductive Ledger (s₀ : Service) : List Happening → IndexData → Prop
  /-- What there was at the beginning. -/
  | start : Ledger s₀ [] s₀.index.data
  /-- Something happens that does not change them. -/
  | note {h : List Happening} {d : IndexData} (e : Happening) : Ledger s₀ h d → Ledger s₀ (e :: h) d
  /-- The file has been read, and its records are entered where there is none. -/
  | load {h : List Happening} {d d' : IndexData} : Ledger s₀ h d → Persisted s₀.index.path h d' →
    Ledger s₀ h (Index.overlay d' d)
  /-- A switch of the workspace begins by forgetting them. -/
  | reset {h : List Happening} {d : IndexData} {id : Nat} : Ledger s₀ h d →
    Ledger s₀ (.begun id .switch :: h) ∅
  /-- A run commits. -/
  | commit {h : List Happening} {i : Index} {id : Nat} {c : Context} : Ledger s₀ h i.data →
    Entitled s₀ h id c → Ledger s₀ h (c.commit i).data

/-- The service is in accord with the history, and the ledger of its index is complete. -/
structure Booked (s₀ : Service) (h : List Happening) (s : Service) : Prop where
  accord : Accord s₀ h s
  path : s.index.path = s₀.index.path
  ledger : Ledger s₀ h s.index.data

lemma Booked.of_unmoved (hb : Booked s₀ h s) (hu : Unmoved s t) : Booked s₀ h t where
  accord := hb.accord.of_kept hu.1
  path := hu.2.path.trans hb.path
  ledger := hu.2.data ▸ hb.ledger

lemma Booked.note (hb : Booked s₀ h s) {e : Happening} (he : ∀ id r, e ≠ .begun id r) :
    Booked s₀ (e :: h) s :=
  ⟨hb.accord.note he, hb.path, .note e hb.ledger⟩

/-! ## The load -/

lemma persisted_of_readRecords {path : String}
    (hr : Attempt.Ends (Crowd.terms SameSettings id h) (Index.readRecords path) s (.ok d) s') :
    Persisted path h d := by
  rcases Task.ends_handle.mp hr with ⟨_, hread, ⟨⟩⟩ | ⟨f, v, -, hf⟩
  · obtain ⟨there, v, -, h₁⟩ := Attempt.ends_bind_ok.mp hread
    cases there with
    | false => exact Or.inl (Except.ok.inj h₁.1).symm
    | true =>
      obtain ⟨content, u, hc, h₂⟩ := Attempt.ends_bind_ok.mp h₁
      have hanswer := Workspace.answer_of_readTwice hc
      split at h₂
      · next d' hd =>
        obtain rfl := Except.ok.inj h₂.1
        exact Or.inr ⟨id, content, hanswer, hd⟩
      · exact absurd h₂ Attempt.not_ends_throw
      · obtain ⟨_, _, -, h₃⟩ := Attempt.ends_bind_ok.mp h₂
        exact Or.inl (Except.ok.inj h₃.1).symm
  · cases f with
    | workspace f =>
      obtain ⟨_, _, -, h₁⟩ := Attempt.ends_bind_ok.mp hf
      exact Or.inl (Except.ok.inj h₁.1).symm
    | _ => exact absurd hf Attempt.not_ends_throw

/-! ## What guards the ledger -/

lemma guarded_of_helps
    (hK : ∀ child, K child → ∀ n h s, Unreturned n h → Booked s₀ h s →
      child.Guards (Booked s₀) n h s fun _ _ _ => True) :
    Routine.Guarded (Booked s₀) SameSettings Unmoved K where
  keeps _ _ _ hb hu := hb.of_unmoved hu
  related _ _ _ _ hb hb' := hb'.accord.settings.trans hb.accord.settings.symm
  helps := hK

/-- A load enters the records of the file in one step, and else changes nothing. -/
lemma guards_runLoad (ticket : Nat) (hu : Unreturned id h) (hb : Booked s₀ h s) :
    (Index.runLoad ticket).Guards (Booked s₀) id h s fun _ _ _ => True := by
  have hg : Routine.Guarded (Booked s₀) SameSettings Unmoved fun _ => False :=
    guarded_of_helps fun _ hf => hf.elim
  have hloads : ∀ outcome, (Index.change fun i =>
      { i with loads := (ticket, outcome) :: i.loads }).Steady Unmoved fun _ => False :=
    fun outcome s => ⟨⟨⟨rfl, rfl, rfl⟩, ⟨rfl, rfl⟩⟩, trivial⟩
  have hrest : (do
      let files ← Routine.gets (·.index.data.size)
      Work.log (.indexLoaded files)
      Index.change fun i => { i with loads := (ticket, .ok ()) :: i.loads } :
        Work Unit).Steady Unmoved fun _ => False :=
    fun s => ⟨⟨⟨rfl, rfl, rfl⟩, ⟨rfl, rfl⟩⟩, (Work.plain_log _).unmoved.bind fun _ => hloads _⟩
  refine ⟨hb, ?_⟩
  show ((Index.readRecords s.index.path).run.bind _).Guards (Booked s₀) id h s _
  have hread := (Index.plain_readRecords s.index.path).unmoved (K := fun _ => False)
  refine Routine.Guards.bind (hread.guards hg hb hu fun r h' s' _ hu' hb' he => ?_)
  cases r with
  | error f => exact (hloads _).guards hg hb' hu' fun _ _ _ _ _ _ _ => trivial
  | ok d =>
    have hd : Persisted s₀.index.path h' d := hb.path ▸ persisted_of_readRecords he
    have hloaded : Booked s₀ h' { s' with index := s'.index.finishLoad d } :=
      ⟨hb'.accord.of_kept ⟨rfl, rfl, rfl⟩, hb'.path, .load hb'.ledger hd⟩
    refine Routine.Guards.bind ⟨hloaded, ?_⟩
    exact hrest.guards hg hloaded hu' fun _ _ _ _ _ _ _ => trivial

/-- All that the requests start guards the ledger. -/
lemma guarded (s₀ : Service) : Routine.Guarded (Booked s₀) SameSettings Unmoved Helper := by
  refine guarded_of_helps fun child hchild n h s hu hb => ?_
  cases hchild with
  | load ticket => exact guards_runLoad ticket hu hb
  | delivery key delivery =>
    have hdeliver : (Cache.deliver key delivery).Steady Unmoved fun _ => False :=
      unmoved_of_still (loud_of_quiet (Cache.lawful_deliver _ _)) (Cache.still_deliver _ _)
    exact hdeliver.guards (guarded_of_helps fun _ hf => hf.elim) hb hu fun _ _ _ _ _ _ _ => trivial

lemma guards_of_steady {x : Work α} (hx : x.Steady Unmoved Helper) (hu : Unreturned id h)
    (hb : Booked s₀ h s) : x.Guards (Booked s₀) id h s fun _ _ _ => True :=
  hx.guards (guarded s₀) hb hu fun _ _ _ _ _ _ _ => trivial

/-- A steady part of a run guards the ledger, and what comes after it begins in a state to which one
of its walks leads. -/
lemma guards_bind_steady {x : Stateful ρ α} {f : α → Stateful ρ β} {t : ρ}
    (hx : Run.Steady Unmoved Helper x) (hu : Unreturned id h) (hb : Booked s₀ h s)
    (hf : ∀ a t' h' s', h <:+ h' → Unreturned id h' → Booked s₀ h' s' →
      Run.Ends (Crowd.terms SameSettings id h') x t s (.ok a) t' s' →
      ((f a).run t').Guards (Booked s₀) id h' s' fun _ _ _ => True) :
    ((x >>= f).run t).Guards (Booked s₀) id h s fun _ _ _ => True := by
  refine Run.guards_bind ((hx t).guards (guarded s₀) hb hu ?_)
  rintro ⟨r, t'⟩ h' s' hh hu' hb' he a rfl
  exact hf a t' h' s' hh hu' hb' he

/-- A commit to which a run is entitled while it is current guards the ledger. -/
lemma guards_commit (hc : c.Numbered) (hu : Unreturned id h) (hb : Booked s₀ h s)
    (he : ∀ h' s', h <:+ h' → Unreturned id h' → Booked s₀ h' s' → c.CurrentIn s' →
      Entitled s₀ h' id c) :
    (commit c).Guards (Booked s₀) id h s fun _ _ _ => True := by
  have hcheck := (Work.plain_contextIsCurrent c).unmoved (K := Helper)
  refine Routine.Guards.bind (hcheck.guards (guarded s₀) hb hu fun current h' s' hh hu' hb' hw => ?_)
  cases current with
  | false =>
    exact Routine.Guards.bind ((Work.plain_log _).unmoved.guards (guarded s₀) hb' hu'
      fun _ _ _ _ _ _ _ => trivial)
  | true =>
    -- there is no pause between the check and the commit
    have hcur : c.CurrentIn s' := (Work.check_of_ends hc hw).2.mp rfl
    have hcommitted : Booked s₀ h' { s' with index := c.commit s'.index } :=
      ⟨hb'.accord.of_kept ⟨rfl, rfl, rfl⟩, (congrArg Index.path (c.rewritten_commit s'.index)).trans hb'.path,
        .commit hb'.ledger (he h' s' hh hu' hb' hcur)⟩
    exact ⟨hcommitted, trivial⟩

/-- To finish a traversal guards the ledger if the run is entitled to commit while it is current. -/
lemma guards_finish {b : Builder} {t : Traversal} (hc : t.context.Numbered)
    (hu : Unreturned id h) (hb : Booked s₀ h s)
    (he : ∀ h' s', h <:+ h' → Unreturned id h' → Booked s₀ h' s' → t.context.CurrentIn s' →
      Entitled s₀ h' id { t.context with bundle? := some t.bundle }) :
    ((finish b target).run t).Guards (Booked s₀) id h s fun _ _ _ => True := by
  refine Run.guards_bind ?_
  rintro _ ⟨⟩
  refine Run.guards_bind ?_
  rintro _ ⟨⟩
  refine guards_bind_steady (Stateful.steady_work (Work.plain_log _).unmoved) hu hb ?_
  intro _ t' h' s' hh hu' hb' hlog
  obtain ⟨_, -, -, rfl⟩ := Stateful.ends_work.mp hlog
  refine Run.guards_bind ?_
  rintro _ ⟨⟩
  split
  · refine Run.guards_bind ?_
    refine Routine.Guards.bind ((guards_commit (c := { t.context with bundle? := some t.bundle }) hc
      hu' hb' fun h'' s'' hh' => he h'' s'' (hh.trans hh')).keeps hu' hb' |>.imp ?_)
    rintro committed h'' s'' ⟨-, -, hu'', hb''⟩ _ ⟨⟩
    cases committed with
    | false => trivial
    | true => exact guards_bind_steady (Run.Steady.lift unmoved_save) hu'' hb'' fun _ _ _ _ _ _ _ _ => trivial
  · trivial

/-- A traversal that has been prepared for a run and come to a complete end entitles the run to
commit, at any later point at which it is current. -/
lemma entitled_of_parts {b : Builder} {rules : List Import.Remapping} {first v v' : Service}
    {t t' : Traversal} {earlier : List Happening} (hfirst : Accord s₀ earlier first)
    (hstart : StartsFrom (Crowd.terms SameSettings id h) (sources.get? target) target content)
    (hs : s.settings = s₀.settings)
    (hp : Run.Ends (Crowd.terms SameSettings id h) (prepare b target content)
      { context := (beginRun target first).1 } s (.ok rules) t v)
    (ht : Run.Ends (Crowd.terms SameSettings id h) (traverse b.shelf rules target budget 0 [target])
      t v (.ok true) t' v')
    (hh : .begun id (.compile sources target) :: earlier <:+ h) :
    t'.context.Numbered ∧ ∀ h' s', h <:+ h' → Unreturned id h' → Booked s₀ h' s' →
      t'.context.CurrentIn s' →
        Entitled s₀ h' id { t'.context with bundle? := some t'.bundle } := by
  have hmeet := meet_terms s₀ id h
  have hrun : (beginRun target first).1.SameRun t'.context := by
    have hprepared := (sameRun_prepare b target content).ends hmeet hs hp
    exact trans_of Context.SameRun hprepared.1
      ((sameRun_traverse _ _ _ _ _ _).ends hmeet hprepared.2 ht).1
  refine ⟨hrun.numbered (numbered_beginRun target first), fun h' s' hh' hu hb hcur => ?_⟩
  -- what was noticed until the traversal ended is still known
  have hmono := Crowd.terms_within SameSettings id hh'.subset
  obtain ⟨-, hnotes, ls, hwent⟩ := exists_went_of_parts (meet_terms s₀ id h') hs
    (Routine.ends_mono hp hmono) (Routine.ends_mono ht hmono)
  obtain ⟨mid, rfl⟩ := hh.trans hh'
  refine ⟨sources, target, mid, earlier, rfl, hu, ?_, b, content, rules, ls, first, t, v, t', v',
    hfirst, hstart.imp_right (And.imp_right (hmono.answer _ _)), hwent, hnotes, rfl⟩
  exact (currentIn_iff hfirst hb.accord).mp ((hrun.currentIn_iff s').mp hcur)

lemma unmoved_prepare (b : Builder) (entry content : String) :
    Run.Steady Unmoved Helper (prepare b entry content) := fun t =>
  unmoved_of_still (loud_of_quiet (.of_obeys (sameRun_prepare b entry content t)))
    (modest_prepare b entry content t)

lemma unmoved_traverse (shelf : Nat) (rules : List Import.Remapping) (entry : String)
    (budget depth : Nat) (level : List String) :
    Run.Steady Unmoved Helper (traverse shelf rules entry budget depth level) := fun t =>
  unmoved_of_still (loud_of_quiet (.of_obeys (sameRun_traverse shelf rules entry budget depth level t)))
    (modest_traverse shelf rules entry budget depth level t)

/-- The build of a run that a request has begun guards the ledger. -/
lemma guards_build {b : Builder} {first : Service} {earlier : List Happening}
    (hfirst : Accord s₀ earlier first)
    (hstart : StartsFrom (Crowd.terms SameSettings id h) (sources.get? target) target content)
    (hh : .begun id (.compile sources target) :: earlier <:+ h) (hu : Unreturned id h)
    (hb : Booked s₀ h s) :
    (build b budget target content (beginRun target first).1).Guards (Booked s₀) id h s
      fun _ _ _ => True := by
  suffices hrun : ((run b budget target content).run
      { context := (beginRun target first).1 }).Guards (Booked s₀) id h s fun _ _ _ => True from
    Routine.Guards.bind (hrun.imp fun _ _ _ _ => trivial)
  refine guards_bind_steady (unmoved_prepare _ _ _) hu hb fun rules t h₁ v hh₁ hu₁ hb₁ hp => ?_
  refine guards_bind_steady (unmoved_traverse _ _ _ _ _ _) hu₁ hb₁
    fun complete t' h₂ v' hh₂ hu₂ hb₂ ht => ?_
  cases complete with
  | false => trivial
  | true =>
    have hmono := Crowd.terms_within SameSettings id (hh₁.trans hh₂).subset
    obtain ⟨hn, he⟩ := entitled_of_parts hfirst
      (hstart.imp_right (And.imp_right (hmono.answer _ _))) hb.accord.settings
      (Routine.ends_mono hp (Crowd.terms_within SameSettings id hh₂.subset)) ht
      (hh.trans (hh₁.trans hh₂))
    exact Run.guards_bind ((guards_finish hn hu₂ hb₂ he).imp fun _ _ _ _ _ _ => trivial)

lemma guards_resolve {first : Service} {earlier : List Happening}
    (hfirst : Accord s₀ earlier first)
    (hh : .begun id (.compile sources target) :: earlier <:+ h) (hu : Unreturned id h)
    (hb : Booked s₀ h s) :
    (resolve budget (sources.get? target) (beginRun target first).1).Guards (Booked s₀) id h s
      fun _ _ _ => True := by
  have hentry : Attempt.Steady Unmoved Helper (entryContent (sources.get? target) target) := by
    cases sources.get? target with
    | none => exact Routine.Plain.unmoved (Workspace.plain_readTwice target)
    | some content => exact Attempt.Steady.pure content
  refine Routine.Guards.bind (hentry.guards (guarded s₀) hb hu fun r h₁ s₁ hh₁ hu₁ hb₁ he => ?_)
  cases r with
  | error f => trivial
  | ok content =>
    have hbuilder : (Routine.gets currentBuilder).Steady Unmoved Helper :=
      fun s => ⟨⟨refl_of Kept s, refl_of Still s⟩, trivial⟩
    refine Routine.Guards.bind (hbuilder.guards (guarded s₀) hb₁ hu₁
      fun b h₂ s₂ hh₂ hu₂ hb₂ _ => ?_)
    have hmono := Crowd.terms_within SameSettings id hh₂.subset
    refine guards_build hfirst ?_ (hh.trans (hh₁.trans hh₂)) hu₂ hb₂
    exact (startsFrom_of_entryContent he).imp_right (And.imp_right (hmono.answer _ _))

/-- A compile request that has begun guards the ledger. -/
lemma guards_compileRun {first : Service} {earlier : List Happening}
    (hfirst : Accord s₀ earlier first)
    (hh : .begun id (.compile sources target) :: earlier <:+ h) (hu : Unreturned id h)
    (hb : Booked s₀ h s) :
    (compileRun budget sources target (beginRun target first).1).run.Guards (Booked s₀) id h s
      fun _ _ _ => True := by
  unfold compileRun
  split
  · refine Attempt.guards_bind (Routine.Guards.bind
      ((guards_resolve hfirst hh hu hb).keeps hu hb |>.imp ?_))
    rintro ⟨r, c'⟩ h' s' ⟨-, -, hu', hb'⟩ _ ⟨⟩
    exact guards_of_steady (unmoved_of_still (lawful_afterResolution r c')
      (still_afterResolution r c')) hu' hb'
  · refine guards_of_steady (unmoved_of_still ?_ ?_) hu hb
    · exact Attempt.Lawful.bind (loud_of_quiet (Task.lawful_work (Work.lawful_log _))) fun _ =>
        lawful_forward sources _
    · exact Attempt.Steady.bind (Task.steady_work (Work.plain_log _).modest) fun _ =>
        still_forward sources _

/-- The requests uphold the ledger. -/
theorem upholds_booked (budget : Nat) (s₀ : Service) :
    Crowd.Upholds (work budget) (Booked s₀) where
  notes e h s he hb := hb.note he
  begins r := by
    cases r with
    | compile sources target =>
      refine ⟨_, _, rfl, fun id h s hu hb => ?_⟩
      have hbegun : Booked s₀ (.begun id (.compile sources target) :: h) (beginRun target s).2 :=
        ⟨hb.accord.compile id sources target, hb.path, .note _ hb.ledger⟩
      refine ⟨hbegun, Routine.Guards.bind ?_⟩
      refine (guards_compileRun hb.accord List.suffix_rfl ?_ hbegun).imp fun _ _ _ _ => trivial
      exact fun p hp => hu p (by simpa using hp)
    | switch =>
      refine ⟨_, _, rfl, fun id h s hu hb => ?_⟩
      have hbegun : Booked s₀ (.begun id .switch :: h) (switchWorkspace s) :=
        ⟨hb.accord.switch id, hb.path, .note _ hb.ledger⟩
      -- there is no pause before the records are forgotten
      have hreset : Booked s₀ (.begun id .switch :: h)
          { switchWorkspace s with index := (switchWorkspace s).index.forget } :=
        ⟨hbegun.accord.of_kept ⟨rfl, rfl, rfl⟩, hb.path, .reset hb.ledger⟩
      refine ⟨hbegun, hreset, ?_⟩
      have hrest : Attempt.Steady Unmoved Helper (do
          Index.load
          Task.work (Work.log .workspaceChanged)) :=
        unmoved_load.bind fun _ => Task.steady_work (Work.plain_log _).unmoved
      have hreturn : ((do
          Index.load
          Task.work (Work.log .workspaceChanged) : Task Unit).run.bind fun r =>
            (.done (.switched r) : Work Reply)).Steady Unmoved Helper :=
        Routine.Steady.bind hrest fun _ => trivial
      exact guards_of_steady hreturn (fun p hp => hu p (by simpa using hp)) hreset
    | navigate file? literal =>
      refine ⟨_, _, rfl, fun id h s hu hb => ?_⟩
      have hsteady : (work budget (.navigate file? literal)).Steady Unmoved Helper :=
        Routine.Steady.bind (unmoved_navigate file? literal) fun _ => trivial
      obtain ⟨hfirst, hnext⟩ := hsteady s
      have hbegun : Booked s₀ (.begun id (.navigate file? literal) :: h) s :=
        ⟨hb.accord.navigate id file? literal, hb.path, .note _ hb.ledger⟩
      refine ⟨hbegun.of_unmoved hfirst, guards_of_steady hnext ?_ (hbegun.of_unmoved hfirst)⟩
      exact fun p hp => hu p (by simpa using hp)

/-! ## Where records come from -/

/-- A record stands for something: it was there at the beginning, it is one of the index file, or a
run was entitled to commit it. -/
def Vouched (s₀ : Service) (h : List Happening) (file literal path : String) : Prop :=
  s₀.index.lookup file literal = some path ∨
    (∃ d, Persisted s₀.index.path h d ∧ d.find? file literal = some path) ∨
    ∃ before id c, before <:+ h ∧ Entitled s₀ before id c ∧ c.recordOf file literal = some path

lemma Vouched.mono {file literal path : String} (hv : Vouched s₀ h file literal path)
    (hh : h <:+ h') : Vouched s₀ h' file literal path := by
  rcases hv with hv | ⟨d, rfl | ⟨id, content, hmem, hd⟩, hv⟩ | ⟨before, id, c, hb, hv⟩
  · exact Or.inl hv
  · exact nomatch hv
  · exact Or.inr (Or.inl ⟨d, Or.inr ⟨id, content, hh.subset hmem, hd⟩, hv⟩)
  · exact Or.inr (Or.inr ⟨before, id, c, hb.trans hh, hv⟩)

lemma Entitled.proper (he : Entitled s₀ h id c) : c.Proper := by
  obtain ⟨sources, target, mid, earlier, -, -, -, b, content, rules, ls, first, t, v, t', v', -, -,
    hwent, hnotes, rfl⟩ := he
  exact hwent.proper hnotes.records

/-- All records of a ledger are vouched for. -/
theorem Ledger.vouched (hl : Ledger s₀ h d) {file literal path : String}
    (hd : d.find? file literal = some path) : Vouched s₀ h file literal path := by
  induction hl with
  | start => exact Or.inl hd
  | note e _ ih => exact (ih hd).mono (List.suffix_cons e _)
  | @load h d d' _ hp ih =>
    rw [Index.find?_overlay] at hd
    rcases Option.or_eq_some_iff.mp hd with hd | ⟨-, hd⟩
    · exact ih hd
    · exact Or.inr (Or.inl ⟨d', hp, hd⟩)
  | reset => exact nomatch hd
  | @commit h i id c _ he ih =>
    have hlookup : (c.commit i).lookup file literal = some path := hd
    rw [Context.lookup_commit he.proper] at hlookup
    split at hlookup
    · exact Or.inr (Or.inr ⟨h, id, c, List.suffix_rfl, he, hlookup⟩)
    · exact ih hlookup

/-- A workspace with one file, and an index that has been loaded. -/
def plainWorld : Scenario.World where
  service := { settings := {}, index := { path := "index.json", loaded := true } }
  store := .memory (.ofFiles [("b.sol", "")])
  catalog := ∅
  failures := []
  cues := []
  builder := ⟨0, none, true⟩
  budget := 8

/-- A source that imports this file. -/
def plainSources : Bundle := Table.empty.insert "a.sol" "import \"./b.sol\";"

/-- The request to compile this source. -/
def plainRequest : Request := .compile plainSources "a.sol"

/-- The request, played until the compiler is asked. -/
def plainPlay : Option (Crowd Service Question Question.Answer Request Reply) :=
  Crowd.play plainWorld (List.replicate 9 0)
    (Crowd.call (work plainWorld.budget) { state := plainWorld.service } plainRequest)

/-- The same request comes again while the compiler is at work on the first one, which returns
then. -/
def overtakenPlay : Option (Crowd Service Question Question.Answer Request Reply) :=
  plainPlay.bind fun w => Crowd.play plainWorld [1] (w.call (work plainWorld.budget) plainRequest)

/-- Whether a happening is the return of no request, or that of a compile request that has failed or
was superseded. -/
def isVain : Happening → Bool
  | .returned _ (.compiled (.ok o)) => o.superseded
  | .returned _ (.compiled (.error _)) => true
  | .returned _ _ => false
  | _ => true

end Compile

end SourceBundle
