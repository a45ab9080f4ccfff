/-
# What the work below the requests leaves alone

Loading the index, fetching packages and reading the workspace change many parts of the service,
but never the settings, the generations or the epoch, and they put no question to the compiler.
The law `quiet` says this, and every routine of these parts obeys it.  The parts that do not write to
the workspace obey every law that is lenient enough.
-/
import SourceBundle.Cache.Fetch
import SourceBundle.Proofs.Service.Plain

namespace SourceBundle

/-- What decides which requests are current, and the settings, are the same in two states. -/
structure Kept (s t : Service) : Prop where
  settings : t.settings = s.settings
  generations : t.generations = s.generations
  epoch : t.epoch = s.epoch

instance : IsPreorder Service Kept where
  refl _ := ⟨rfl, rfl, rfl⟩
  trans _ _ _ h h' := ⟨h'.1.trans h.1, h'.2.trans h.2, h'.3.trans h.3⟩

/-- Whether a question is one to the compiler. -/
def Question.isCompile : Question → Bool
  | .compile _ _ _ => true
  | _ => false

/-- The law of the work below the requests, in whatever states it is done: it leaves alone what it
should, and does not ask the compiler. -/
def quiet (S : Service → Prop) : Law Service Question Question.Answer where
  state := S
  answer _ _ := True
  change := Kept
  question q := q.isCompile = false
  helped q := q.isCompile = false

/-- The law without any demand on the states is met on all terms. -/
lemma meet_quiet (T : Terms Service Question Question.Answer) :
    T.Meet (quiet fun _ => True) where
  own _ _ _ _ := trivial
  others _ _ _ _ := trivial
  answer _ _ _ := trivial

/-- The law allows changes that leave alone what the work below the requests leaves alone, and all
questions that change nothing and are not put to the compiler, also to those who are started. -/
class Lenient (L : Law Service Question Question.Answer) : Prop where
  change : ∀ s t, Kept s t → L.change s t
  question : ∀ q : Question, q.changes = false → q.isCompile = false → L.question q
  helped : ∀ q : Question, q.changes = false → q.isCompile = false → L.helped q

variable {L : Law Service Question Question.Answer} {S : Service → Prop} {α ρ : Type}

instance : Lenient (quiet S) := ⟨fun _ _ h => h, fun _ _ h => h, fun _ _ h => h⟩

instance [h : Lenient L] : Lenient L.forHelpers := ⟨h.change, h.helped, h.helped⟩

/-! ## Plain work -/

lemma kept_of_noted {s t : Service} (h : Noted s t) : Kept s t := by
  rw [h.rest]
  exact ⟨rfl, rfl, rfl⟩

lemma Question.not_compile_of_plain {q : Question} (h : q.isPlain = true) : q.isCompile = false := by
  cases q <;> first | rfl | exact nomatch h

/-- Plain work that does not write obeys every lenient law. -/
lemma Routine.Plain.lenient [Lenient L] {x : Work α} {post : α → Prop}
    (h : x.Plain (plainly false fun _ => False) post) : x.Obeys L post := by
  refine h.obeys (fun _ _ hn => Lenient.change _ _ (kept_of_noted hn)) fun q hq => ?_
  exact Lenient.question q (by simpa using hq.2) (Question.not_compile_of_plain hq.1)

/-- Plain work is quiet. -/
lemma Routine.Plain.quiet {x : Work α} {post : α → Prop} (h : x.Plain busily post) :
    x.Obeys (quiet S) post :=
  h.obeys (fun _ _ => kept_of_noted) fun _ hq => Question.not_compile_of_plain hq.1

lemma Attempt.Plain.lawful {x : Task α} (h : Attempt.Plain busily x) :
    Attempt.Lawful (quiet S) x :=
  Routine.Plain.quiet h

lemma Run.Plain.quiet {I : ρ → ρ → Prop} {x : Stateful ρ α} (h : Run.Plain busily I x) :
    Run.Keeps (quiet S) I x :=
  fun t => Routine.Plain.quiet (h t)

/-- A walk through plain work ends as promised. -/
lemma Run.Plain.ends {T : Terms Service Question Question.Answer} {I : ρ → ρ → Prop}
    {x : Stateful ρ α} {t t' : ρ} {s s' : Service} {r : Except Fault α}
    (h : Run.Plain busily I x) (hT : T.Meet (SourceBundle.quiet S)) (hs : S s)
    (hx : Run.Ends T x t s r t' s') : I t t' ∧ S s' :=
  h.quiet.ends hT hs hx

/-! ## Single steps -/

section Steps

variable [Lenient L]

/-- A change that leaves alone what it should is lawful. -/
lemma lawful_modify {f : Service → Service} (h : ∀ s, Kept s (f s)) :
    (Routine.modify f : Work Unit).Lawful L :=
  Routine.Lawful.modify fun s _ => Lenient.change _ _ (h s)

lemma lawful_modifyGet {f : Service → α × Service} (h : ∀ s, Kept s (f s).2) :
    (Routine.modifyGet f : Work α).Lawful L :=
  Routine.Lawful.modifyGet fun s _ => Lenient.change _ _ (h s)

lemma lawful_gets (f : Service → α) : (Routine.gets f : Work α).Lawful L :=
  Routine.Lawful.gets fun s _ => Lenient.change _ _ (refl_of Kept s)

end Steps

/-! ## The ways to do a part of the work -/

section Parts

lemma Task.lawful_work {x : Work α} (hx : x.Lawful L) : Attempt.Lawful L (Task.work x) :=
  Routine.Lawful.bind hx fun _ => trivial

lemma Task.lawful_handle {x : Task α} {h : Fault → Option (Task α)} (hx : Attempt.Lawful L x)
    (hh : ∀ f y, h f = some y → Attempt.Lawful L y) : Attempt.Lawful L (Task.handle x h) := by
  refine Attempt.Lawful.tryCatch hx fun f => ?_
  cases hf : h f with
  | none => exact Attempt.Lawful.throw f
  | some y => exact hh f y hf

/-- To answer failures of the workspace is lawful if the answers are. -/
lemma Task.lawful_handle_workspace {x : Task α} {k : WorkspaceFault → Task α}
    (hx : Attempt.Lawful L x) (hk : ∀ f, Attempt.Lawful L (k f)) :
    Attempt.Lawful L (Task.handle x fun | .workspace f => some (k f) | _ => none) := by
  refine Task.lawful_handle hx fun f y hf => ?_
  split at hf
  · next f =>
    obtain rfl := Option.some.inj hf
    exact hk f
  · exact nomatch hf

variable {I : ρ → ρ → Prop} [IsPreorder ρ I]

lemma Stateful.keeps_work {x : Work α} (hx : x.Lawful L) :
    Run.Keeps L I (Stateful.work x : Stateful ρ α) :=
  fun t => Routine.Obeys.bind hx fun _ _ => refl_of I t

lemma Stateful.keeps_task {x : Task α} (hx : Attempt.Lawful L x) :
    Run.Keeps L I (Stateful.task x : Stateful ρ α) :=
  Run.Keeps.lift (refl_of I) hx

end Parts

/-! ## Walks through the parts -/

section Walks

variable {T : Terms Service Question Question.Answer} {s s' : Service} {t t' : ρ}

lemma Task.ends_work {x : Work α} {r : Except Fault α} :
    Attempt.Ends T (Task.work x) s r s' ↔ ∃ a, x.Ends T s a s' ∧ r = .ok a := by
  unfold Attempt.Ends
  show (x.bind fun a => .done (.ok a)).Ends T s r s' ↔ _
  rw [Routine.ends_bind]
  constructor
  · rintro ⟨a, v, hx, rfl, rfl⟩
    exact ⟨a, hx, rfl⟩
  · rintro ⟨a, hx, rfl⟩
    exact ⟨a, s', hx, rfl, rfl⟩

lemma Stateful.ends_work {x : Work α} {r : Except Fault α} :
    Run.Ends T (Stateful.work x : Stateful ρ α) t s r t' s' ↔
      ∃ a, x.Ends T s a s' ∧ r = .ok a ∧ t' = t := by
  unfold Run.Ends
  show (x.bind fun a => .done (.ok a, t)).Ends T s (r, t') s' ↔ _
  rw [Routine.ends_bind]
  constructor
  · rintro ⟨a, v, hx, h, rfl⟩
    obtain ⟨rfl, rfl⟩ := Prod.mk.inj h
    exact ⟨a, hx, rfl, rfl⟩
  · rintro ⟨a, hx, rfl, rfl⟩
    exact ⟨a, s', hx, rfl, rfl⟩

lemma Work.ends_gets {f : Service → α} {a : α} :
    (Routine.gets f : Work α).Ends T s a s' ↔ T.own s s ∧ a = f s ∧ s' = s := by
  constructor
  · rintro ⟨ho, ha, hs⟩
    exact ⟨ho, ha.symm, hs.symm⟩
  · rintro ⟨ho, rfl, rfl⟩
    exact ⟨ho, rfl, rfl⟩

lemma Stateful.ends_settings {st : Settings} :
    Run.Ends T (Stateful.work Work.settings : Stateful ρ Settings) t s (.ok st) t' s' ↔
      T.own s s ∧ st = s.settings ∧ s' = s ∧ t' = t := by
  rw [Stateful.ends_work]
  constructor
  · rintro ⟨a, ha, h, rfl⟩
    obtain rfl := Except.ok.inj h
    obtain ⟨ho, rfl, rfl⟩ := Work.ends_gets.mp ha
    exact ⟨ho, rfl, rfl, rfl⟩
  · rintro ⟨ho, rfl, rfl, rfl⟩
    exact ⟨_, Work.ends_gets.mpr ⟨ho, rfl, rfl⟩, rfl, rfl⟩

lemma Task.run_handle (x : Task α) (h : Fault → Option (Task α)) :
    (x.handle h).run = x.run.bind fun r => match r with
      | .ok a => .done (.ok a)
      | .error f => ((h f).getD (throw f)).run := by
  show x.run.bind _ = _
  congr 1
  funext r
  cases r <;> rfl

/-- A task whose faults are caught either succeeds, or goes on with the answer to its fault. -/
lemma Task.ends_handle {x : Task α} {h : Fault → Option (Task α)} {r : Except Fault α} :
    Attempt.Ends T (x.handle h) s r s' ↔ (∃ a, Attempt.Ends T x s (.ok a) s' ∧ r = .ok a) ∨
      ∃ f v, Attempt.Ends T x s (.error f) v ∧ Attempt.Ends T ((h f).getD (throw f)) v r s' := by
  unfold Attempt.Ends
  rw [Task.run_handle, Routine.ends_bind]
  constructor
  · rintro ⟨f | a, v, hx, hr⟩
    · exact Or.inr ⟨f, v, hx, hr⟩
    · obtain ⟨rfl, rfl⟩ := hr
      exact Or.inl ⟨a, hx, rfl⟩
  · rintro (⟨a, hx, rfl⟩ | ⟨f, v, hx, hr⟩)
    · exact ⟨.ok a, s', hx, rfl, rfl⟩
    · exact ⟨.error f, v, hx, hr⟩

lemma Work.ends_put {q : Question} {r : Except Fault q.Result} :
    Attempt.Ends T (Work.put q) s r s' ↔ T.answer q r ∧ T.others s s' := by
  constructor
  · rintro ⟨a, v, ha, ho, rfl, rfl⟩
    exact ⟨ha, ho⟩
  · rintro ⟨ha, ho⟩
    exact ⟨r, s', ha, ho, rfl, rfl⟩

/-- What has been read was an answer of the workspace. -/
lemma Workspace.answer_of_readTwice {path content : String}
    (h : Attempt.Ends T (readTwice path) s (.ok content) s') :
    T.answer (.read path) (.ok content) := by
  rcases Task.ends_handle.mp h with ⟨a, hr, ⟨⟩⟩ | ⟨f, v, -, hf⟩
  · exact (Work.ends_put.mp hr).1
  · cases f with
    | workspace f =>
      obtain ⟨_, _, -, hr⟩ := Attempt.ends_bind_ok.mp hf
      exact (Work.ends_put.mp hr).1
    | _ => exact absurd hf Attempt.not_ends_throw

end Walks

/-! ## Questions and records -/

variable [Lenient L]

namespace Work

lemma lawful_put {q : Question} (h : q.isCompile = false) :
    Attempt.Lawful (quiet S) (Work.put q) :=
  ⟨h, fun _ _ => trivial⟩

lemma lawful_log (r : LogRecord) : (Work.log r).Lawful L :=
  (plain_log r).lenient

lemma lawful_settings : Work.settings.Lawful L := plain_settings.lenient

lemma lawful_contextIsCurrent (c : Context) : (Work.contextIsCurrent c).Lawful L :=
  (plain_contextIsCurrent c).lenient

end Work

/-! ## The cache -/

namespace Cache

lemma lawful_change (f : Cache → Cache) : (change f).Lawful L :=
  lawful_modify fun _ => ⟨rfl, rfl, rfl⟩

lemma lawful_join (ticket : Nat) : Attempt.Lawful L (join ticket) := by
  refine Attempt.Lawful.mk ((Routine.Lawful.await 1 _).bind fun w => ?_)
  cases w
  · exact lawful_gets _
  · trivial

lemma lawful_finish (key : PackageKey) (ticket epoch : Nat)
    (answer : Except Fault (Table String String)) :
    Attempt.Lawful L (finish key ticket epoch answer) := by
  refine Attempt.Lawful.mk ((lawful_change _).bind fun _ => ?_)
  split
  · exact (Work.lawful_log _).bind fun _ => trivial
  · trivial
  · exact (Work.lawful_log _).bind fun _ => trivial

lemma lawful_getOrFetch (key : PackageKey) : Attempt.Lawful L (getOrFetch key) := by
  refine Attempt.Lawful.mk ((lawful_modifyGet fun s => ⟨rfl, rfl, rfl⟩).bind fun a => ?_)
  cases a with
  | hit n => trivial
  | join ticket => exact lawful_join ticket
  | fetch ticket epoch =>
    exact Routine.Lawful.bind (Routine.Lawful.put (Lenient.question _ rfl rfl)) fun _ =>
      lawful_finish key ticket epoch _

lemma lawful_deliver (key : PackageKey) (delivery : Nat) :
    (deliver key delivery).Lawful L :=
  Routine.Lawful.bind (lawful_getOrFetch key) fun _ => lawful_modify fun _ => ⟨rfl, rfl, rfl⟩

lemma lawful_startAll (keys : List PackageKey) : (startAll keys).Lawful L := by
  induction keys with
  | nil => trivial
  | cons key keys ih =>
    refine (lawful_modifyGet fun _ => ⟨rfl, rfl, rfl⟩).bind fun delivery => ?_
    refine (Routine.Lawful.start (lawful_deliver key delivery)).bind fun _ => ?_
    exact ih.bind fun _ => trivial

lemma lawful_gather (keys : List PackageKey) : Attempt.Lawful L (gather keys) := by
  refine Attempt.Lawful.mk ((lawful_startAll keys).bind fun ds => ?_)
  refine (Routine.Lawful.await 1 _).bind fun w => ?_
  cases w
  · exact lawful_gets _
  · trivial

lemma lawful_fetchAll (keys : List PackageKey) : Attempt.Lawful L (fetchAll keys) := by
  unfold fetchAll
  split
  · exact Attempt.Lawful.pure _
  · exact (lawful_gather _).bind fun _ => trivial

end Cache

/-! ## The index -/

namespace Index

lemma lawful_change (f : Index → Index) : (change f).Lawful L :=
  lawful_modify fun _ => ⟨rfl, rfl, rfl⟩

lemma lawful_runLoad (ticket : Nat) : (runLoad ticket).Lawful L := by
  refine (lawful_gets _).bind fun path => ?_
  refine Routine.Obeys.bind (Routine.Plain.lenient (plain_readRecords path)) fun r _ => ?_
  cases r with
  | ok d =>
    refine (lawful_change _).bind fun _ => (lawful_gets _).bind fun _ => ?_
    exact (Work.lawful_log _).bind fun _ => lawful_change _
  | error f => exact lawful_change _

lemma lawful_awaitLoad (ticket : Nat) : Attempt.Lawful L (awaitLoad ticket) := by
  refine (Task.lawful_work (Routine.Lawful.await 1 _)).bind fun w => ?_
  refine (Task.lawful_work (lawful_gets _)).bind fun outcome? => ?_
  refine (Task.lawful_work (lawful_change _)).bind fun _ => ?_
  split
  · exact Attempt.Lawful.throw _
  · exact Attempt.Lawful.throw _
  · exact Attempt.Lawful.pure _

lemma lawful_load : Attempt.Lawful L load := by
  refine (Task.lawful_work (lawful_modifyGet fun s => ⟨rfl, rfl, rfl⟩)).bind fun role => ?_
  cases role with
  | none => exact Attempt.Lawful.pure _
  | join ticket => exact lawful_awaitLoad ticket
  | begin ticket =>
    refine (Task.lawful_work (Routine.Lawful.start (lawful_runLoad ticket))).bind fun _ => ?_
    exact lawful_awaitLoad ticket

lemma lawful_reload : Attempt.Lawful L reload :=
  (Task.lawful_work (lawful_change forget)).bind fun _ => lawful_load

lemma lawful_writeSnapshot (path snapshot : String) :
    Attempt.Lawful (quiet S) (writeSnapshot path snapshot) := by
  refine Task.lawful_handle_workspace ?_ fun f => ?_
  · refine (Workspace.plain_ensureDirectory path).lawful.bind fun _ => ?_
    refine (Work.lawful_put rfl).bind fun _ => (Task.lawful_work (lawful_gets _)).bind fun _ => ?_
    exact (Task.lawful_work (Work.lawful_log _)).bind fun _ => Attempt.Lawful.pure _
  · refine (Task.lawful_work (lawful_change _)).bind fun _ => ?_
    exact (Task.lawful_work (Work.lawful_log _)).bind fun _ => Attempt.Lawful.pure _

lemma lawful_save : Attempt.Lawful (quiet S) save := by
  refine (Task.lawful_work (lawful_modifyGet fun s => ⟨rfl, rfl, rfl⟩)).bind fun ticket => ?_
  refine (Task.lawful_work (Routine.Lawful.await 0 _)).bind fun w => ?_
  cases w with
  | cancelled => exact (Task.lawful_work (lawful_change _)).bind fun _ => Attempt.Lawful.throw _
  | ready =>
    refine (Task.lawful_work (lawful_modifyGet fun s => ⟨rfl, rfl, rfl⟩)).bind fun snapshot? => ?_
    refine (Task.lawful_work (lawful_gets _)).bind fun path => ?_
    refine (Task.lawful_work ?_).bind fun written => ?_
    · cases snapshot? with
      | none => trivial
      | some snapshot => exact lawful_writeSnapshot path snapshot
    · refine (Task.lawful_work (lawful_change _)).bind fun _ => ?_
      cases written with
      | ok b => exact Attempt.Lawful.pure b
      | error f => exact Attempt.Lawful.throw f

end Index

end SourceBundle
