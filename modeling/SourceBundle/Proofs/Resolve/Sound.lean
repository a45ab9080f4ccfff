/-
# Safe choices

Among honest collaborators the rules and declarations of the workspace are loaded with expected faults
only, and they name readable ranges only.  A resolver that knows of no other ranges chooses versions
with expected faults only: each range is used, or it is reported that it cannot be.
-/
import SourceBundle.Proofs.Service.Sound
import SourceBundle.Resolve.Chain

namespace SourceBundle

open SourceBundle.Import SourceBundle.Text

/-- All ranges that a resolver knows of are readable. -/
structure Resolver.Sound (r : Resolver) : Prop where
  manifest : ∀ m, r.manifest? = some m → m.Readable
  lockfile : r.lockfile.Readable
  parents : ∀ key deps, r.parents.get? key = some deps → Manifest.AllReadable deps

namespace Version

variable {range : String}

/-- A readable range is used, or there is a reason in words why nothing is chosen. -/
lemma Readable.pickRange (h : Readable range) (candidates : List String) :
    ∃ choice, Version.pickRange range candidates = .ok choice := by
  unfold Version.pickRange
  split
  · next he => exact absurd he h
  · exact ⟨_, rfl⟩
  · exact ⟨_, rfl⟩

lemma Readable.satisfies (h : Readable range) (version : String) :
    ∃ b, Version.satisfies version range = .ok b := by
  unfold Version.satisfies
  split
  · exact ⟨_, rfl⟩
  · split
    · exact ⟨_, rfl⟩
    · exact ⟨_, rfl⟩
    · next he => exact absurd he h

end Version

/-- Reading a document as a mapping has no other numbers to read than the document. -/
lemma Lock.readObject_ne_numberTooLong {content : String} (h : Json.Measured content) (kind : DocumentKind)
    (source : String) : Lock.readObject kind source content ≠ .error .numberTooLong := by
  intro he
  unfold Lock.readObject at he
  split at he
  · next hr => exact h hr
  · exact nomatch he
  · exact nomatch he
  · exact nomatch he

lemma Manifest.Legible.ne_numberTooLong {content : String} (h : Manifest.Legible content) :
    Manifest.parse content ≠ .error .numberTooLong := by
  have hread := Lock.readObject_ne_numberTooLong h.measured .manifest "package.json"
  unfold Manifest.parse
  cases ho : Lock.readObject .manifest "package.json" content with
  | ok ms => exact nofun
  | error f =>
    intro he
    obtain rfl := Except.error.inj he
    exact hread ho

lemma Lock.ne_numberTooLong_of_measured {content : String} (h : Json.Measured content) :
    Lock.ofDocument content ≠ .error .numberTooLong := by
  have hread := Lock.readObject_ne_numberTooLong h .lockfile "package-lock.json"
  unfold Lock.ofDocument
  cases ho : Lock.readObject .lockfile "package-lock.json" content with
  | ok ms => exact nofun
  | error f =>
    intro he
    obtain rfl := Except.error.inj he
    exact hread ho

namespace Resolve

variable {C : Surroundings}

/-! ## Rules and declarations of the workspace -/

/-- Collecting warnings has expected faults only. -/
abbrev Warned.Safe {α : Type} (C : Surroundings) (x : Warned α) (post : α → Prop) : Prop :=
  Stateful.Safe C (fun _ : WarningLog => True) x post

lemma safe_warn (w : Warning) : Warned.Safe C (warn w) fun _ => True := by
  intro l _
  show Routine.Secures C.footing
    ((if !l.knows w then (do set (l.add w); Stateful.work (Work.log (.warned w)) : Warned Unit)
      else pure ()).run l) _
  split
  · show Routine.Secures _ ((Work.log (.warned w)).bind fun a => .done (Except.ok a, l.add w)) _
    exact (Work.secures_log _).bind fun _ _ => .done ⟨trivial, trivial⟩
  · exact .done ⟨trivial, trivial⟩

lemma secures_readRules (origin : String) (ls : List String) :
    (readRules origin ls).Secures C.footing fun _ => True :=
  Routine.Secures.bind (@Work.plain_logAll true (fun _ => False) _).secures fun _ _ => .done trivial

lemma safe_configLines {path content : String} (h : Json.Measured content) :
    Warned.Safe C (Stateful.outcome (configLines path content)) fun _ => True := by
  refine Stateful.safe_outcome ?_
  unfold configLines
  split
  · next he => exact absurd he h
  · trivial
  · trivial

lemma safe_readOptional (path : String) :
    Warned.Safe C (Stateful.task (Workspace.readOptional path)) fun content? =>
      ∀ text, content? = some text → C.Legible path text :=
  Stateful.safe_task (Workspace.safe_readOptional path)

lemma safe_loadRemappings (collect : Bool) :
    Warned.Safe C (loadRemappings none collect) fun _ => True := by
  have hrules : ∀ origin ls, Warned.Safe C (Stateful.work (readRules origin ls)) fun _ => True :=
    fun origin ls => Stateful.safe_work (secures_readRules origin ls)
  have hnone : Warned.Safe C (pure [] : Warned (List Remapping)) fun _ => True :=
    Run.Secures.pure trivial
  have hskip : Warned.Safe C (pure none : Warned (Option String)) (· = none) :=
    Run.Secures.pure rfl
  have hend : ∀ all : List Remapping, Warned.Safe C (do
      Stateful.work (Work.log (.remappingsLoaded all.length))
      pure all) fun _ => True := fun all =>
    (Stateful.safe_log _).bind fun _ _ => Run.Secures.pure trivial
  unfold loadRemappings
  refine Stateful.safe_settings.bind ?_
  rintro _ rfl
  refine Stateful.safe_settings.bind ?_
  rintro _ rfl
  refine (safe_readOptional _).bind fun content? _ => ?_
  cases content?
  case' none => refine hnone.bind fun rules _ => ?_
  case' some content => refine (hrules _ _).bind fun rules _ => ?_
  all_goals
    refine Stateful.safe_settings.bind ?_
    rintro _ rfl
    dsimp only [Option.getD_none]
    split
    case isFalse =>
      refine hskip.bind ?_
      rintro _ rfl
      exact hnone.bind fun more _ => hend _
    case isTrue huse =>
      refine (safe_readOptional _).bind fun config? hconfig => ?_
      cases config?
      case none => exact hnone.bind fun more _ => hend _
      case some config =>
        refine (safe_configLines ((hconfig config rfl).config rfl huse)).bind fun ls _ => ?_
        cases ls
        case ok ls => exact (hrules _ _).bind fun more _ => hend _
        case error f =>
          cases collect
          · exact (Stateful.safe_log _).bind fun _ _ => hnone.bind fun more _ => hend _
          · exact (safe_warn _).bind fun _ _ => hnone.bind fun more _ => hend _

lemma safe_readManifest {content : String} (h : Manifest.Legible content) :
    Task.Safe C (readManifest content) fun r => ∀ m, r = .ok m → m.Readable := by
  unfold readManifest
  split
  · next m hm =>
    refine (Task.secures_log _).bind fun _ _ => Attempt.Secures.pure ?_
    rintro _ ⟨⟩
    exact h.readable m hm
  · next he => exact absurd he h.ne_numberTooLong
  · exact Attempt.Secures.pure nofun

lemma safe_loadManifest (collect : Bool) :
    Warned.Safe C (loadManifest collect) fun m? => ∀ m, m? = some m → m.Readable := by
  refine (safe_readOptional _).bind fun content? hcontent => ?_
  cases content? with
  | none => exact Run.Secures.pure nofun
  | some content =>
    have hlegible := (hcontent content rfl).manifest rfl
    refine (Stateful.safe_task (safe_readManifest hlegible)).bind fun r hr => ?_
    cases r with
    | ok m =>
      refine Run.Secures.pure ?_
      rintro _ ⟨⟩
      exact hr m rfl
    | error f =>
      cases collect with
      | false => exact Run.Secures.pure nofun
      | true => exact (safe_warn _).bind fun _ _ => Run.Secures.pure nofun

lemma safe_loadBlocks (collect : Bool) :
    Warned.Safe C (loadBlocks collect) fun lock? => ∀ lock, lock? = some lock → lock.Readable := by
  refine (safe_readOptional _).bind fun content? hcontent => ?_
  cases content? with
  | none => exact Run.Secures.pure nofun
  | some content =>
    refine (Stateful.safe_log _).bind fun _ _ => ?_
    split
    · refine Run.Secures.pure ?_
      rintro _ ⟨⟩
      exact (hcontent content rfl).blocks rfl
    · split
      · exact (safe_warn _).bind fun _ _ => Run.Secures.pure nofun
      · exact Run.Secures.pure nofun

lemma safe_loadDocument (collect : Bool) :
    Warned.Safe C (loadDocument collect) fun lock? => ∀ lock, lock? = some lock → lock.Readable := by
  refine (safe_readOptional _).bind fun content? hcontent => ?_
  cases content? with
  | none => exact Run.Secures.pure nofun
  | some content =>
    dsimp only
    split
    · next lock hlock =>
      refine (Stateful.safe_log _).bind fun _ _ => Run.Secures.pure ?_
      rintro _ ⟨⟩
      exact Lock.readable_ofDocument hlock
    · next he =>
      exact absurd he (Lock.ne_numberTooLong_of_measured ((hcontent content rfl).document rfl))
    · cases collect with
      | false => exact Run.Secures.pure nofun
      | true => exact (safe_warn _).bind fun _ _ => Run.Secures.pure nofun

lemma safe_loadLockfile (collect : Bool) :
    Warned.Safe C (loadLockfile collect) fun lock? => ∀ lock, lock? = some lock → lock.Readable := by
  refine (safe_loadBlocks collect).bind fun lock? hlock => ?_
  cases lock? with
  | none => exact safe_loadDocument collect
  | some lock => exact Run.Secures.pure hlock

/-- The resolver of a workspace knows of readable ranges only. -/
theorem safe_ofWorkspace (session : Table String String)
    {parents : Table PackageKey (Table String String)}
    (hp : ∀ key deps, parents.get? key = some deps → Manifest.AllReadable deps) :
    Warned.Safe C (ofWorkspace session parents) Resolver.Sound := by
  refine (safe_loadManifest true).bind fun m? hm => ?_
  refine (safe_loadLockfile true).bind fun lock? hlock => ?_
  refine Run.Secures.get.bind fun l _ => Run.Secures.pure ⟨hm, ?_, hp⟩
  cases lock? with
  | none => exact fun _ _ h => nomatch h
  | some lock => exact hlock lock rfl

/-! ## Choosing versions -/

/-- Choosing versions has expected faults only, as long as all known ranges are readable. -/
abbrev Choosing.Safe {α : Type} (C : Surroundings) (x : Choosing α) (post : α → Prop) : Prop :=
  Stateful.Safe C Resolver.Sound x post

variable {ref : PackageReference} {range : String}

lemma safe_warnHere (w : Warning) : Choosing.Safe C (warnHere w) fun _ => True :=
  (safe_warn w).zoom (fun _ _ => trivial) fun _ _ hr _ => ⟨hr.manifest, hr.lockfile, hr.parents⟩

lemma safe_publishedVersions : Choosing.Safe C (publishedVersions ref) fun _ => True := by
  refine Run.Secures.get.bind fun r _ => ?_
  split
  · exact Run.Secures.pure trivial
  · refine Run.Secures.bind (Stateful.safe_handle (Stateful.safe_task (Work.safe_versions _))
      fun f y hy => ?_) fun versions _ => ?_
    · split at hy
      · obtain rfl := Option.some.inj hy
        exact Run.Secures.throw (Or.inl rfl)
      · exact nomatch hy
    · have hkeep : ∀ r : Resolver, r.Sound →
          Resolver.Sound { r with published := r.published.insert ref.fullName versions } :=
        fun _ hr => ⟨hr.manifest, hr.lockfile, hr.parents⟩
      exact (Run.Secures.modify hkeep).bind fun _ _ => Run.Secures.pure trivial

lemma safe_pick (h : Version.Readable range) : Choosing.Safe C (pick ref range) fun _ => True := by
  refine safe_publishedVersions.bind fun versions _ => ?_
  obtain ⟨choice, hchoice⟩ := h.pickRange versions
  rw [hchoice]
  exact Run.Secures.pure trivial

lemma safe_resolvePin (h : Version.Readable range) :
    Choosing.Safe C (resolvePin ref range) fun _ => True := by
  unfold resolvePin
  split
  · exact Run.Secures.pure trivial
  · refine Run.Secures.get.bind fun r _ => ?_
    split
    · exact Run.Secures.pure trivial
    · refine (safe_pick h).bind fun choice _ => ?_
      cases choice with
      | error reason => exact Run.Secures.throw (Or.inl rfl)
      | ok v =>
        have hkeep : ∀ r : Resolver, r.Sound →
            Resolver.Sound { r with pins := r.pins.insert (ref.fullName, range) v } :=
          fun _ hr => ⟨hr.manifest, hr.lockfile, hr.parents⟩
        exact (Run.Secures.modify hkeep).bind fun _ _ => Run.Secures.pure trivial

lemma honoursRange_of_readable {e : LockEntry}
    (h : ∀ range, e.range? = some range → Version.Readable range) : ∃ b, honoursRange e = .ok b := by
  unfold honoursRange
  split
  · exact ⟨_, rfl⟩
  · next range hrange =>
    split
    · exact ⟨_, rfl⟩
    · exact (h range hrange).satisfies e.version

lemma safe_validEntries (name : String) {es : List LockEntry}
    (hes : ∀ e ∈ es, ∀ range, e.range? = some range → Version.Readable range) :
    Choosing.Safe C (validEntries name es) fun _ => True := by
  induction es with
  | nil => exact Run.Secures.pure trivial
  | cons e es ih =>
    have hrest := ih fun e' he' => hes e' (List.mem_cons_of_mem e he')
    obtain ⟨b, hb⟩ := honoursRange_of_readable (hes e List.mem_cons_self)
    unfold validEntries
    rw [hb]
    cases b with
    | true => exact hrest.bind fun rest _ => Run.Secures.pure trivial
    | false => exact (safe_warnHere _).bind fun _ _ => hrest

lemma safe_fromLockfile : Choosing.Safe C (fromLockfile ref) fun _ => True := by
  refine Run.Secures.get.bind fun r hr => ?_
  have hes : ∀ e ∈ (r.lockfile.get? ref.fullName).getD [], ∀ range, e.range? = some range →
      Version.Readable range := by
    cases hget : r.lockfile.get? ref.fullName with
    | none => exact fun e he => nomatch he
    | some es => exact hr.lockfile _ es hget
  refine (safe_validEntries _ hes).bind fun es _ => ?_
  cases es with
  | nil => exact Run.Secures.pure trivial
  | cons e es => exact Run.Secures.pure trivial

lemma safe_fromRange (h : Version.Readable range) (source : VersionSource) (detail : String)
    (warning : String → Warning) :
    Choosing.Safe C (fromRange ref range source detail warning) fun _ => True := by
  unfold fromRange
  split
  · exact Run.Secures.pure trivial
  · refine (safe_pick h).bind fun choice _ => ?_
    cases choice with
    | ok v => exact Run.Secures.pure trivial
    | error reason => exact (safe_warnHere _).bind fun _ _ => Run.Secures.pure trivial

lemma safe_fromManifest : Choosing.Safe C (fromManifest ref) fun _ => True := by
  refine Run.Secures.get.bind fun r hr => ?_
  split
  · exact Run.Secures.pure trivial
  · next range field hd =>
    obtain ⟨m, hm, hd⟩ := Option.bind_eq_some_iff.mp hd
    have hrange := (hr.manifest m hm).declaredRange hd
    -- unfolded, the statement would carry the choice out
    with_reducible exact safe_fromRange hrange _ _ _

lemma safe_fromParent (parent? : Option PackageKey) :
    Choosing.Safe C (fromParent ref parent?) fun _ => True := by
  refine Run.Secures.get.bind fun r hr => ?_
  cases parent? with
  | none => exact Run.Secures.pure trivial
  | some parent =>
    dsimp only
    split
    · exact Run.Secures.pure trivial
    · next range hd =>
      split
      · exact Run.Secures.pure trivial
      · obtain ⟨deps, hdeps, hd⟩ := Option.bind_eq_some_iff.mp hd
        have hrange := hr.parents parent deps hdeps _ _ hd
        with_reducible exact safe_fromRange hrange _ _ _

lemma safe_fromRegistry : Choosing.Safe C (fromRegistry ref) fun _ => True := by
  refine safe_publishedVersions.bind fun versions _ => ?_
  split
  · exact Run.Secures.pure trivial
  · exact Run.Secures.throw (Or.inl rfl)

lemma safe_firstOf {steps : List (Choosing (Option ResolvedVersion))} {last : Choosing ResolvedVersion}
    (hsteps : ∀ step ∈ steps, Choosing.Safe C step fun _ => True)
    (hlast : Choosing.Safe C last fun _ => True) :
    Choosing.Safe C (firstOf steps last) fun _ => True := by
  induction steps with
  | nil => exact hlast
  | cons step steps ih =>
    refine (hsteps step List.mem_cons_self).bind fun v? _ => ?_
    cases v? with
    | some v => exact Run.Secures.pure trivial
    | none => exact ih fun s hs => hsteps s (List.mem_cons_of_mem step hs)

lemma safe_resolveUnpinned (parent? : Option PackageKey) :
    Choosing.Safe C (resolveUnpinned ref parent?) fun _ => True := by
  have hconflicts : Choosing.Safe C (checkConflicts ref.fullName) fun _ => True := by
    refine Run.Secures.get.bind fun r _ => ?_
    dsimp only
    split
    · exact safe_warnHere _
    · exact Run.Secures.pure trivial
  refine hconflicts.bind fun _ _ => Run.Secures.get.bind fun r _ => ?_
  split
  · exact Run.Secures.pure trivial
  · refine Run.Secures.bind (safe_firstOf ?_ safe_fromRegistry) fun resolved _ => ?_
    · intro step hstep
      rcases List.mem_cons.mp hstep with rfl | hstep
      · exact safe_fromLockfile
      rcases List.mem_cons.mp hstep with rfl | hstep
      · exact safe_fromManifest
      · exact List.mem_singleton.mp hstep ▸ safe_fromParent parent?
    · have hkeep : ∀ r : Resolver, r.Sound → Resolver.Sound
          { r with session := r.session.insert ref.fullName resolved.version } :=
        fun _ hr => ⟨hr.manifest, hr.lockfile, hr.parents⟩
      refine (Run.Secures.modify hkeep).bind fun _ _ => ?_
      exact (Stateful.safe_log _).bind fun _ _ => Run.Secures.pure trivial

/-- To choose a version has expected faults only, if the import names a readable range or none. -/
theorem safe_resolve (href : ∀ range, ref.version? = some range → Version.Readable range)
    (parent? : Option PackageKey) : Choosing.Safe C (resolve ref parent?) fun _ => True := by
  unfold resolve
  split
  · next range hrange =>
    split
    · exact safe_resolveUnpinned parent?
    · have hread := href range hrange
      with_reducible exact safe_resolvePin hread
  · exact safe_resolveUnpinned parent?

end Resolve

end SourceBundle
