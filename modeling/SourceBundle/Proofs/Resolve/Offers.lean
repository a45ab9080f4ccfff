/-
# What the sources of a version offer

The registry answers by a catalogue: what it says of a package hangs on the name alone.  Then what
each source of a version offers is determined by what the source goes by: the entries of the
lockfile, the declarations of the manifest, those of the importing package, and the catalogue.  An
offer is an outcome with the warnings that are given on the way to it.  The choice of a version comes
to the first offer, whatever others do meanwhile, and whatever has been asked and chosen before.
-/
import SourceBundle.Proofs.Resolve.Session
import SourceBundle.Proofs.Routine.Converse

namespace SourceBundle.Resolve

open SourceBundle.Import SourceBundle.Text

/-- What the registry answers when it is asked for the versions of a package. -/
abbrev Catalogue := String → Except Fault (List String)

/-- The registry answers by a catalogue. -/
def byCatalogue (reg : Catalogue) : (q : Question) → q.Answer → Prop
  | .versions name, a => a = reg name
  | _, _ => True

/-- A registry that answers by a catalogue leaves no question without an answer. -/
lemma exists_answer (reg : Catalogue) (q : Question) : ∃ a, byCatalogue reg q a := by
  cases q with
  | versions name => exact ⟨reg name, rfl⟩
  | _ => exact ⟨.error .cancelled, trivial⟩

/-- Every package has two releases. -/
def pairCatalogue : Catalogue := fun _ => .ok ["1.0.0", "2.0.0"]

/-! ## Offers -/

/-- What a part of the choice comes to. -/
structure Offer (α : Type) where
  /-- Its outcome. -/
  outcome : Except Fault α
  /-- The warnings that are given on the way to it. -/
  warnings : List Warning := []
  /-- Whether the registry may be asked for it. -/
  asks : Bool := false

namespace Offer

variable {α β : Type}

/-- An outcome without more ado. -/
def just (a : α) : Offer α := { outcome := .ok a }

/-- A failure. -/
def fault (f : Fault) : Offer α := { outcome := .error f }

/-- A second part that follows on a first one. -/
def andThen (o : Offer α) (f : α → Offer β) : Offer β :=
  match o.outcome with
  | .ok a => ⟨(f a).outcome, o.warnings ++ (f a).warnings, o.asks || (f a).asks⟩
  | .error e => ⟨.error e, o.warnings, o.asks⟩

lemma andThen_of_ok {o : Offer α} {f : α → Offer β} {a : α} (h : o.outcome = .ok a) :
    o.andThen f = ⟨(f a).outcome, o.warnings ++ (f a).warnings, o.asks || (f a).asks⟩ := by
  rw [andThen, h]

lemma andThen_of_error {o : Offer α} {f : α → Offer β} {e : Fault} (h : o.outcome = .error e) :
    o.andThen f = ⟨.error e, o.warnings, o.asks⟩ := by
  rw [andThen, h]

/-- Two parts in a row succeed if both do. -/
lemma outcome_andThen_eq_ok {o : Offer α} {f : α → Offer β} {b : β} :
    (o.andThen f).outcome = .ok b ↔ ∃ a, o.outcome = .ok a ∧ (f a).outcome = .ok b := by
  rw [andThen]
  cases o.outcome with
  | ok a => simp
  | error e => simp

end Offer

/-- The fault of a failed look at the published versions of a package. -/
def lookupFault (ref : PackageReference) : Fault → Fault
  | .registry f => .resolution (.lookup ref f)
  | f => f

/-- The published versions. -/
def publishedOffer (reg : Catalogue) (ref : PackageReference) : Offer (List String) :=
  { outcome := (reg ref.fullName).mapError (lookupFault ref), asks := true }

lemma outcome_publishedOffer {reg : Catalogue} {ref : PackageReference} {versions : List String}
    (h : reg ref.fullName = .ok versions) : (publishedOffer reg ref).outcome = .ok versions := by
  rw [publishedOffer, h]
  rfl

/-- The highest version in a range, or why there is none. -/
def pickOffer (reg : Catalogue) (ref : PackageReference) (range : String) :
    Offer (Except Version.NoChoice String) :=
  (publishedOffer reg ref).andThen fun versions =>
    match Version.pickRange range versions with
    | .ok choice => .just choice
    | .error _ => .fault .unreadableRange

/-- The entries that honour their ranges. -/
def entriesOffer (name : String) : List LockEntry → Offer (List LockEntry)
  | [] => .just []
  | e :: es =>
    match honoursRange e with
    | .error _ => .fault .unreadableRange
    | .ok true => (entriesOffer name es).andThen fun rest => .just (e :: rest)
    | .ok false =>
      { outcome := .ok (), warnings := [.invalidLockEntry name (e.range?.getD "") e.version] : Offer Unit }
        |>.andThen fun _ => entriesOffer name es

/-- The range that the workspace declares for a package, and the field that does. -/
def declared? (manifest? : Option Manifest) (ref : PackageReference) :
    Option (String × DeclarationField) :=
  manifest?.bind fun m => m.declaredRange? ref.fullName

/-- The entries of the lockfile for a package. -/
def lockEntries (lockfile : Lockfile) (ref : PackageReference) : List LockEntry :=
  (lockfile.get? ref.fullName).getD []

/-- The entry that decides among those that honour their ranges. -/
def decisive (manifest? : Option Manifest) (ref : PackageReference) (e : LockEntry)
    (es : List LockEntry) : LockEntry :=
  ((declared? manifest? ref).bind fun d => (e :: es).find? fun e => e.range? == some d.1).getD
    (highestEntry e es)

/-- What the lockfile offers. -/
def lockOffer (manifest? : Option Manifest) (lockfile : Lockfile) (ref : PackageReference) :
    Offer (Option ResolvedVersion) :=
  (entriesOffer ref.fullName (lockEntries lockfile ref)).andThen fun
    | [] => .just none
    | e :: es =>
      .just (some ⟨(decisive manifest? ref e es).version, .lockfile, (decisive manifest? ref e es).range?⟩)

/-- What a declared range offers. -/
def rangeOffer (reg : Catalogue) (ref : PackageReference) (range : String) (source : VersionSource)
    (detail : String) (warning : String → Warning) : Offer (Option ResolvedVersion) :=
  if Version.isExact range then .just (some ⟨dropMarks range, source, some detail⟩)
  else
    (pickOffer reg ref range).andThen fun
      | .ok v => .just (some ⟨v, source, some detail⟩)
      | .error reason => { outcome := .ok none, warnings := [warning reason.message] }

/-- What the manifest of the workspace offers. -/
def manifestOffer (reg : Catalogue) (manifest? : Option Manifest) (ref : PackageReference) :
    Offer (Option ResolvedVersion) :=
  match declared? manifest? ref with
  | none => .just none
  | some (range, field) =>
    rangeOffer reg ref range .manifest field.word fun reason =>
      .unresolvedManifestRange ref.fullName range reason

/-- The range that the importing package declares for a package, unless it is empty. -/
def parentRange? (parents : Table PackageKey (Table String String)) (parent? : Option PackageKey)
    (ref : PackageReference) : Option (PackageKey × String) :=
  parent?.bind fun parent =>
    (((parents.get? parent).bind (·.get? ref.fullName)).filter (!·.isEmpty)).map (parent, ·)

/-- What the importing package offers. -/
def parentOffer (reg : Catalogue) (ref : PackageReference) :
    Option (PackageKey × String) → Offer (Option ResolvedVersion)
  | none => .just none
  | some (parent, range) =>
    rangeOffer reg ref range .parent parent.render fun reason =>
      .unresolvedParentRange parent.render ref.fullName range reason

/-- What the registry offers. -/
def registryOffer (reg : Catalogue) (ref : PackageReference) : Offer ResolvedVersion :=
  (publishedOffer reg ref).andThen fun versions =>
    match Version.pickLatest versions with
    | .ok v => .just ⟨v, .registry, none⟩
    | .error reason => .fault (.resolution (.noVersion ref reason))

/-- The first of some offers. -/
def firstOffer : List (Offer (Option ResolvedVersion)) → Offer ResolvedVersion →
    Offer ResolvedVersion
  | [], last => last
  | o :: os, last => o.andThen fun
    | some v => .just v
    | none => firstOffer os last

/-- The warning of different ranges that fetched packages declare. -/
def conflictOffer (r : Resolver) (name : String) : Offer Unit :=
  { outcome := .ok ()
    warnings :=
      if ((requirements r name).map (·.range)).eraseDups.length > 1 then
        [.parentConflict name (requirements r name)]
      else [] }

/-- What is offered for a package of which no version has been chosen. -/
def freshOffer (reg : Catalogue) (r : Resolver) (ref : PackageReference)
    (parent? : Option PackageKey) : Offer ResolvedVersion :=
  firstOffer [lockOffer r.manifest? r.lockfile ref, manifestOffer reg r.manifest? ref,
    parentOffer reg ref (parentRange? r.parents parent? ref)] (registryOffer reg ref)

/-- What is offered for a package whose version is open. -/
def openOffer (reg : Catalogue) (r : Resolver) (ref : PackageReference)
    (parent? : Option PackageKey) : Offer ResolvedVersion :=
  (conflictOffer r ref.fullName).andThen fun _ =>
    match r.session.get? ref.fullName with
    | some v => .just ⟨v, .session, none⟩
    | none => freshOffer reg r ref parent?

/-! ## The course of a choice -/

/-- What the registry has said to a resolver is in the catalogue. -/
def Heard (reg : Catalogue) (r : Resolver) : Prop :=
  ∀ name versions, r.published.get? name = some versions → reg name = .ok versions

/-- Two resolvers go by the same rules and have chosen the same. -/
structure Alike (r r' : Resolver) : Prop where
  manifest : r'.manifest? = r.manifest?
  lockfile : r'.lockfile = r.lockfile
  parents : r'.parents = r.parents
  session : r'.session = r.session

/-- The registry has answered with the versions of a package. -/
def answered (name : String) : Sigma Question.Answer → Bool
  | ⟨.versions n, .ok _⟩ => n == name
  | _ => false

/-- The number of answers about a package that a resolver remembers, none or one. -/
def remembered (r : Resolver) (name : String) : Nat := (r.published.get? name).isSome.toNat

/-- What happens on the way to an outcome: warnings are added, and the versions of a package are
remembered when the registry has answered with them, so that it is not asked again. -/
structure Course (reg : Catalogue) (ws : List Warning) (asks : Bool) (r : Resolver)
    (talk : Talk Question Question.Answer) (r' : Resolver) : Prop where
  alike : Alike r r'
  heard : Heard reg r'
  warnings : r'.warnings = ws.foldl WarningLog.add r.warnings
  silent : asks = false → talk = []
  once : ∀ name, talk.countP (answered name) + remembered r name ≤ remembered r' name

variable {α β : Type} {reg : Catalogue} {r r' u : Resolver} {ref : PackageReference}
  {parent? : Option PackageKey} {ws ws' : List Warning} {asks asks' : Bool}
  {talk talk' : Talk Question Question.Answer}

lemma Alike.refl (r : Resolver) : Alike r r := ⟨rfl, rfl, rfl, rfl⟩

lemma Alike.trans (h : Alike r u) (h' : Alike u r') : Alike r r' where
  manifest := h'.manifest.trans h.manifest
  lockfile := h'.lockfile.trans h.lockfile
  parents := h'.parents.trans h.parents
  session := h'.session.trans h.session

lemma remembered_le_one (r : Resolver) (name : String) : remembered r name ≤ 1 := by
  unfold remembered
  cases (r.published.get? name).isSome <;> simp

namespace Course

lemma refl (hr : Heard reg r) : Course reg [] false r [] r where
  alike := .refl r
  heard := hr
  warnings := rfl
  silent _ := rfl
  once name := by simp

lemma trans (h : Course reg ws asks r talk u) (h' : Course reg ws' asks' u talk' r') :
    Course reg (ws ++ ws') (asks || asks') r (talk ++ talk') r' where
  alike := h.alike.trans h'.alike
  heard := h'.heard
  warnings := by rw [h'.warnings, h.warnings, List.foldl_append]
  silent := by
    intro hsilent
    rw [Bool.or_eq_false_iff] at hsilent
    rw [h.silent hsilent.1, h'.silent hsilent.2, List.append_nil]
  once name := by
    have hfirst := h.once name
    have hsecond := h'.once name
    rw [List.countP_append]
    omega

/-- The registry answers with versions that were not remembered, and they are now. -/
lemma answer {name : String} {versions : List String} (hr : Heard reg r)
    (hnew : r.published.get? name = none) (hreg : reg name = .ok versions) :
    Course reg [] true r [⟨.versions name, .ok versions⟩]
      { r with published := r.published.insert name versions } where
  alike := ⟨rfl, rfl, rfl, rfl⟩
  heard := by
    intro other found hfound
    by_cases hname : name = other
    · subst hname
      rw [Table.get?_insert_self] at hfound
      rw [hreg, Option.some.inj hfound]
    · rw [Table.get?_insert_ne _ hname] at hfound
      exact hr other found hfound
  warnings := rfl
  silent := nofun
  once := by
    intro other
    by_cases hname : name = other
    · subst hname
      simp [answered, remembered, hnew]
    · simp [answered, remembered, Table.get?_insert_ne _ hname, hname]

end Course

/-- A part of the choice comes to an offer. -/
def Offers (reg : Catalogue) (x : Choosing α) (r : Resolver) (o : Offer α) : Prop :=
  Run.Gives (byCatalogue reg) x r o.outcome (Course reg o.warnings o.asks r)

lemma offers_just (hr : Heard reg r) (a : α) : Offers reg (pure a) r (.just a) :=
  Run.Gives.pure (.refl hr)

lemma offers_fault (hr : Heard reg r) (f : Fault) :
    Offers reg (throw f : Choosing α) r (.fault f) :=
  Run.Gives.throw (.refl hr)

/-- Two parts in a row come to an offer that follows on another. -/
lemma offers_bind {x : Choosing α} {f : α → Choosing β} {o : Offer α} {g : α → Offer β}
    (hx : Offers reg x r o)
    (hf : ∀ a u, o.outcome = .ok a → Alike r u → Heard reg u → Offers reg (f a) u (g a)) :
    Offers reg (x >>= f) r (o.andThen g) := by
  cases ho : o.outcome with
  | ok a =>
    rw [Offer.andThen_of_ok ho]
    rw [Offers, ho] at hx
    refine Run.Gives.bind_ok hx ?_
    intro talk u hu
    exact (hf a u ho hu.alike hu.heard).imp fun more v hv => hu.trans hv
  | error e =>
    rw [Offer.andThen_of_error ho]
    rw [Offers, ho] at hx
    exact Run.Gives.bind_error hx

/-- To get what is remembered asks nothing. -/
lemma offers_get {f : Resolver → Choosing α} {o : Offer α} (h : Offers reg (f r) r o) :
    Offers reg (getThe Resolver >>= f) r o :=
  Run.Gives.get_bind h

/-! ## The parts of the choice -/

-- The lemmas hold whatever counts as an exact version, and nothing should try to evaluate it.
attribute [local irreducible] Version.isExact Version.pickRange Version.pickLatest honoursRange

/-- To write a record asks nothing. -/
lemma gives_log_bind {ρ : Type} {t : ρ} {f : Unit → Stateful ρ α} {out : Except Fault α}
    {post : Talk Question Question.Answer → ρ → Prop} (record : LogRecord)
    (hf : Run.Gives (byCatalogue reg) (f ()) t out post) :
    Run.Gives (byCatalogue reg) (Stateful.work (Work.log record) >>= f) t out post :=
  fun _ => hf

/-- To warn adds to the log, unless the key of the warning is known. -/
lemma gives_warn {l : WarningLog} (w : Warning) :
    Run.Gives (byCatalogue reg) (warn w) l (.ok ()) fun talk l' => talk = [] ∧ l' = l.add w := by
  refine Run.Gives.get_bind ?_
  by_cases hk : l.knows w = true
  · rw [if_neg (by simp [hk])]
    exact Run.Gives.pure ⟨rfl, by rw [WarningLog.add, if_pos hk]⟩
  · rw [if_pos (by simpa using hk)]
    exact fun _ => ⟨rfl, rfl, rfl⟩

lemma offers_warnHere (hr : Heard reg r) (w : Warning) :
    Offers reg (warnHere w) r { outcome := .ok (), warnings := [w] } := by
  refine Run.Gives.zoom ((gives_warn w).imp ?_)
  rintro talk l ⟨rfl, rfl⟩
  exact ⟨⟨rfl, rfl, rfl, rfl⟩, hr, rfl, fun _ => rfl, fun name => by simp [remembered]⟩

/-- To look up a package puts one question. -/
lemma gives_lookup :
    Run.Gives (byCatalogue reg)
      ((Stateful.task (Work.versions ref.fullName) : Choosing (List String)).handle fun
        | .registry f => some (throw (.resolution (.lookup ref f)))
        | _ => none) r
      ((reg ref.fullName).mapError (lookupFault ref))
      fun talk u => talk = [⟨.versions ref.fullName, reg ref.fullName⟩] ∧ u = r := by
  rintro a rfl
  cases hreg : reg ref.fullName with
  | ok versions => exact ⟨rfl, rfl, rfl⟩
  | error f => cases f <;> exact ⟨rfl, rfl, rfl⟩

/-- The published versions of a package are asked for unless they are remembered. -/
lemma offers_publishedVersions (hr : Heard reg r) :
    Offers reg (publishedVersions ref) r (publishedOffer reg ref) := by
  refine Run.Gives.get_bind ?_
  cases hp : r.published.get? ref.fullName with
  | some versions =>
    rw [outcome_publishedOffer (hr _ _ hp)]
    refine Run.Gives.pure ⟨.refl r, hr, rfl, fun _ => rfl, ?_⟩
    intro name
    simp
  | none =>
    have hlookup : Run.Gives (byCatalogue reg) _ r ((reg ref.fullName).mapError (lookupFault ref))
        fun talk u => talk = [⟨.versions ref.fullName, reg ref.fullName⟩] ∧ u = r := gives_lookup
    cases hreg : reg ref.fullName with
    | ok versions =>
      rw [hreg] at hlookup
      rw [outcome_publishedOffer hreg]
      refine Run.Gives.bind_ok hlookup ?_
      rintro _ _ ⟨rfl, rfl⟩
      exact Run.Gives.modify_bind (Run.Gives.pure (.answer hr hp hreg))
    | error f =>
      have hout : (publishedOffer reg ref).outcome = .error (lookupFault ref f) := by
        rw [publishedOffer, hreg]
        rfl
      rw [hreg] at hlookup
      rw [hout]
      refine Run.Gives.bind_error (hlookup.imp ?_)
      rintro _ _ ⟨rfl, rfl⟩
      refine ⟨.refl _, hr, rfl, nofun, ?_⟩
      intro name
      simp [answered]

lemma offers_pick (hr : Heard reg r) (range : String) :
    Offers reg (pick ref range) r (pickOffer reg ref range) := by
  refine offers_bind (offers_publishedVersions hr) ?_
  intro versions u _ _ hu
  cases Version.pickRange range versions with
  | ok choice => exact offers_just hu choice
  | error _ => exact offers_fault hu _

lemma offers_validEntries (hr : Heard reg r) (name : String) (es : List LockEntry) :
    Offers reg (validEntries name es) r (entriesOffer name es) := by
  induction es generalizing r with
  | nil => exact offers_just hr []
  | cons e es ih =>
    rw [validEntries, entriesOffer]
    cases honoursRange e with
    | error _ => exact offers_fault hr _
    | ok honoured =>
      cases honoured with
      | true => exact offers_bind (ih hr) fun rest u _ _ hu => offers_just hu (e :: rest)
      | false => exact offers_bind (offers_warnHere hr _) fun _ u _ _ hu => ih hu

lemma offers_fromLockfile (hr : Heard reg r) :
    Offers reg (fromLockfile ref) r (lockOffer r.manifest? r.lockfile ref) := by
  refine offers_get (offers_bind (offers_validEntries hr _ _) ?_)
  intro es u _ _ hu
  cases es with
  | nil => exact offers_just hu none
  | cons e es => exact offers_just hu _

lemma offers_fromRange (hr : Heard reg r) (range : String) (source : VersionSource)
    (detail : String) (warning : String → Warning) :
    Offers reg (fromRange ref range source detail warning) r
      (rangeOffer reg ref range source detail warning) := by
  rw [fromRange, rangeOffer]
  by_cases he : Version.isExact range = true
  · rw [if_pos he, if_pos he]
    exact offers_just hr _
  · rw [if_neg he, if_neg he]
    refine offers_bind (offers_pick hr range) ?_
    intro choice u _ _ hu
    cases choice with
    | ok v => exact offers_just hu _
    | error reason =>
      have hboth := offers_bind (offers_warnHere hu (warning reason.message))
        fun _ v _ _ hv => offers_just hv (none : Option ResolvedVersion)
      exact hboth

lemma offers_fromManifest (hr : Heard reg r) :
    Offers reg (fromManifest ref) r (manifestOffer reg r.manifest? ref) := by
  refine offers_get ?_
  rw [manifestOffer, declared?]
  cases r.manifest?.bind fun m => m.declaredRange? ref.fullName with
  | none => exact offers_just hr none
  | some declared =>
    obtain ⟨range, field⟩ := declared
    exact offers_fromRange hr range .manifest field.word _

lemma offers_fromParent (hr : Heard reg r) :
    Offers reg (fromParent ref parent?) r
      (parentOffer reg ref (parentRange? r.parents parent? ref)) := by
  refine offers_get ?_
  cases parent? with
  | none => exact offers_just hr none
  | some parent =>
    dsimp only
    rw [parentRange?, Option.bind_some]
    cases hrange : (r.parents.get? parent).bind (·.get? ref.fullName) with
    | none => exact offers_just hr none
    | some range =>
      by_cases hempty : range.isEmpty = true
      · simp only [hempty, if_true]
        simpa [Option.filter, hempty, parentOffer] using offers_just hr none
      · simp only [hempty]
        simpa [Option.filter, hempty, parentOffer] using
          offers_fromRange hr range .parent parent.render fun reason =>
            .unresolvedParentRange parent.render ref.fullName range reason

lemma offers_fromRegistry (hr : Heard reg r) :
    Offers reg (fromRegistry ref) r (registryOffer reg ref) := by
  refine offers_bind (offers_publishedVersions hr) ?_
  intro versions u _ _ hu
  cases Version.pickLatest versions with
  | ok v => exact offers_just hu _
  | error reason => exact offers_fault hu _

/-- The first of some steps that gives a version comes to the first of their offers. -/
lemma offers_firstOf {steps : List (Choosing (Option ResolvedVersion))}
    {last : Choosing ResolvedVersion} {os : List (Offer (Option ResolvedVersion))}
    {lastOffer : Offer ResolvedVersion} {start : Resolver} (hstart : Alike start r)
    (hr : Heard reg r)
    (hsteps : List.Forall₂
      (fun step o => ∀ u, Alike start u → Heard reg u → Offers reg step u o) steps os)
    (hlast : ∀ u, Alike start u → Heard reg u → Offers reg last u lastOffer) :
    Offers reg (firstOf steps last) r (firstOffer os lastOffer) := by
  induction hsteps generalizing r with
  | nil => exact hlast r hstart hr
  | @cons step o steps os hstep _ ih =>
    refine offers_bind (hstep r hstart hr) ?_
    intro v? u _ hlike hu
    cases v? with
    | some v => exact offers_just hu v
    | none => exact ih (hstart.trans hlike) hu

/-- The sources of a version are asked in their order. -/
lemma offers_sources (hr : Heard reg r) :
    Offers reg
      (firstOf [fromLockfile ref, fromManifest ref, fromParent ref parent?] (fromRegistry ref)) r
      (freshOffer reg r ref parent?) := by
  -- each source reads the resolver as the sources before it left it, and those leave the rules alone
  refine offers_firstOf (.refl r) hr ?_ fun u _ hu => offers_fromRegistry hu
  refine .cons ?_ (.cons ?_ (.cons ?_ .nil))
  · intro u hlike hu
    rw [← hlike.manifest, ← hlike.lockfile]
    exact offers_fromLockfile hu
  · intro u hlike hu
    rw [← hlike.manifest]
    exact offers_fromManifest hu
  · intro u hlike hu
    rw [← hlike.parents]
    exact offers_fromParent hu

lemma offers_checkConflicts (hr : Heard reg r) (name : String) :
    Offers reg (checkConflicts name) r (conflictOffer r name) := by
  refine offers_get ?_
  rw [conflictOffer]
  dsimp only
  split
  · exact offers_warnHere hr _
  · exact offers_just hr ()

/-! ## The choice of a version -/

/-- The versions that are kept after an outcome: what has been chosen first stays. -/
def kept (session : Table String String) (name : String) :
    Except Fault ResolvedVersion → Table String String
  | .ok v => session.insertNew name v.version
  | .error _ => session

/-- What happens while an open version is chosen: what happens on the way to the outcome, and that it
is kept. -/
def CourseTo (reg : Catalogue) (o : Offer ResolvedVersion) (r : Resolver) (name : String)
    (talk : Talk Question Question.Answer) (r' : Resolver) : Prop :=
  ∃ u, Course reg o.warnings o.asks r talk u ∧
    r' = { u with session := kept r.session name o.outcome }

lemma insertNew_of_get? {t : Table String String} {name v : String} (h : t.get? name = some v)
    (w : String) : t.insertNew name w = t := by
  rw [Table.insertNew, Table.contains, h]
  rfl

lemma insertNew_of_none {t : Table String String} {name : String} (h : t.get? name = none)
    (w : String) : t.insertNew name w = t.insert name w := by
  rw [Table.insertNew, Table.contains, h]
  rfl

lemma openOffer_of_kept {v : String} (h : r.session.get? ref.fullName = some v) :
    openOffer reg r ref parent? =
      ⟨.ok ⟨v, .session, none⟩, (conflictOffer r ref.fullName).warnings, false⟩ := by
  rw [openOffer, Offer.andThen_of_ok rfl, h]
  simp [Offer.just, conflictOffer]

lemma openOffer_of_fresh (h : r.session.get? ref.fullName = none) :
    openOffer reg r ref parent? =
      ⟨(freshOffer reg r ref parent?).outcome,
        (conflictOffer r ref.fullName).warnings ++ (freshOffer reg r ref parent?).warnings,
        (freshOffer reg r ref parent?).asks⟩ := by
  rw [openOffer, Offer.andThen_of_ok rfl, h]
  simp [conflictOffer]

lemma freshOffer_congr (h : Alike r u) :
    freshOffer reg u ref parent? = freshOffer reg r ref parent? := by
  rw [freshOffer, freshOffer, h.manifest, h.lockfile, h.parents]

/-- The choice of an open version comes to what is offered. -/
theorem gives_resolveUnpinned (hr : Heard reg r) :
    Run.Gives (byCatalogue reg) (resolveUnpinned ref parent?) r (openOffer reg r ref parent?).outcome
      (CourseTo reg (openOffer reg r ref parent?) r ref.fullName) := by
  refine Run.Gives.bind_ok (offers_checkConflicts hr ref.fullName) ?_
  intro talk u hu
  refine Run.Gives.get_bind ?_
  rw [hu.alike.session]
  cases hsession : r.session.get? ref.fullName with
  | some v =>
    -- a version that has been chosen stays, and to keep it again changes nothing
    rw [openOffer_of_kept hsession]
    refine Run.Gives.pure ⟨u, ?_, ?_⟩
    · rw [List.append_nil]
      exact hu
    · rw [kept, insertNew_of_get? hsession, ← hu.alike.session]
  | none =>
    rw [openOffer_of_fresh hsession]
    have hsources : Offers reg _ u (freshOffer reg u ref parent?) := offers_sources hu.heard
    rw [freshOffer_congr hu.alike] at hsources
    unfold Offers at hsources
    cases hout : (freshOffer reg r ref parent?).outcome with
    | error e =>
      rw [hout] at hsources
      refine Run.Gives.bind_error (hsources.imp ?_)
      intro more v hv
      refine ⟨v, hu.trans hv, ?_⟩
      rw [kept, ← hu.alike.session, ← hv.alike.session]
    | ok resolved =>
      rw [hout] at hsources
      refine Run.Gives.bind_ok hsources ?_
      intro more v hv
      refine Run.Gives.modify_bind ?_
      refine gives_log_bind _ (Run.Gives.pure ⟨v, ?_, ?_⟩)
      · rw [List.append_nil]
        exact hu.trans hv
      · rw [kept, insertNew_of_none hsession, ← hu.alike.session, ← hv.alike.session]

end SourceBundle.Resolve
