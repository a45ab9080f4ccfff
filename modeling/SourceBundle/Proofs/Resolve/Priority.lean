/-
# The priority of the sources

A source of a version that has a lower priority does not influence the choice.  An entry of the
lockfile that honours its range decides alone, and the registry is not asked.  Otherwise what the
manifest declares decides, if it is an exact version or a range with a version in it.  Otherwise the
importing package counts with what it declares itself, and last the registry.  A version that is
chosen for a range lies in the range, and a range without a version is warned of and passed over.
-/
import SourceBundle.Proofs.Resolve.Offers
import SourceBundle.Proofs.Resolve.Sound
import SourceBundle.Proofs.Version.Rendered

namespace SourceBundle

open SourceBundle.Import

namespace Resolve

variable {reg reg₂ : Catalogue} {r r₂ r' : Resolver} {ref : PackageReference}
  {parent? parent₂? : Option PackageKey} {talk : Talk Question Question.Answer} {name range : String}
  {out : Except Fault ResolvedVersion} {source : VersionSource} {detail : String}
  {warning : String → Warning} {es : List LockEntry} {v : ResolvedVersion}

/-- Where the registry answers by a catalogue, and whatever others do meanwhile, the choice of a
version can lead a conversation, come to an outcome and leave what is then remembered. -/
def Chooses (reg : Catalogue) (ref : PackageReference) (parent? : Option PackageKey) (r : Resolver)
    (talk : Talk Question Question.Answer) (out : Except Fault ResolvedVersion) (r' : Resolver) : Prop :=
  ∃ (T : Terms Service Question Question.Answer) (s s' : Service),
    (∀ q a, T.answer q a → byCatalogue reg q a) ∧
      ((resolve ref parent?).run r).Converses T s talk (out, r') s'

/-- The version of a package is open, and none has been chosen. -/
structure Fresh (reg : Catalogue) (r : Resolver) (ref : PackageReference) : Prop where
  heard : Heard reg r
  isOpen : ref.isOpen = true
  unkept : r.session.get? ref.fullName = none

/-- The ranges that concern a package can be read. -/
structure Buildable (r : Resolver) (ref : PackageReference) (parent? : Option PackageKey) : Prop where
  lockfile : ∀ e ∈ lockEntries r.lockfile ref, ∀ range, e.range? = some range →
    Version.Readable range
  manifest : ∀ range field, declared? r.manifest? ref = some (range, field) → Version.Readable range
  parent : ∀ key range, parentRange? r.parents parent? ref = some (key, range) →
    Version.Readable range

/-- The lockfile has an entry for a package that honours its range. -/
def Locked (lockfile : Lockfile) (ref : PackageReference) : Prop :=
  ∃ e ∈ lockEntries lockfile ref, honoursRange e = .ok true

/-- A declared range gives a version: it is exact, or a published version lies in it. -/
def Decides (reg : Catalogue) (ref : PackageReference) (range : String) : Prop :=
  Version.isExact range = true ∨
    ∃ versions, reg ref.fullName = .ok versions ∧ Version.Satisfiable range versions

/-- A declared range gives no version: no published version lies in it. -/
def Unsatisfiable (reg : Catalogue) (ref : PackageReference) (range : String) : Prop :=
  Version.isExact range = false ∧
    ∃ versions, reg ref.fullName = .ok versions ∧ ¬ Version.Satisfiable range versions

/-- A version is right for a declared range: it is the exact version that is declared, or it lies in
the range. -/
def Suits (version range : String) : Prop :=
  if Version.isExact range then version = dropMarks range
  else Version.satisfies version range = .ok true

/-- Two resolvers go by the same manifest and the same lockfile. -/
structure SameRules (r r₂ : Resolver) : Prop where
  manifest : r₂.manifest? = r.manifest?
  lockfile : r₂.lockfile = r.lockfile

/-- A warning is given between two logs, unless one with its key was given before. -/
def Reported (w : Warning) (l l' : WarningLog) : Prop := l.knows w = true ∨ w ∈ l'.given

/-- The entry honours its range. -/
def honours (e : LockEntry) : Bool :=
  match honoursRange e with
  | .ok honoured => honoured
  | .error _ => false

-- The lemmas hold whatever counts as an exact version, and nothing should try to evaluate it.
attribute [local irreducible] Version.isExact Version.pickRange Version.pickLatest honoursRange

/-! ## The lockfile -/

lemma honours_iff {e : LockEntry} : honours e = true ↔ honoursRange e = .ok true := by
  rw [honours]
  cases honoursRange e with
  | ok honoured => simp
  | error f => simp

/-- Of entries with readable ranges those that honour them are offered, the others are warned of, and
the registry is not asked. -/
lemma entriesOffer_eq (hes : ∀ e ∈ es, ∃ b, honoursRange e = .ok b) (name : String) :
    (entriesOffer name es).outcome = .ok (es.filter honours) ∧
      (entriesOffer name es).asks = false ∧
      ∀ w ∈ (entriesOffer name es).warnings, ∃ range pinned, w = .invalidLockEntry name range pinned := by
  induction es with
  | nil => exact ⟨rfl, rfl, fun w hw => absurd hw List.not_mem_nil⟩
  | cons e es ih =>
    obtain ⟨hout, hasks, hwarn⟩ := ih fun e' he' => hes e' (List.mem_cons_of_mem e he')
    obtain ⟨honoured, he⟩ := hes e List.mem_cons_self
    have hb : honours e = honoured := by rw [honours, he]
    rw [entriesOffer, he]
    cases honoured with
    | true =>
      dsimp only
      rw [Offer.andThen_of_ok hout, List.filter_cons_of_pos hb]
      refine ⟨rfl, by simp [hasks, Offer.just], ?_⟩
      simpa [Offer.just] using hwarn
    | false =>
      dsimp only
      rw [Offer.andThen_of_ok rfl, List.filter_cons_of_neg (by simp [hb])]
      refine ⟨hout, by simp [hasks], ?_⟩
      intro w hw
      rcases List.mem_append.mp hw with hw | hw
      · exact ⟨_, _, List.mem_singleton.mp hw⟩
      · exact hwarn w hw

/-- An entry that honours its range gives a version from the lockfile. -/
lemma lockOffer_of_locked (hes : ∀ e ∈ lockEntries r.lockfile ref, ∃ b, honoursRange e = .ok b)
    (h : Locked r.lockfile ref) :
    ∃ v, v.source = .lockfile ∧ (lockOffer r.manifest? r.lockfile ref).outcome = .ok (some v) ∧
      (lockOffer r.manifest? r.lockfile ref).asks = false := by
  obtain ⟨hout, hasks, -⟩ := entriesOffer_eq hes ref.fullName
  obtain ⟨e, he, hhonours⟩ := h
  have hmem : e ∈ (lockEntries r.lockfile ref).filter honours :=
    List.mem_filter.mpr ⟨he, honours_iff.mpr hhonours⟩
  obtain ⟨first, rest, hfilter⟩ := List.exists_cons_of_ne_nil (List.ne_nil_of_mem hmem)
  rw [hfilter] at hout
  rw [lockOffer, Offer.andThen_of_ok hout]
  exact ⟨_, rfl, rfl, by simp [hasks, Offer.just]⟩

/-- Without such an entry nothing comes from the lockfile but warnings. -/
lemma lockOffer_of_unlocked (hes : ∀ e ∈ lockEntries r.lockfile ref, ∃ b, honoursRange e = .ok b)
    (h : ¬ Locked r.lockfile ref) :
    (lockOffer r.manifest? r.lockfile ref).outcome = .ok none ∧
      ∀ w ∈ (lockOffer r.manifest? r.lockfile ref).warnings,
        ∃ range pinned, w = .invalidLockEntry ref.fullName range pinned := by
  obtain ⟨hout, -, hwarn⟩ := entriesOffer_eq hes ref.fullName
  have hfilter : (lockEntries r.lockfile ref).filter honours = [] := by
    rw [List.filter_eq_nil_iff]
    intro e he hb
    exact h ⟨e, he, honours_iff.mp hb⟩
  rw [hfilter] at hout
  rw [lockOffer, Offer.andThen_of_ok hout]
  refine ⟨rfl, ?_⟩
  simpa [Offer.just] using hwarn

/-! ## Declared ranges -/

/-- A range that decides gives a version that suits it. -/
lemma rangeOffer_of_decides (h : Decides reg ref range) (source : VersionSource) (detail : String)
    (warning : String → Warning) :
    ∃ version, (rangeOffer reg ref range source detail warning).outcome =
      .ok (some ⟨version, source, some detail⟩) := by
  rw [rangeOffer]
  by_cases he : Version.isExact range = true
  · rw [if_pos he]
    exact ⟨_, rfl⟩
  · rw [if_neg he]
    obtain ⟨versions, hreg, hsat⟩ := h.resolve_left he
    obtain ⟨version, hpick⟩ := Version.pickRange_isOk_iff.mpr hsat
    have hout : (pickOffer reg ref range).outcome = .ok (.ok version) := by
      rw [pickOffer, Offer.andThen_of_ok (outcome_publishedOffer hreg), hpick]
      rfl
    rw [Offer.andThen_of_ok hout]
    exact ⟨version, rfl⟩

/-- A range without a version is warned of. -/
lemma rangeOffer_of_unsatisfiable (hread : Version.Readable range) (h : Unsatisfiable reg ref range)
    (source : VersionSource) (detail : String) (warning : String → Warning) :
    ∃ versions reason, reg ref.fullName = .ok versions ∧
      Version.pickRange range versions = .ok (.error reason) ∧
      rangeOffer reg ref range source detail warning = ⟨.ok none, [warning reason.message], true⟩ := by
  obtain ⟨hexact, versions, hreg, hunsat⟩ := h
  obtain ⟨choice, hpick⟩ := hread.pickRange versions
  cases choice with
  | ok version => exact absurd (Version.pickRange_isOk_iff.mp ⟨version, hpick⟩) hunsat
  | error reason =>
    refine ⟨versions, reason, hreg, hpick, ?_⟩
    have hout : pickOffer reg ref range = ⟨.ok (.error reason), [], true⟩ := by
      rw [pickOffer, Offer.andThen_of_ok (outcome_publishedOffer hreg), hpick]
      rfl
    rw [rangeOffer, if_neg (by simp [hexact]), hout, Offer.andThen_of_ok rfl]
    rfl

/-- A version that a declared range gives suits it. -/
lemma suits_of_rangeOffer
    (h : (rangeOffer reg ref range source detail warning).outcome = .ok (some v)) :
    v.source = source ∧ Suits v.version range := by
  rw [rangeOffer] at h
  rw [Suits]
  by_cases he : Version.isExact range = true
  · rw [if_pos he] at h ⊢
    obtain rfl := Option.some.inj (Except.ok.inj h)
    exact ⟨rfl, rfl⟩
  · rw [if_neg he] at h ⊢
    obtain ⟨choice, hout, hchoice⟩ := Offer.outcome_andThen_eq_ok.mp h
    cases choice with
    | error reason => cases hchoice
    | ok version =>
      obtain rfl := Option.some.inj (Except.ok.inj hchoice)
      refine ⟨rfl, ?_⟩
      obtain ⟨versions, -, hpick⟩ := Offer.outcome_andThen_eq_ok.mp hout
      cases hrange : Version.pickRange range versions with
      | error f =>
        rw [hrange] at hpick
        cases hpick
      | ok choice =>
        rw [hrange] at hpick
        obtain rfl : choice = .ok version := Except.ok.inj hpick
        exact Version.satisfies_of_pickRange hrange

/-! ## The chain -/

section Chain

variable {o : Offer (Option ResolvedVersion)} {os : List (Offer (Option ResolvedVersion))}
  {last : Offer ResolvedVersion}

lemma firstOffer_of_some (h : o.outcome = .ok (some v)) :
    firstOffer (o :: os) last = ⟨.ok v, o.warnings, o.asks⟩ := by
  rw [firstOffer, Offer.andThen_of_ok h]
  simp [Offer.just]

lemma firstOffer_of_none (h : o.outcome = .ok none) :
    firstOffer (o :: os) last =
      ⟨(firstOffer os last).outcome, o.warnings ++ (firstOffer os last).warnings,
        o.asks || (firstOffer os last).asks⟩ := by
  rw [firstOffer, Offer.andThen_of_ok h]

/-- What comes of some sources comes from one of them, or from the last one. -/
lemma mem_of_firstOffer (h : (firstOffer os last).outcome = .ok v) :
    (∃ o ∈ os, o.outcome = .ok (some v)) ∨ last.outcome = .ok v := by
  induction os with
  | nil => exact .inr h
  | cons o os ih =>
    obtain ⟨v?, ho, hv⟩ := Offer.outcome_andThen_eq_ok.mp h
    cases v? with
    | some w =>
      obtain rfl := Except.ok.inj hv
      exact .inl ⟨o, List.mem_cons_self, ho⟩
    | none =>
      rcases ih hv with ⟨o', ho', hv'⟩ | hlast
      · exact .inl ⟨o', List.mem_cons_of_mem o ho', hv'⟩
      · exact .inr hlast

end Chain

lemma manifestOffer_of_some {field : DeclarationField}
    (h : declared? r.manifest? ref = some (range, field)) :
    manifestOffer reg r.manifest? ref =
      rangeOffer reg ref range .manifest field.word fun reason =>
        .unresolvedManifestRange ref.fullName range reason := by
  rw [manifestOffer, h]

lemma source_of_lockOffer {manifest? : Option Manifest} {lockfile : Lockfile}
    (h : (lockOffer manifest? lockfile ref).outcome = .ok (some v)) : v.source = .lockfile := by
  obtain ⟨es, -, hv⟩ := Offer.outcome_andThen_eq_ok.mp h
  cases es with
  | nil => cases hv
  | cons e es =>
    obtain rfl := Option.some.inj (Except.ok.inj hv)
    rfl

lemma source_of_registryOffer (h : (registryOffer reg ref).outcome = .ok v) :
    v.source = .registry := by
  obtain ⟨versions, -, hv⟩ := Offer.outcome_andThen_eq_ok.mp h
  cases hlatest : Version.pickLatest versions with
  | error reason =>
    rw [hlatest] at hv
    cases hv
  | ok version =>
    rw [hlatest] at hv
    obtain rfl := Except.ok.inj hv
    rfl

lemma suits_of_manifestOffer {manifest? : Option Manifest}
    (h : (manifestOffer reg manifest? ref).outcome = .ok (some v)) :
    v.source = .manifest ∧
      ∃ range field, declared? manifest? ref = some (range, field) ∧ Suits v.version range := by
  rw [manifestOffer] at h
  split at h
  · cases h
  · next range field hdeclared =>
    obtain ⟨hsource, hsuits⟩ := suits_of_rangeOffer h
    exact ⟨hsource, range, field, hdeclared, hsuits⟩

lemma suits_of_parentOffer {declared? : Option (PackageKey × String)}
    (h : (parentOffer reg ref declared?).outcome = .ok (some v)) :
    v.source = .parent ∧ ∃ key range, declared? = some (key, range) ∧ Suits v.version range := by
  cases declared? with
  | none => cases h
  | some declared =>
    obtain ⟨key, range⟩ := declared
    obtain ⟨hsource, hsuits⟩ := suits_of_rangeOffer h
    exact ⟨hsource, key, range, rfl, hsuits⟩

/-- A version that comes from the manifest or from the importing package suits what is declared
there. -/
lemma suits_of_freshOffer (h : (freshOffer reg r ref parent?).outcome = .ok v) :
    (v.source = .manifest → ∃ range field,
      declared? r.manifest? ref = some (range, field) ∧ Suits v.version range) ∧
    (v.source = .parent → ∃ key range,
      parentRange? r.parents parent? ref = some (key, range) ∧ Suits v.version range) := by
  rcases mem_of_firstOffer h with ⟨o, ho, hv⟩ | hlast
  · simp only [List.mem_cons, List.not_mem_nil, or_false] at ho
    rcases ho with rfl | rfl | rfl
    · have hsource := source_of_lockOffer hv
      simp [hsource]
    · obtain ⟨hsource, hsuits⟩ := suits_of_manifestOffer hv
      refine ⟨fun _ => hsuits, ?_⟩
      simp [hsource]
    · obtain ⟨hsource, hsuits⟩ := suits_of_parentOffer hv
      refine ⟨?_, fun _ => hsuits⟩
      simp [hsource]
  · have hsource := source_of_registryOffer hlast
    simp [hsource]

/-- What the manifest gives decides where the lockfile gives nothing. -/
lemma freshOffer_of_manifest (hlock : (lockOffer r.manifest? r.lockfile ref).outcome = .ok none)
    (hv : (manifestOffer reg r.manifest? ref).outcome = .ok (some v)) :
    (freshOffer reg r ref parent?).outcome = .ok v := by
  rw [freshOffer, firstOffer_of_none hlock, firstOffer_of_some hv]

/-- Where neither the lockfile nor the manifest gives anything, the importing package and the registry
are left. -/
lemma freshOffer_of_neither (parent? : Option PackageKey)
    (hlock : (lockOffer r.manifest? r.lockfile ref).outcome = .ok none)
    (hnone : (manifestOffer reg r.manifest? ref).outcome = .ok none) :
    (freshOffer reg r ref parent?).outcome =
      (firstOffer [parentOffer reg ref (parentRange? r.parents parent? ref)]
        (registryOffer reg ref)).outcome ∧
    (freshOffer reg r ref parent?).warnings =
      (lockOffer r.manifest? r.lockfile ref).warnings ++
        ((manifestOffer reg r.manifest? ref).warnings ++
          (firstOffer [parentOffer reg ref (parentRange? r.parents parent? ref)]
            (registryOffer reg ref)).warnings) := by
  rw [freshOffer, firstOffer_of_none hlock, firstOffer_of_none hnone]
  exact ⟨rfl, rfl⟩

/-! ## Warnings -/

/-- The first letter of the key of a warning, which tells the kinds of the warnings of a choice apart. -/
def initial (w : Warning) : Option Char := w.key.toList.head?

lemma initial_invalidLockEntry (package declared pinned : String) :
    initial (.invalidLockEntry package declared pinned) = some 'l' := by
  change (s!"lock:{package}:{declared}:{pinned}").toList.head? = _
  simp [toString, String.toList_append]

lemma initial_parentConflict (package : String) (requirements : List Requirement) :
    initial (.parentConflict package requirements) = some 'm' := by
  let joined := "|".intercalate (Warning.ranges requirements)
  change (s!"multi-parent:{package}:{joined}").toList.head? = _
  simp [toString, String.toList_append]

lemma initial_unresolvedManifestRange (package range reason : String) :
    initial (.unresolvedManifestRange package range reason) = some 'r' := by
  change (s!"range:{package}:{range}").toList.head? = _
  simp [toString, String.toList_append]

lemma initial_unresolvedParentRange (parent package range reason : String) :
    initial (.unresolvedParentRange parent package range reason) = some 'p' := by
  change (s!"parent-range:{parent}:{package}:{range}").toList.head? = _
  simp [toString, String.toList_append]

lemma initial_of_conflictOffer {w : Warning} (hw : w ∈ (conflictOffer r name).warnings) :
    initial w = some 'm' := by
  simp only [conflictOffer] at hw
  split at hw
  · rw [List.mem_singleton.mp hw]
    exact initial_parentConflict _ _
  · cases hw

section Log

variable {l : WarningLog} {w : Warning} {front back : List Warning}

lemma knows_add_of_key_ne {x : Warning} (h : x.key ≠ w.key) : (l.add x).knows w = l.knows w := by
  rw [WarningLog.add]
  split
  · rfl
  · simp [WarningLog.knows, h]

lemma knows_foldl_add (h : ∀ x ∈ front, x.key ≠ w.key) :
    (front.foldl WarningLog.add l).knows w = l.knows w := by
  induction front generalizing l with
  | nil => rfl
  | cons x front ih =>
    rw [List.foldl_cons, ih fun y hy => h y (List.mem_cons_of_mem x hy),
      knows_add_of_key_ne (h x List.mem_cons_self)]

lemma extends_foldl_add (ws : List Warning) : l.Extends (ws.foldl WarningLog.add l) := by
  induction ws generalizing l with
  | nil => exact refl_of WarningLog.Extends l
  | cons w ws ih => exact trans_of WarningLog.Extends (l.extends_add w) ih

/-- A warning is given if none of those before it has its key. -/
lemma reported_of_keys (h : ∀ x ∈ front, x.key ≠ w.key) :
    Reported w l ((front ++ w :: back).foldl WarningLog.add l) := by
  have hknows := knows_foldl_add (l := l) h
  rw [List.foldl_append, List.foldl_cons]
  rw [Reported, ← hknows]
  by_cases hk : (front.foldl WarningLog.add l).knows w = true
  · exact .inl hk
  · right
    have hadd : w ∈ ((front.foldl WarningLog.add l).add w).given := by
      rw [WarningLog.add, if_neg hk]
      exact List.mem_append_right _ (List.mem_singleton.mpr rfl)
    exact (extends_foldl_add back).subset hadd

/-- A warning is given if all of those before it are of other kinds. -/
lemma reported_foldl (h : ∀ x ∈ front, initial x ≠ initial w) :
    Reported w l ((front ++ w :: back).foldl WarningLog.add l) := by
  refine reported_of_keys fun x hx hkey => h x hx ?_
  rw [initial, initial, hkey]

end Log

/-! ## The choice -/

/-- The choice of a version that has not been chosen yet comes to what is offered. -/
lemma Fresh.chooses (h : Fresh reg r ref) (hc : Chooses reg ref parent? r talk out r') :
    out = (freshOffer reg r ref parent?).outcome ∧
      ((freshOffer reg r ref parent?).asks = false → talk = []) ∧
      r'.warnings = ((conflictOffer r ref.fullName).warnings ++
        (freshOffer reg r ref parent?).warnings).foldl WarningLog.add r.warnings := by
  obtain ⟨T, s, s', hT, hwalk⟩ := hc
  rw [resolve_of_open h.isOpen] at hwalk
  obtain ⟨hout, u, hu, rfl⟩ := (gives_resolveUnpinned h.heard).converses hT hwalk
  rw [openOffer_of_fresh h.unkept] at hout hu
  exact ⟨hout, hu.silent, hu.warnings⟩

lemma Buildable.honoursRange (h : Buildable r ref parent?) :
    ∀ e ∈ lockEntries r.lockfile ref, ∃ b, honoursRange e = .ok b :=
  fun e he => honoursRange_of_readable (h.lockfile e he)

/-- A manifest without a range that gives a version offers nothing but a warning. -/
lemma Buildable.manifestOffer_of_unsatisfiable (hread : Buildable r ref parent?)
    (h : ∀ range field, declared? r.manifest? ref = some (range, field) →
      Unsatisfiable reg ref range) :
    (manifestOffer reg r.manifest? ref).outcome = .ok none ∧
      ∀ w ∈ (manifestOffer reg r.manifest? ref).warnings, initial w = some 'r' := by
  cases hdeclared : declared? r.manifest? ref with
  | none =>
    rw [manifestOffer, hdeclared]
    exact ⟨rfl, fun w hw => absurd hw List.not_mem_nil⟩
  | some declared =>
    obtain ⟨range, field⟩ := declared
    obtain ⟨-, reason, -, -, hrange⟩ :=
      rangeOffer_of_unsatisfiable (hread.manifest _ _ hdeclared) (h _ _ hdeclared) .manifest
        field.word fun reason => .unresolvedManifestRange ref.fullName range reason
    rw [manifestOffer_of_some hdeclared, hrange]
    refine ⟨rfl, fun w hw => ?_⟩
    rw [List.mem_singleton.mp hw]
    exact initial_unresolvedManifestRange _ _ _

namespace Fresh

variable {out₂ : Except Fault ResolvedVersion} {r₂' : Resolver}
  {talk₂ : Talk Question Question.Answer} {field : DeclarationField} {key : PackageKey}

/-- An entry that honours its range decides, and the registry is not asked. -/
lemma of_locked (h : Fresh reg r ref) (hread : Buildable r ref parent?)
    (hc : Chooses reg ref parent? r talk out r') (hlocked : Locked r.lockfile ref) :
    talk = [] ∧ ∃ v, v.source = .lockfile ∧ out = .ok v ∧
      (lockOffer r.manifest? r.lockfile ref).outcome = .ok (some v) := by
  obtain ⟨v, hsource, hv, hasks⟩ := lockOffer_of_locked hread.honoursRange hlocked
  obtain ⟨hout, hsilent, -⟩ := h.chooses hc
  have hfresh : freshOffer reg r ref parent? =
      ⟨.ok v, (lockOffer r.manifest? r.lockfile ref).warnings,
        (lockOffer r.manifest? r.lockfile ref).asks⟩ := firstOffer_of_some hv
  rw [hfresh] at hout hsilent
  exact ⟨hsilent hasks, v, hsource, hout, hv⟩

/-- What the lockfile gives is the same under the same rules, whatever else there is. -/
lemma same_of_lockOffer (h₂ : Fresh reg₂ r₂ ref) (hrules : SameRules r r₂)
    (hc₂ : Chooses reg₂ ref parent₂? r₂ talk₂ out₂ r₂')
    (hv : (lockOffer r.manifest? r.lockfile ref).outcome = .ok (some v)) : out₂ = .ok v := by
  obtain ⟨hout₂, -⟩ := h₂.chooses hc₂
  rw [← hrules.manifest, ← hrules.lockfile] at hv
  rw [hout₂, freshOffer, firstOffer_of_some hv]

/-- What the manifest gives is the same under the same rules, whichever package imports. -/
lemma same_of_manifestOffer (h₂ : Fresh reg r₂ ref) (hrules : SameRules r r₂)
    (hc₂ : Chooses reg ref parent₂? r₂ talk₂ out₂ r₂')
    (hlock : (lockOffer r.manifest? r.lockfile ref).outcome = .ok none)
    (hv : (manifestOffer reg r.manifest? ref).outcome = .ok (some v)) : out₂ = .ok v := by
  obtain ⟨hout₂, -⟩ := h₂.chooses hc₂
  rw [← hrules.manifest] at hlock hv
  rw [← hrules.lockfile] at hlock
  rw [hout₂, freshOffer_of_manifest hlock hv]

/-- Under the same rules, what the importing package declares itself is all that matters. -/
lemma same_of_parentRange (h : Fresh reg r ref) (h₂ : Fresh reg r₂ ref) (hrules : SameRules r r₂)
    (hrange : parentRange? r₂.parents parent? ref = parentRange? r.parents parent? ref)
    (hc : Chooses reg ref parent? r talk out r')
    (hc₂ : Chooses reg ref parent? r₂ talk₂ out₂ r₂') : out₂ = out := by
  obtain ⟨hout, -⟩ := h.chooses hc
  obtain ⟨hout₂, -⟩ := h₂.chooses hc₂
  rw [hout₂, hout, freshOffer, freshOffer, hrules.manifest, hrules.lockfile, hrange]

/-- A range of the manifest without a version is warned of, and the choice is as without it. -/
lemma of_unsatisfiable_manifest (h : Fresh reg r ref) (hread : Buildable r ref parent?)
    (hc : Chooses reg ref parent? r talk out r') (hlocked : ¬ Locked r.lockfile ref)
    (hdeclared : declared? r.manifest? ref = some (range, field))
    (hunsat : Unsatisfiable reg ref range) :
    (∃ versions reason, reg ref.fullName = .ok versions ∧
      Version.pickRange range versions = .ok (.error reason) ∧
      Reported (.unresolvedManifestRange ref.fullName range reason.message) r.warnings r'.warnings) ∧
    ∀ talk₂ out₂ r₂', Chooses reg ref parent? { r with manifest? := none } talk₂ out₂ r₂' →
      out₂ = out := by
  obtain ⟨hlock, hlockWarnings⟩ := lockOffer_of_unlocked hread.honoursRange hlocked
  obtain ⟨versions, reason, hreg, hpick, hrange⟩ :=
    rangeOffer_of_unsatisfiable (hread.manifest range field hdeclared) hunsat .manifest field.word
      fun reason => .unresolvedManifestRange ref.fullName range reason
  rw [← manifestOffer_of_some hdeclared] at hrange
  obtain ⟨hout, hwarnings⟩ :=
    freshOffer_of_neither parent? hlock (by rw [hrange])
  obtain ⟨houtc, -, hlog⟩ := h.chooses hc
  constructor
  · refine ⟨versions, reason, hreg, hpick, ?_⟩
    rw [hlog, hwarnings, hrange, ← List.append_assoc, List.singleton_append]
    refine reported_foldl ?_
    intro x hx
    rw [initial_unresolvedManifestRange]
    rcases List.mem_append.mp hx with hx | hx
    · simp [initial_of_conflictOffer hx]
    · obtain ⟨declared, pinned, rfl⟩ := hlockWarnings x hx
      simp [initial_invalidLockEntry]
  · intro talk₂ out₂ r₂' hc₂
    -- without a manifest the lockfile gives nothing either
    have h₂ : Fresh reg { r with manifest? := none } ref := ⟨h.heard, h.isOpen, h.unkept⟩
    obtain ⟨hout₂, -⟩ := h₂.chooses hc₂
    obtain ⟨hlock₂, -⟩ :=
      lockOffer_of_unlocked (r := { r with manifest? := none }) hread.honoursRange hlocked
    have hnone₂ : (manifestOffer reg none ref).outcome = .ok none := rfl
    obtain ⟨hsame, -⟩ := freshOffer_of_neither parent? hlock₂ hnone₂
    rw [hout₂, hsame, houtc, hout]

/-- A range of the importing package without a version is warned of, and the choice is as for a file of
the workspace. -/
lemma of_unsatisfiable_parent (h : Fresh reg r ref) (hread : Buildable r ref parent?)
    (hc : Chooses reg ref parent? r talk out r') (hlocked : ¬ Locked r.lockfile ref)
    (hmanifest : ∀ range field, declared? r.manifest? ref = some (range, field) →
      Unsatisfiable reg ref range)
    (hparent : parentRange? r.parents parent? ref = some (key, range))
    (hunsat : Unsatisfiable reg ref range) :
    (∃ versions reason, reg ref.fullName = .ok versions ∧
      Version.pickRange range versions = .ok (.error reason) ∧
      Reported (.unresolvedParentRange key.render ref.fullName range reason.message) r.warnings
        r'.warnings) ∧
    ∀ talk₂ out₂ r₂', Chooses reg ref none r talk₂ out₂ r₂' → out₂ = out := by
  obtain ⟨hlock, hlockWarnings⟩ := lockOffer_of_unlocked hread.honoursRange hlocked
  have hnone := hread.manifestOffer_of_unsatisfiable hmanifest
  obtain ⟨versions, reason, hreg, hpick, hrange⟩ :=
    rangeOffer_of_unsatisfiable (hread.parent key range hparent) hunsat .parent key.render
      fun reason => .unresolvedParentRange key.render ref.fullName range reason
  have hoffer : parentOffer reg ref (parentRange? r.parents parent? ref) =
      ⟨.ok none, [.unresolvedParentRange key.render ref.fullName range reason.message], true⟩ := by
    rw [hparent]
    exact hrange
  obtain ⟨hout, hwarnings⟩ := freshOffer_of_neither parent? hlock hnone.1
  obtain ⟨houtc, -, hlog⟩ := h.chooses hc
  rw [firstOffer_of_none (by rw [hoffer])] at hout hwarnings
  constructor
  · refine ⟨versions, reason, hreg, hpick, ?_⟩
    rw [hlog, hwarnings, hoffer, List.singleton_append, ← List.append_assoc, ← List.append_assoc]
    refine reported_foldl ?_
    intro x hx
    rw [initial_unresolvedParentRange]
    rcases List.mem_append.mp hx with hx | hx
    · rcases List.mem_append.mp hx with hx | hx
      · simp [initial_of_conflictOffer hx]
      · obtain ⟨declared, pinned, rfl⟩ := hlockWarnings x hx
        simp [initial_invalidLockEntry]
    · simp [hnone.2 x hx]
  · intro talk₂ out₂ r₂' hc₂
    obtain ⟨hout₂, -⟩ := h.chooses hc₂
    obtain ⟨hsame, -⟩ := freshOffer_of_neither none hlock hnone.1
    rw [hout₂, hsame, houtc, hout, firstOffer_of_none rfl]

end Fresh

/-- **The priority of the sources.**  Take an import that leaves the version of its package open, none
of which has been chosen, where the registry answers by a catalogue and the ranges that concern the
package can be read.  The choice comes to an end, and in whatever way it does, each source of a lower
priority is without influence where one of a higher priority gives a version; what is given for a
range suits it; and a range without a version is warned of and passed over. -/
theorem sources_by_priority (h : Fresh reg r ref) (hread : Buildable r ref parent?) :
    (∀ s, ∃ talk out r' s', ((resolve ref parent?).run r).Converses
      (.answering (byCatalogue reg)) s talk (out, r') s') ∧
    ∀ talk out r', Chooses reg ref parent? r talk out r' →
      -- neither the registry nor the packages matter where the lockfile gives a version
      (Locked r.lockfile ref →
        talk = [] ∧ (∃ v, out = .ok v ∧ v.source = .lockfile) ∧
        ∀ reg₂ r₂ parent₂? talk₂ out₂ r₂', SameRules r r₂ → Fresh reg₂ r₂ ref →
          Chooses reg₂ ref parent₂? r₂ talk₂ out₂ r₂' → out₂ = out) ∧
      -- the packages do not matter where the manifest gives a version
      (¬ Locked r.lockfile ref → (∃ range field, declared? r.manifest? ref = some (range, field) ∧
          Decides reg ref range) →
        (∃ v, out = .ok v ∧ v.source = .manifest) ∧
        ∀ r₂ parent₂? talk₂ out₂ r₂', SameRules r r₂ → Fresh reg r₂ ref →
          Chooses reg ref parent₂? r₂ talk₂ out₂ r₂' → out₂ = out) ∧
      -- of the packages the importing one matters, with what it declares for the package
      (∀ r₂ talk₂ out₂ r₂', SameRules r r₂ → Fresh reg r₂ ref →
        parentRange? r₂.parents parent? ref = parentRange? r.parents parent? ref →
        Chooses reg ref parent? r₂ talk₂ out₂ r₂' → out₂ = out) ∧
      (∀ v, out = .ok v →
        (v.source = .manifest → ∃ range field,
          declared? r.manifest? ref = some (range, field) ∧ Suits v.version range) ∧
        (v.source = .parent → ∃ key range,
          parentRange? r.parents parent? ref = some (key, range) ∧ Suits v.version range)) ∧
      -- a range of the manifest without a version
      (∀ range field, ¬ Locked r.lockfile ref → declared? r.manifest? ref = some (range, field) →
        Unsatisfiable reg ref range →
        (∃ versions reason, reg ref.fullName = .ok versions ∧
          Version.pickRange range versions = .ok (.error reason) ∧
          Reported (.unresolvedManifestRange ref.fullName range reason.message) r.warnings
            r'.warnings) ∧
        ∀ talk₂ out₂ r₂', Chooses reg ref parent? { r with manifest? := none } talk₂ out₂ r₂' →
          out₂ = out) ∧
      -- a range of the importing package without a version
      (∀ key range, ¬ Locked r.lockfile ref →
        (∀ range field, declared? r.manifest? ref = some (range, field) →
          Unsatisfiable reg ref range) →
        parentRange? r.parents parent? ref = some (key, range) → Unsatisfiable reg ref range →
        (∃ versions reason, reg ref.fullName = .ok versions ∧
          Version.pickRange range versions = .ok (.error reason) ∧
          Reported (.unresolvedParentRange key.render ref.fullName range reason.message) r.warnings
            r'.warnings) ∧
        ∀ talk₂ out₂ r₂', Chooses reg ref none r talk₂ out₂ r₂' → out₂ = out) := by
  constructor
  · intro s
    obtain ⟨talk, ⟨out, r'⟩, s', hwalk⟩ :=
      Routine.exists_converses (exists_answer reg) ((resolve ref parent?).run r) s
    exact ⟨talk, out, r', s', hwalk⟩
  intro talk out r' hc
  obtain ⟨hout, -⟩ := h.chooses hc
  refine ⟨?_, ?_, ?_, ?_, ?_, ?_⟩
  · intro hlocked
    obtain ⟨htalk, v, hsource, hv, hoffer⟩ := h.of_locked hread hc hlocked
    refine ⟨htalk, ⟨v, hv, hsource⟩, ?_⟩
    intro reg₂ r₂ parent₂? talk₂ out₂ r₂' hrules h₂ hc₂
    rw [h₂.same_of_lockOffer hrules hc₂ hoffer, hv]
  · rintro hlocked ⟨range, field, hdeclared, hdecides⟩
    obtain ⟨hlock, -⟩ := lockOffer_of_unlocked hread.honoursRange hlocked
    obtain ⟨version, hoffer⟩ := rangeOffer_of_decides hdecides .manifest field.word fun reason =>
      .unresolvedManifestRange ref.fullName range reason
    rw [← manifestOffer_of_some hdeclared] at hoffer
    have hv := hout.trans (freshOffer_of_manifest hlock hoffer)
    refine ⟨⟨_, hv, rfl⟩, ?_⟩
    intro r₂ parent₂? talk₂ out₂ r₂' hrules h₂ hc₂
    rw [h₂.same_of_manifestOffer hrules hc₂ hlock hoffer, hv]
  · intro r₂ talk₂ out₂ r₂' hrules h₂ hrange hc₂
    exact h.same_of_parentRange h₂ hrules hrange hc hc₂
  · intro v hv
    exact suits_of_freshOffer (hout.symm.trans hv)
  · intro range field hlocked hdeclared hunsat
    exact h.of_unsatisfiable_manifest hread hc hlocked hdeclared hunsat
  · intro key range hlocked hmanifest hparent hunsat
    exact h.of_unsatisfiable_parent hread hc hlocked hmanifest hparent hunsat

/-- The workspace declares a range for a package, and there is nothing else to go by. -/
def rangedResolver : Resolver where
  manifest? := some ⟨none, Table.ofList [(.dependencies, Table.ofList [("p", "^1.0.0")])]⟩
  lockfile := ∅
  warnings := {}
  session := ∅
  parents := ∅
  published := ∅
  pins := ∅

/-- An import that leaves the version of this package open. -/
def openReference : PackageReference := ⟨none, "p", none, "x.sol"⟩

/-- Of two releases, the one in the range of the workspace is chosen, whichever package imports. -/
theorem sources_by_priority_ranged :
    Fresh pairCatalogue rangedResolver openReference ∧ Buildable rangedResolver openReference none ∧
      ∀ talk out r', Chooses pairCatalogue openReference none rangedResolver talk out r' →
        (∃ v, out = .ok v ∧ v.source = .manifest ∧ Suits v.version "^1.0.0") ∧
        ∀ parent? talk₂ out₂ r₂',
          Chooses pairCatalogue openReference parent? rangedResolver talk₂ out₂ r₂' → out₂ = out := by
  have hdeclared : declared? rangedResolver.manifest? openReference = some ("^1.0.0", .dependencies) := by
    decide +kernel
  have hfresh : Fresh pairCatalogue rangedResolver openReference := ⟨nofun, by decide, by decide +kernel⟩
  have hread : Buildable rangedResolver openReference none := by
    refine ⟨nofun, ?_, nofun⟩
    intro range field h
    obtain ⟨rfl, -⟩ := Prod.mk.inj (Option.some.inj (hdeclared.symm.trans h))
    decide +kernel
  refine ⟨hfresh, hread, ?_⟩
  intro talk out r' hc
  obtain ⟨-, hall⟩ := sources_by_priority hfresh hread
  obtain ⟨-, hmanifest, -, hsuits, -⟩ := hall talk out r' hc
  have hpick : Version.pickRange "^1.0.0" ["1.0.0", "2.0.0"] = .ok (.ok "1.0.0") := by decide +kernel
  have hdecides : Decides pairCatalogue openReference "^1.0.0" :=
    .inr ⟨_, rfl, Version.pickRange_isOk_iff.mp ⟨_, hpick⟩⟩
  have hunlocked : ¬ Locked rangedResolver.lockfile openReference := by
    rintro ⟨e, he, -⟩
    cases he
  obtain ⟨⟨v, hv, hsource⟩, hsame⟩ := hmanifest hunlocked ⟨_, _, hdeclared, hdecides⟩
  obtain ⟨range, field, h, hsuit⟩ := (hsuits v hv).1 hsource
  obtain ⟨rfl, -⟩ := Prod.mk.inj (Option.some.inj (hdeclared.symm.trans h))
  refine ⟨⟨v, hv, hsource, hsuit⟩, ?_⟩
  intro parent? talk₂ out₂ r₂' hc₂
  exact hsame rangedResolver parent? talk₂ out₂ r₂' ⟨rfl, rfl⟩ hfresh hc₂

end Resolve

end SourceBundle
