/-
# Locked versions and their ranges

An entry of the lockfile strays if its pin is a version that lies outside the range it was locked for.
Entries that stray are warned of and left aside; of the others one decides.  So a version that comes
from the lockfile lies in the range of its entry, unless the entry has no range, or its pin cannot be
read as a version: then nothing speaks against it, and it may be chosen.
-/
import SourceBundle.Proofs.Resolve.Priority
import SourceBundle.Proofs.Text.Cut
import SourceBundle.Proofs.Version.Tolerant

namespace SourceBundle.Resolve

open SourceBundle.Import SourceBundle.Text

variable {T : Terms Service Question Question.Answer} {s s' : Service} {r r' : Resolver}
  {ref : PackageReference} {parent? : Option PackageKey} {name range : String} {e : LockEntry}
  {es : List LockEntry} {v : ResolvedVersion} {w : Warning}

/-- The pin of an entry is a version, and it lies outside the range it was locked for. -/
def Strays (e : LockEntry) : Prop :=
  ∃ range ∈ e.range?, range ≠ "" ∧ Version.isExact e.version = true ∧
    Version.satisfies e.version range = .ok false

instance : DecidablePred Strays := fun e =>
  inferInstanceAs (Decidable (∃ range ∈ e.range?, range ≠ "" ∧ Version.isExact e.version = true ∧
    Version.satisfies e.version range = .ok false))

/-- The warning of an entry that strays. -/
def strayWarning (name : String) (e : LockEntry) : Warning :=
  .invalidLockEntry name (e.range?.getD "") e.version

-- The lemmas hold whatever counts as an exact version, and nothing should try to evaluate it.
attribute [local irreducible] Version.isExact Version.satisfies Version.pickRange Version.pickLatest rank

/-! ## Checking the entries -/

lemma honoursRange_eq_false_iff : honoursRange e = .ok false ↔ Strays e := by
  obtain ⟨range?, version⟩ := e
  cases range? with
  | none => simp [honoursRange, Strays]
  | some range =>
    by_cases hempty : range = ""
    · simp [honoursRange, Strays, hempty]
    · by_cases hexact : Version.isExact version = true
      · simp [honoursRange, Strays, hempty, hexact]
      · simp [honoursRange, Strays, hexact]

/-- An entry whose check comes to an answer and that does not stray has its pin in its range, if the pin
is a version. -/
lemma satisfies_of_not_strays {b : Bool} (hread : honoursRange e = .ok b) (h : ¬ Strays e)
    (hrange : range ∈ e.range?) (hne : range ≠ "") (hexact : Version.isExact e.version = true) :
    Version.satisfies e.version range = .ok true := by
  have hcheck : honoursRange e = Version.satisfies e.version range := by
    rw [honoursRange, Option.mem_def.mp hrange]
    simp [hne, hexact]
  cases b with
  | false => exact absurd (honoursRange_eq_false_iff.mp hread) h
  | true => rw [← hcheck, hread]

lemma honours_eq {b : Bool} (hread : honoursRange e = .ok b) : honours e = !decide (Strays e) := by
  have hstrays := honoursRange_eq_false_iff (e := e)
  rw [hread] at hstrays
  cases b <;> simp_all [honours]

/-- Where an entry cannot be checked, the check of all entries fails. -/
lemma entriesOffer_of_unchecked (h : ¬ ∀ e ∈ es, ∃ b, honoursRange e = .ok b) (name : String) :
    (entriesOffer name es).outcome = .error .unreadableRange := by
  -- on the entries; the warnings of those before the failing one do not stop it
  induction es with
  | nil => exact absurd (fun e he => absurd he List.not_mem_nil) h
  | cons e es ih =>
    rw [entriesOffer]
    cases hread : honoursRange e with
    | error f => rfl
    | ok b =>
      have hrest : ¬ ∀ e ∈ es, ∃ b, honoursRange e = .ok b := fun hall =>
        h (List.forall_mem_cons.mpr ⟨⟨b, hread⟩, hall⟩)
      cases b with
      | true => exact congrArg Offer.outcome (Offer.andThen_of_error (ih hrest))
      | false =>
        dsimp only
        rw [Offer.andThen_of_ok rfl]
        exact ih hrest

/-- Of entries that can be checked all that stray are warned of, in their order. -/
lemma warnings_entriesOffer (hread : ∀ e ∈ es, ∃ b, honoursRange e = .ok b) (name : String) :
    (entriesOffer name es).warnings = (es.filter fun e => Strays e).map (strayWarning name) := by
  induction es with
  | nil => rfl
  | cons e es ih =>
    obtain ⟨⟨b, he⟩, hes⟩ := List.forall_mem_cons.mp hread
    have hrest := ih hes
    have hstrays := honoursRange_eq_false_iff (e := e)
    rw [he] at hstrays
    rw [entriesOffer, he]
    cases b with
    | true =>
      have hnot : ¬ Strays e := fun h => absurd (hstrays.mpr h) (by simp)
      obtain ⟨hout, -⟩ := entriesOffer_eq hes name
      dsimp only
      rw [Offer.andThen_of_ok hout, List.filter_cons_of_neg (by simpa using hnot), ← hrest]
      exact List.append_nil _
    | false =>
      have hyes : Strays e := hstrays.mp rfl
      dsimp only
      rw [Offer.andThen_of_ok rfl, List.filter_cons_of_pos (by simpa using hyes), List.map_cons, ← hrest]
      rfl

/-- Entries that can be checked are those that do not stray, and the decisive one of them gives the
version. -/
lemma lockOffer_eq (h : (lockOffer r.manifest? r.lockfile ref).outcome ≠ .error .unreadableRange) :
    (∀ e ∈ lockEntries r.lockfile ref, ∃ b, honoursRange e = .ok b) ∧
    (lockOffer r.manifest? r.lockfile ref).warnings =
      ((lockEntries r.lockfile ref).filter fun e => Strays e).map (strayWarning ref.fullName) ∧
    (lockOffer r.manifest? r.lockfile ref).outcome =
      match (lockEntries r.lockfile ref).filter fun e => ¬ Strays e with
      | [] => .ok none
      | e :: es => .ok (some ⟨(decisive r.manifest? ref e es).version, .lockfile,
          (decisive r.manifest? ref e es).range?⟩) := by
  have hread : ∀ e ∈ lockEntries r.lockfile ref, ∃ b, honoursRange e = .ok b := by
    by_contra hnot
    have hfail := entriesOffer_of_unchecked hnot ref.fullName
    rw [lockOffer, Offer.andThen_of_error hfail] at h
    exact h rfl
  obtain ⟨hout, -⟩ := entriesOffer_eq hread ref.fullName
  have hfilter : (lockEntries r.lockfile ref).filter honours =
      (lockEntries r.lockfile ref).filter fun e => ¬ Strays e := by
    refine List.filter_congr fun e he => ?_
    obtain ⟨b, hb⟩ := hread e he
    rw [honours_eq hb, decide_not]
  rw [hfilter] at hout
  refine ⟨hread, ?_, ?_⟩
  · rw [lockOffer, Offer.andThen_of_ok hout, warnings_entriesOffer hread]
    cases (lockEntries r.lockfile ref).filter fun e => ¬ Strays e <;> exact List.append_nil _
  · rw [lockOffer, Offer.andThen_of_ok hout]
    cases (lockEntries r.lockfile ref).filter fun e => ¬ Strays e <;> rfl

/-! ## Walks through the lockfile -/

variable {l l' : WarningLog} {x : Except Fault (List LockEntry)} {y : Except Fault (Option ResolvedVersion)}

/-- The resolver after some warnings. -/
def warned (ws : List Warning) (r : Resolver) : Resolver :=
  { r with warnings := ws.foldl WarningLog.add r.warnings }

lemma warned_append (ws ws' : List Warning) (r : Resolver) :
    warned (ws ++ ws') r = warned ws' (warned ws r) := by
  simp [warned]

lemma ends_warn {out : Except Fault Unit} (h : Run.Ends T (warn w) l s out l' s') :
    out = .ok () ∧ l' = l.add w := by
  have hrun : Run.Ends T ((if !l.knows w then (do
      set (l.add w)
      Stateful.work (Work.log (.warned w)) : Warned Unit) else pure ()) : Warned Unit) l s out l' s' := h
  by_cases hk : l.knows w = true
  · rw [if_neg (by simp [hk])] at hrun
    obtain ⟨rfl, rfl, -⟩ := Run.ends_pure.mp hrun
    exact ⟨rfl, by rw [WarningLog.add, if_pos hk]⟩
  · rw [if_pos (by simpa using hk)] at hrun
    have hlog : Run.Ends T (Stateful.work (Work.log (.warned w)) : Warned Unit) (l.add w) s out l' s' := hrun
    obtain ⟨_, -, rfl, rfl⟩ := Stateful.ends_work.mp hlog
    exact ⟨rfl, rfl⟩

lemma ends_warnHere {out : Except Fault Unit} (h : Run.Ends T (warnHere w) r s out r' s') :
    out = .ok () ∧ r' = warned [w] r := by
  obtain ⟨l, hl, rfl⟩ := Run.ends_zoom.mp h
  obtain ⟨rfl, rfl⟩ := ends_warn hl
  exact ⟨rfl, rfl⟩

/-- The check of the entries ends as it is offered, whatever the registry and others do. -/
lemma ends_validEntries (h : Run.Ends T (validEntries name es) r s x r' s') :
    x = (entriesOffer name es).outcome ∧ r' = warned (entriesOffer name es).warnings r := by
  induction es generalizing r s x r' s' with
  | nil =>
    obtain ⟨rfl, rfl, -⟩ := Run.ends_pure.mp h
    exact ⟨rfl, rfl⟩
  | cons e es ih =>
    rw [validEntries] at h
    rw [entriesOffer]
    cases hread : honoursRange e with
    | error f =>
      rw [hread] at h
      obtain ⟨rfl, rfl, -⟩ := Run.ends_throw.mp h
      exact ⟨rfl, rfl⟩
    | ok b =>
      rw [hread] at h
      cases b with
      | true =>
        rcases Run.ends_bind.mp h with ⟨f, hrest, rfl⟩ | ⟨rest, u, t, hrest, hlast⟩
        · obtain ⟨hout, rfl⟩ := ih hrest
          dsimp only
          rw [Offer.andThen_of_error hout.symm]
          exact ⟨rfl, rfl⟩
        · obtain ⟨hout, rfl⟩ := ih hrest
          obtain ⟨rfl, rfl, -⟩ := Run.ends_pure.mp hlast
          dsimp only
          rw [Offer.andThen_of_ok hout.symm]
          exact ⟨rfl, by rw [Offer.just, List.append_nil]⟩
      | false =>
        rcases Run.ends_bind.mp h with ⟨f, hwarn, -⟩ | ⟨_, u, t, hwarn, hrest⟩
        · exact absurd (ends_warnHere hwarn).1 (by simp)
        · obtain ⟨-, rfl⟩ := ends_warnHere hwarn
          obtain ⟨hout, rfl⟩ := ih hrest
          dsimp only
          rw [Offer.andThen_of_ok rfl]
          exact ⟨hout, (warned_append _ _ r).symm⟩

lemma ends_fromLockfile (h : Run.Ends T (fromLockfile ref) r s y r' s') :
    y = (lockOffer r.manifest? r.lockfile ref).outcome ∧
      r' = warned (lockOffer r.manifest? r.lockfile ref).warnings r := by
  have hchecked : Run.Ends T (validEntries ref.fullName (lockEntries r.lockfile ref) >>= fun
      | [] => pure none
      | e :: es => pure (some ⟨(decisive r.manifest? ref e es).version, .lockfile,
          (decisive r.manifest? ref e es).range?⟩)) r s y r' s' := h
  rw [lockOffer]
  rcases Run.ends_bind.mp hchecked with ⟨f, hes, rfl⟩ | ⟨es, u, t, hes, hlast⟩
  · obtain ⟨hout, rfl⟩ := ends_validEntries hes
    rw [Offer.andThen_of_error hout.symm]
    exact ⟨rfl, rfl⟩
  · obtain ⟨hout, rfl⟩ := ends_validEntries hes
    rw [Offer.andThen_of_ok hout.symm]
    cases es with
    | nil =>
      obtain ⟨rfl, rfl, -⟩ := Run.ends_pure.mp hlast
      exact ⟨rfl, by rw [Offer.just, List.append_nil]⟩
    | cons e es =>
      obtain ⟨rfl, rfl, -⟩ := Run.ends_pure.mp hlast
      exact ⟨rfl, congrArg (warned · r) (List.append_nil _).symm⟩

lemma ends_checkConflicts {out : Except Fault Unit}
    (h : Run.Ends T (checkConflicts name) r s out r' s') :
    out = .ok () ∧ r' = warned (conflictOffer r name).warnings r := by
  have hwarn : Run.Ends T ((if ((requirements r name).map (·.range)).eraseDups.length > 1 then
      warnHere (.parentConflict name (requirements r name)) else pure ()) : Choosing Unit) r s out r' s' := h
  rw [conflictOffer]
  dsimp only
  split at hwarn
  · next hmany =>
    rw [if_pos hmany]
    exact ends_warnHere hwarn
  · next hfew =>
    rw [if_neg hfew]
    obtain ⟨rfl, rfl, -⟩ := Run.ends_pure.mp hwarn
    exact ⟨rfl, rfl⟩

/-! ## The other sources -/

lemma not_ends_none : ¬ Run.Ends T (pure none : Choosing (Option ResolvedVersion)) r s (.ok (some v)) r' s' := by
  simp [Run.ends_pure]

lemma source_of_fromRange {source : VersionSource} {detail : String} {warning : String → Warning}
    (h : Run.Ends T (fromRange ref range source detail warning) r s (.ok (some v)) r' s') :
    v.source = source := by
  rw [fromRange] at h
  split at h
  · obtain ⟨hv, -, -⟩ := Run.ends_pure.mp h
    obtain rfl := Option.some.inj (Except.ok.inj hv)
    rfl
  · obtain ⟨choice, u, t, -, hlast⟩ := Run.ends_bind_ok.mp h
    cases choice with
    | ok version =>
      obtain ⟨hv, -, -⟩ := Run.ends_pure.mp hlast
      obtain rfl := Option.some.inj (Except.ok.inj hv)
      rfl
    | error reason =>
      obtain ⟨_, _, _, -, hnone⟩ := Run.ends_bind_ok.mp hlast
      exact absurd hnone not_ends_none

lemma source_of_fromManifest (h : Run.Ends T (fromManifest ref) r s (.ok (some v)) r' s') :
    v.source = .manifest := by
  obtain ⟨_, _, _, -, hlast⟩ := Run.ends_bind_ok.mp h
  split at hlast
  · exact absurd hlast not_ends_none
  · exact source_of_fromRange hlast

lemma source_of_fromParent (h : Run.Ends T (fromParent ref parent?) r s (.ok (some v)) r' s') :
    v.source = .parent := by
  obtain ⟨_, _, _, -, hlast⟩ := Run.ends_bind_ok.mp h
  split at hlast
  · exact absurd hlast not_ends_none
  · split at hlast
    · exact absurd hlast not_ends_none
    · split at hlast
      · exact absurd hlast not_ends_none
      · exact source_of_fromRange hlast

lemma source_of_fromRegistry (h : Run.Ends T (fromRegistry ref) r s (.ok v) r' s') :
    v.source = .registry := by
  obtain ⟨_, _, _, -, hlast⟩ := Run.ends_bind_ok.mp h
  split at hlast
  · obtain ⟨hv, -, -⟩ := Run.ends_pure.mp hlast
    obtain rfl := Except.ok.inj hv
    rfl
  · exact absurd hlast Run.not_ends_throw

lemma source_of_resolvePin (h : Run.Ends T (resolvePin ref range) r s (.ok v) r' s') :
    v.source = .explicit := by
  rw [resolvePin] at h
  split at h
  · obtain ⟨hv, -, -⟩ := Run.ends_pure.mp h
    obtain rfl := Except.ok.inj hv
    rfl
  · obtain ⟨_, _, _, -, hlast⟩ := Run.ends_bind_ok.mp h
    split at hlast
    · obtain ⟨hv, -, -⟩ := Run.ends_pure.mp hlast
      obtain rfl := Except.ok.inj hv
      rfl
    · obtain ⟨choice, _, _, -, hchoice⟩ := Run.ends_bind_ok.mp hlast
      cases choice with
      | error reason => exact absurd hchoice Run.not_ends_throw
      | ok version =>
        obtain ⟨_, _, _, -, hpure⟩ := Run.ends_bind_ok.mp hchoice
        obtain ⟨hv, -, -⟩ := Run.ends_pure.mp hpure
        obtain rfl := Except.ok.inj hv
        rfl

/-- What some steps give is given by one of them, or by the last one. -/
lemma mem_of_ends_firstOf {steps : List (Choosing (Option ResolvedVersion))}
    {last : Choosing ResolvedVersion} (h : Run.Ends T (firstOf steps last) r s (.ok v) r' s') :
    (∃ step ∈ steps, ∃ r s r' s', Run.Ends T step r s (.ok (some v)) r' s') ∨
      ∃ r s r' s', Run.Ends T last r s (.ok v) r' s' := by
  induction steps generalizing r s with
  | nil => exact .inr ⟨_, _, _, _, h⟩
  | cons step steps ih =>
    obtain ⟨v?, u, t, hstep, hnext⟩ := Run.ends_bind_ok.mp h
    cases v? with
    | some w =>
      obtain ⟨hv, -, -⟩ := Run.ends_pure.mp hnext
      obtain rfl := Except.ok.inj hv
      exact .inl ⟨step, List.mem_cons_self, _, _, _, _, hstep⟩
    | none =>
      rcases ih hnext with ⟨step', hstep', hgives⟩ | hlast
      · exact .inl ⟨step', List.mem_cons_of_mem step hstep', hgives⟩
      · exact .inr hlast

/-! ## Warnings of entries that stray -/

lemma not_mem_of_isExact {text : String} (h : Version.isExact text = true) : ':' ∉ text.toList := by
  rw [Version.isExact] at h
  obtain ⟨v, hv⟩ := Option.isSome_iff_exists.mp h
  intro hc
  exact absurd (Version.mem_of_parse? hv hc) (by decide +kernel)

lemma Strays.not_mem (h : Strays e) : ':' ∉ e.version.toList := by
  obtain ⟨-, -, -, hexact, -⟩ := h
  exact not_mem_of_isExact hexact

lemma toList_key_invalidLockEntry (package declared pinned : String) :
    (Warning.invalidLockEntry package declared pinned).key.toList =
      "lock:".toList ++ package.toList ++ [':'] ++ (declared.toList ++ ':' :: pinned.toList) := by
  change (s!"lock:{package}:{declared}:{pinned}").toList = _
  simp [toString, String.toList_append]

/-- Of entries that stray, the warnings differ in their keys if they differ. -/
lemma strayWarning_of_key {e' : LockEntry} (he : Strays e) (he' : Strays e')
    (h : (strayWarning name e).key = (strayWarning name e').key) :
    strayWarning name e = strayWarning name e' := by
  have hkeys := congrArg String.toList h
  rw [strayWarning, strayWarning, toList_key_invalidLockEntry, toList_key_invalidLockEntry,
    List.append_cancel_left_eq] at hkeys
  obtain ⟨hrange, hpin⟩ := append_cons_inj he.not_mem he'.not_mem hkeys
  rw [strayWarning, strayWarning, String.toList_injective hrange, String.toList_injective hpin]

lemma initial_strayWarning (name : String) (e : LockEntry) : initial (strayWarning name e) = some 'l' :=
  initial_invalidLockEntry _ _ _

/-- A warning among others is given if no other one has its key. -/
lemma reported_of_mem {ws : List Warning} (hw : w ∈ ws) (hkeys : ∀ x ∈ ws, x.key = w.key → x = w) :
    Reported w l (ws.foldl WarningLog.add l) := by
  obtain ⟨front, back, rfl, hfront⟩ := List.eq_append_cons_of_mem hw
  refine reported_of_keys fun x hx hkey => hfront ?_
  rwa [← hkeys x (List.mem_append_left _ hx) hkey]

lemma Reported.extends (h : Reported w l l') {l'' : WarningLog} (hl : l'.Extends l'') :
    Reported w l l'' :=
  h.imp_right fun hw => hl.subset hw

/-! ## The choice -/

variable {out : Except Fault ResolvedVersion}

/-- After a version has been chosen or not, it is kept and written to the journal: this adds no warning
and leaves the outcome as it is. -/
lemma ends_keeping {x : Choosing ResolvedVersion}
    (h : Run.Ends T (do
      let resolved ← x
      modifyThe Resolver fun r => { r with session := r.session.insert ref.fullName resolved.version }
      Stateful.work (Work.log (.versionResolved ref.fullName resolved.version resolved.source.word))
      pure resolved) r s out r' s') :
    ∃ u t, Run.Ends T x r s out u t ∧ r'.warnings = u.warnings := by
  rcases Run.ends_bind.mp h with ⟨f, hx, rfl⟩ | ⟨resolved, u, t, hx, hrest⟩
  · exact ⟨r', s', hx, rfl⟩
  · refine ⟨u, t, ?_⟩
    rcases Run.ends_bind.mp hrest with ⟨f, hkeep, -⟩ | ⟨_, _, _, hkeep, hlast⟩
    · exact absurd (Run.ends_modify.mp hkeep).1 (by simp)
    · obtain ⟨-, rfl, rfl⟩ := Run.ends_modify.mp hkeep
      rcases Run.ends_bind.mp hlast with ⟨f, hlog, -⟩ | ⟨_, _, _, hlog, hpure⟩
      · obtain ⟨_, -, hfault, -⟩ := Stateful.ends_work.mp hlog
        contradiction
      · obtain ⟨_, -, -, rfl⟩ := Stateful.ends_work.mp hlog
        obtain ⟨rfl, rfl, -⟩ := Run.ends_pure.mp hpure
        exact ⟨hx, rfl⟩

/-- Where the lockfile gives no version, none is chosen from it. -/
lemma source_of_others
    (h : Run.Ends T (firstOf [fromManifest ref, fromParent ref parent?] (fromRegistry ref)) r s (.ok v)
      r' s') : v.source ≠ .lockfile := by
  have hsource : v.source = .manifest ∨ v.source = .parent ∨ v.source = .registry := by
    rcases mem_of_ends_firstOf h with ⟨step, hstep, _, _, _, _, hgives⟩ | ⟨_, _, _, _, hlast⟩
    · simp only [List.mem_cons, List.not_mem_nil, or_false] at hstep
      rcases hstep with rfl | rfl
      · exact .inl (source_of_fromManifest hgives)
      · exact .inr (.inl (source_of_fromParent hgives))
    · exact .inr (.inr (source_of_fromRegistry hlast))
  rcases hsource with h | h | h <;> simp [h]

/-- What follows on an offer of the lockfile. -/
def Follows (offered : Except Fault (Option ResolvedVersion)) (out : Except Fault ResolvedVersion) : Prop :=
  match offered with
  | .error f => out = .error f
  | .ok (some v) => out = .ok v
  | .ok none => ∀ v, out = .ok v → v.source ≠ .lockfile

/-- Where no version is kept, the lockfile is gone through first, and its offer is followed. -/
lemma ends_unkept (hnone : r.session.get? ref.fullName = none)
    (h : Run.Ends T (resolveUnpinned ref parent?) r s out r' s') :
    Follows (lockOffer r.manifest? r.lockfile ref).outcome out ∧
      (warned ((conflictOffer r ref.fullName).warnings ++ (lockOffer r.manifest? r.lockfile ref).warnings)
        r).warnings.Extends r'.warnings := by
  rcases Run.ends_bind.mp h with ⟨f, hcheck, -⟩ | ⟨_, u, t, hcheck, hrest⟩
  · exact absurd (ends_checkConflicts hcheck).1 (by simp)
  obtain ⟨-, rfl⟩ := ends_checkConflicts hcheck
  have hfresh : (warned (conflictOffer r ref.fullName).warnings r).session.get? ref.fullName = none := hnone
  -- from here on the resolver is the one with the warning of different declarations
  rw [warned_append]
  generalize hu : warned (conflictOffer r ref.fullName).warnings r = u at hrest hfresh ⊢
  have hmanifest : r.manifest? = u.manifest? := by rw [← hu, warned]
  have hlockfile : r.lockfile = u.lockfile := by rw [← hu, warned]
  rw [hmanifest, hlockfile]
  rcases Run.ends_bind.mp hrest with ⟨f, hget, -⟩ | ⟨u', _, _, hget, hchoice⟩
  · exact absurd (Run.ends_get.mp hget).1 (by simp)
  obtain ⟨hsame, rfl, rfl⟩ := Run.ends_get.mp hget
  obtain rfl := Except.ok.inj hsame
  rw [hfresh] at hchoice
  obtain ⟨w, x, hfirst, hwarnings⟩ := ends_keeping hchoice
  rw [hwarnings]
  rcases Run.ends_bind.mp hfirst with ⟨f, hlock, rfl⟩ | ⟨v?, y, z, hlock, hnext⟩
  · obtain ⟨hout, rfl⟩ := ends_fromLockfile hlock
    rw [← hout]
    exact ⟨rfl, refl_of WarningLog.Extends _⟩
  · obtain ⟨hout, rfl⟩ := ends_fromLockfile hlock
    rw [← hout]
    cases v? with
    | some v =>
      obtain ⟨rfl, rfl, -⟩ := Run.ends_pure.mp hnext
      exact ⟨rfl, refl_of WarningLog.Extends _⟩
    | none =>
      have hplain : Run.Plain busily Resolver.Extends
          (firstOf [fromManifest ref, fromParent ref parent?] (fromRegistry ref)) := by
        refine admits_steps (fun step hstep => ?_) (admits_fromRegistry ref)
        simp only [List.mem_cons, List.not_mem_nil, or_false] at hstep
        rcases hstep with rfl | rfl
        · exact admits_fromManifest ref
        · exact admits_fromParent ref parent?
      refine ⟨?_, (hplain.ends (meet_quiet T) trivial hnext).1⟩
      rintro v rfl
      exact source_of_others hnext

lemma source_of_unkept {version : String} (hkept : r.session.get? ref.fullName = some version)
    (h : Run.Ends T (resolveUnpinned ref parent?) r s (.ok v) r' s') : v.source = .session := by
  obtain ⟨_, u, t, hcheck, hrest⟩ := Run.ends_bind_ok.mp h
  obtain ⟨-, rfl⟩ := ends_checkConflicts hcheck
  obtain ⟨u', _, _, hget, hchoice⟩ := Run.ends_bind_ok.mp hrest
  obtain ⟨hsame, rfl, rfl⟩ := Run.ends_get.mp hget
  obtain rfl := Except.ok.inj hsame
  have hstill : (warned (conflictOffer r ref.fullName).warnings r).session.get? ref.fullName =
    some version := hkept
  rw [hstill] at hchoice
  obtain ⟨hv, -, -⟩ := Run.ends_pure.mp hchoice
  obtain rfl := Except.ok.inj hv
  rfl

/-- Only of a package whose version is open and not kept the version comes from the lockfile. -/
lemma unkept_of_locked (h : Run.Ends T (resolve ref parent?) r s (.ok v) r' s')
    (hsource : v.source = .lockfile) :
    ref.isOpen = true ∧ r.session.get? ref.fullName = none := by
  by_cases ho : ref.isOpen = true
  · rw [resolve_of_open ho] at h
    refine ⟨ho, ?_⟩
    -- a version that is kept comes from the session
    cases hkept : r.session.get? ref.fullName with
    | none => rfl
    | some version =>
      rw [source_of_unkept hkept h] at hsource
      contradiction
  · obtain ⟨range, hrange⟩ := resolve_of_not_open ho parent?
    rw [hrange] at h
    rw [source_of_resolvePin h] at hsource
    contradiction

lemma highestEntry_nil (e : LockEntry) : highestEntry e [] = e := rfl

lemma highestEntry_cons (e e' : LockEntry) (es : List LockEntry) :
    highestEntry e (e' :: es) = highestEntry (if (rank e).before (rank e') then e' else e) es := rfl

lemma highestEntry_mem (e : LockEntry) (es : List LockEntry) : highestEntry e es ∈ e :: es := by
  -- on the entries that are left, for whichever is the highest so far
  induction es generalizing e with
  | nil =>
    rw [highestEntry_nil]
    exact List.mem_singleton_self e
  | cons e' es ih =>
    rw [highestEntry_cons]
    split
    · exact List.mem_cons_of_mem e (ih e')
    · rcases List.mem_cons.mp (ih e) with hsame | hmem
      · rw [hsame]
        exact List.mem_cons_self
      · exact List.mem_cons_of_mem e (List.mem_cons_of_mem e' hmem)

lemma decisive_mem (manifest? : Option Manifest) (ref : PackageReference) (e : LockEntry)
    (es : List LockEntry) : decisive manifest? ref e es ∈ e :: es := by
  rw [decisive]
  cases hfound : (declared? manifest? ref).bind fun d => (e :: es).find? fun e => e.range? == some d.1 with
  | none => exact highestEntry_mem e es
  | some found =>
    obtain ⟨d, -, hfind⟩ := Option.bind_eq_some_iff.mp hfound
    exact List.mem_of_find?_eq_some hfind

/-- What the lockfile offers is the version of an entry that does not stray. -/
lemma entry_of_lockOffer (h : (lockOffer r.manifest? r.lockfile ref).outcome = .ok (some v)) :
    ∃ first rest e, ((lockEntries r.lockfile ref).filter fun e => ¬ Strays e) = first :: rest ∧
      e = decisive r.manifest? ref first rest ∧ e ∈ lockEntries r.lockfile ref ∧ ¬ Strays e ∧
      v = ⟨e.version, .lockfile, e.range?⟩ ∧
      ∀ range ∈ e.range?, range ≠ "" → Version.isExact e.version = true →
        Version.satisfies e.version range = .ok true := by
  have hchecked : (lockOffer r.manifest? r.lockfile ref).outcome ≠ .error .unreadableRange := by
    simp [h]
  obtain ⟨hread, -, hout⟩ := lockOffer_eq hchecked
  rw [h] at hout
  cases hfilter : (lockEntries r.lockfile ref).filter fun e => ¬ Strays e with
  | nil =>
    rw [hfilter] at hout
    simp at hout
  | cons first rest =>
    rw [hfilter] at hout
    obtain rfl := Option.some.inj (Except.ok.inj hout)
    have hmem := decisive_mem r.manifest? ref first rest
    rw [← hfilter, List.mem_filter, decide_eq_true_eq] at hmem
    obtain ⟨hentry, hnot⟩ := hmem
    obtain ⟨b, hb⟩ := hread _ hentry
    refine ⟨first, rest, _, rfl, rfl, hentry, hnot, rfl, ?_⟩
    intro range hrange hne hexact
    exact satisfies_of_not_strays hb hnot hrange hne hexact

/-- All entries that stray are warned of where the lockfile is gone through. -/
lemma reported_of_strays
    (h : (lockOffer r.manifest? r.lockfile ref).outcome ≠ .error .unreadableRange)
    (he : e ∈ lockEntries r.lockfile ref) (hstrays : Strays e) :
    Reported (strayWarning ref.fullName e) r.warnings (warned ((conflictOffer r ref.fullName).warnings ++
      (lockOffer r.manifest? r.lockfile ref).warnings) r).warnings := by
  obtain ⟨-, hwarnings, -⟩ := lockOffer_eq h
  rw [hwarnings, warned]
  apply reported_of_mem
  · refine List.mem_append_right _ (List.mem_map_of_mem ?_)
    simpa using ⟨he, hstrays⟩
  · intro x hx hkey
    rcases List.mem_append.mp hx with hx | hx
    · -- the warning of different declarations is of another kind
      have hkind : initial x = initial (strayWarning ref.fullName e) := by
        rw [initial, initial, hkey]
      rw [initial_of_conflictOffer hx, initial_strayWarning] at hkind
      exact absurd hkind (by decide)
    · obtain ⟨e', he', rfl⟩ := List.mem_map.mp hx
      exact strayWarning_of_key (by simpa using (List.mem_filter.mp he').2) hstrays hkey

/-- **Locked versions and their ranges.**  Whatever the registry answers and others do: a version that
comes from the lockfile is that of an entry of the package which does not stray, of the one that decides
among all such, and it lies in the range of its entry, if the entry has one and the version can be read.
And where the lockfile is gone through, all entries of the package that stray are warned of, unless the
choice fails at a range that cannot be taken apart. -/
theorem locked_in_range (h : Run.Ends T (resolve ref parent?) r s out r' s') :
    (∀ v, out = .ok v → v.source = .lockfile →
      ref.isOpen = true ∧ r.session.get? ref.fullName = none ∧
      ∃ first rest e, ((lockEntries r.lockfile ref).filter fun e => ¬ Strays e) = first :: rest ∧
        e = decisive r.manifest? ref first rest ∧ e ∈ lockEntries r.lockfile ref ∧ ¬ Strays e ∧
        v = ⟨e.version, .lockfile, e.range?⟩ ∧
        ∀ range ∈ e.range?, range ≠ "" → Version.isExact e.version = true →
          Version.satisfies e.version range = .ok true) ∧
    (ref.isOpen = true → r.session.get? ref.fullName = none → out ≠ .error .unreadableRange →
      ∀ e ∈ lockEntries r.lockfile ref, Strays e →
        Reported (.invalidLockEntry ref.fullName (e.range?.getD "") e.version) r.warnings r'.warnings) := by
  have hunkept : ref.isOpen = true → r.session.get? ref.fullName = none →
      Follows (lockOffer r.manifest? r.lockfile ref).outcome out ∧
        (warned ((conflictOffer r ref.fullName).warnings ++
          (lockOffer r.manifest? r.lockfile ref).warnings) r).warnings.Extends r'.warnings := by
    intro ho hnone
    rw [resolve_of_open ho] at h
    exact ends_unkept hnone h
  constructor
  · rintro v rfl hsource
    obtain ⟨ho, hnone⟩ := unkept_of_locked h hsource
    obtain ⟨hfollows, -⟩ := hunkept ho hnone
    refine ⟨ho, hnone, ?_⟩
    cases hoffer : (lockOffer r.manifest? r.lockfile ref).outcome with
    | error f =>
      rw [hoffer] at hfollows
      contradiction
    | ok v? =>
      rw [hoffer] at hfollows
      cases v? with
      | none => exact absurd hsource (hfollows v rfl)
      | some w =>
        obtain rfl := Except.ok.inj hfollows
        exact entry_of_lockOffer hoffer
  · intro ho hnone hout e he hstrays
    obtain ⟨hfollows, hextends⟩ := hunkept ho hnone
    have hchecked : (lockOffer r.manifest? r.lockfile ref).outcome ≠ .error .unreadableRange := by
      intro hfail
      rw [hfail] at hfollows
      exact hout hfollows
    exact (reported_of_strays hchecked he hstrays).extends hextends

variable {reg : Catalogue}

/-- Where the registry answers by a catalogue, the choice of a version that the lockfile offers comes to
an end. -/
lemma exists_ends_of_lockOffer (hfresh : Fresh reg r ref)
    (hoffer : (lockOffer r.manifest? r.lockfile ref).outcome = .ok (some v)) (parent? : Option PackageKey)
    (s : Service) :
    ∃ r' s', Run.Ends (.answering (byCatalogue reg)) (resolve ref parent?) r s (.ok v) r' s' ∧
      r'.warnings = ((conflictOffer r ref.fullName).warnings ++
        (lockOffer r.manifest? r.lockfile ref).warnings).foldl WarningLog.add r.warnings := by
  obtain ⟨talk, ⟨out, r'⟩, s', hwalk⟩ :=
    Routine.exists_converses (exists_answer reg) ((resolve ref parent?).run r) s
  obtain ⟨hout, -, hwarnings⟩ := hfresh.chooses ⟨_, s, s', fun _ _ h => h, hwalk⟩
  rw [freshOffer, firstOffer_of_some hoffer] at hout hwarnings
  obtain rfl := hout
  exact ⟨r', s', Routine.ends_iff_converses.mpr ⟨talk, hwalk⟩, hwarnings⟩

/-- The lockfile of a workspace is all that there is to go by. -/
def lockedResolver (lockfile : Lockfile) : Resolver := ⟨none, lockfile, {}, ∅, ∅, ∅, ∅⟩

lemma fresh_lockedResolver (lockfile : Lockfile) :
    Fresh pairCatalogue (lockedResolver lockfile) openReference := ⟨nofun, by decide, rfl⟩

/-- A service of which nothing has been asked yet. -/
def idleService : Service := { settings := {}, index := { path := "" } }

/-- Two entries for one range, of which the first strays. -/
def strayLockfile : Lockfile :=
  Table.ofList [("p", [⟨some "^1.0.0", "2.0.0"⟩, ⟨some "^1.0.0", "1.2.3"⟩])]

/-- Of two entries the one that does not stray is chosen, though its version is the lower one, and the
other one is warned of. -/
theorem locked_in_range_strayed :
    ∃ r' s', Run.Ends (.answering (byCatalogue pairCatalogue)) (resolve openReference none)
      (lockedResolver strayLockfile) idleService (.ok ⟨"1.2.3", .lockfile, some "^1.0.0"⟩) r' s' ∧
      Version.satisfies "1.2.3" "^1.0.0" = .ok true ∧
      .invalidLockEntry "p" "^1.0.0" "2.0.0" ∈ r'.warnings.given := by
  have hoffer : (lockOffer none strayLockfile openReference).outcome =
      .ok (some ⟨"1.2.3", .lockfile, some "^1.0.0"⟩) := by decide +kernel
  obtain ⟨r', s', hends, -⟩ :=
    exists_ends_of_lockOffer (fresh_lockedResolver strayLockfile) hoffer none idleService
  refine ⟨r', s', hends, ?_⟩
  obtain ⟨hlocked, hwarned⟩ := locked_in_range hends
  constructor
  · obtain ⟨-, -, _, _, e, -, -, -, -, hv, hsatisfies⟩ := hlocked _ rfl rfl
    obtain ⟨hversion, -, hrange⟩ := ResolvedVersion.mk.inj hv
    have hexact : Version.isExact "1.2.3" = true := by decide +kernel
    rw [hversion] at hexact ⊢
    exact hsatisfies "^1.0.0" hrange.symm (by decide) hexact
  · have hstrays : Strays ⟨some "^1.0.0", "2.0.0"⟩ := by decide +kernel
    have hmem : (⟨some "^1.0.0", "2.0.0"⟩ : LockEntry) ∈ lockEntries strayLockfile openReference := by
      decide +kernel
    have hreported := hwarned (by decide) rfl nofun _ hmem hstrays
    exact hreported.resolve_left (by simp [lockedResolver, WarningLog.knows])

/-- The lockfile pins a package to a tag. -/
def tagLockfile : Lockfile := Lock.ofBlocks "p@^1.0.0:\n  version \"latest\"\n"

/-- An entry with a pin that is no version is chosen, though it does not lie in the range, and nothing is
warned of. -/
theorem not_locked_in_range_tagged :
    ∃ r' s', Run.Ends (.answering (byCatalogue pairCatalogue)) (resolve openReference none)
      (lockedResolver tagLockfile) idleService (.ok ⟨"latest", .lockfile, some "^1.0.0"⟩) r' s' ∧
      Version.satisfies "latest" "^1.0.0" = .ok false ∧ r'.warnings.given = [] := by
  have hoffer : (lockOffer none tagLockfile openReference).outcome =
      .ok (some ⟨"latest", .lockfile, some "^1.0.0"⟩) := by decide +kernel
  obtain ⟨r', s', hends, hwarnings⟩ :=
    exists_ends_of_lockOffer (fresh_lockedResolver tagLockfile) hoffer none idleService
  have hnone : (conflictOffer (lockedResolver tagLockfile) openReference.fullName).warnings ++
      (lockOffer none tagLockfile openReference).warnings = [] := by decide +kernel
  refine ⟨r', s', hends, by decide +kernel, ?_⟩
  rw [hwarnings]
  exact congrArg (fun ws => (ws.foldl WarningLog.add {}).given) hnone

end SourceBundle.Resolve
