/-
# The choice of a version

An import that names a version or range gets it.  For any other import the first of these steps
that gives a version decides: the version that the run has chosen before, a pinned version, the
range that the workspace declares, the range that the importing package declares, and the highest
release.  Only such imports decide for later ones.
-/
import SourceBundle.Resolve.Sources

namespace SourceBundle.Resolve

open SourceBundle.Import SourceBundle.Text

/-- Work that chooses versions. -/
abbrev Choosing := Stateful Resolver

/-- Give a warning while choosing. -/
def warnHere (w : Warning) : Choosing Unit :=
  Run.zoom (·.warnings) (fun l (r : Resolver) => { r with warnings := l }) (warn w)

/-- The published versions of a package; the registry is asked for them once. -/
def publishedVersions (ref : PackageReference) : Choosing (List String) := do
  let r ← getThe Resolver
  match r.published.get? ref.fullName with
  | some versions => pure versions
  | none =>
    let versions ← (Stateful.task (Work.versions ref.fullName)).handle fun
      | .registry f => some (throw (.resolution (.lookup ref f)))
      | _ => none
    modifyThe Resolver fun r => { r with published := r.published.insert ref.fullName versions }
    pure versions

/-- The highest version of a package in a range, or why there is none. -/
def pick (ref : PackageReference) (range : String) : Choosing (Except Version.NoChoice String) := do
  let versions ← publishedVersions ref
  match Version.pickRange range versions with
  | .ok choice => pure choice
  | .error _ => throw .unreadableRange

/-- The version that an import asks for itself: an exact one as it is written, and for a range the
highest version in it. -/
def resolvePin (ref : PackageReference) (range : String) : Choosing ResolvedVersion := do
  if Version.isExact range then pure ⟨range, .explicit, some range⟩
  else
    let r ← getThe Resolver
    match r.pins.get? (ref.fullName, range) with
    | some v => pure ⟨v, .explicit, some range⟩
    | none =>
      match ← pick ref range with
      | .error reason => throw (.resolution (.pin ref range reason))
      | .ok v =>
        modifyThe Resolver fun r => { r with pins := r.pins.insert (ref.fullName, range) v }
        pure ⟨v, .explicit, some range⟩

/-- Whether a pinned version lies in the range it was locked for.  Nothing speaks against an entry
without a range, or with a pin that is no version. -/
def honoursRange (e : LockEntry) : Except Version.UnreadableEnd Bool :=
  match e.range? with
  | none => .ok true
  | some range =>
    if range.isEmpty || !Version.isExact e.version then .ok true
    else Version.satisfies e.version range

/-- The entries of a package that honour their ranges; the others are warned of. -/
def validEntries (name : String) : List LockEntry → Choosing (List LockEntry)
  | [] => pure []
  | e :: es => do
    match honoursRange e with
    | .error _ => throw .unreadableRange
    | .ok true =>
      let rest ← validEntries name es
      pure (e :: rest)
    | .ok false =>
      warnHere (.invalidLockEntry name (e.range?.getD "") e.version)
      validEntries name es

/-- The rank of an entry among those of its package: its version, if it is one. -/
def rank (e : LockEntry) : Version := (Version.parse? e.version).getD (.release 0 0 0)

/-- The entry with the highest version, of equal ones the first. -/
def highestEntry : LockEntry → List LockEntry → LockEntry
  | best, [] => best
  | best, e :: es => highestEntry (if (rank best).before (rank e) then e else best) es

/-- The pinned version of a package: of the range that the manifest declares, or else the highest. -/
def fromLockfile (ref : PackageReference) : Choosing (Option ResolvedVersion) := do
  let r ← getThe Resolver
  match ← validEntries ref.fullName ((r.lockfile.get? ref.fullName).getD []) with
  | [] => pure none
  | e :: es =>
    let declared? := r.manifest?.bind fun m => m.declaredRange? ref.fullName
    let matching? := declared?.bind fun d => (e :: es).find? fun e => e.range? == some d.1
    let entry := matching?.getD (highestEntry e es)
    pure (some ⟨entry.version, .lockfile, entry.range?⟩)

/-- An exact version without the marks in front of it. -/
def dropMarks (version : String) : String := String.ofList (version.toList.dropWhile Version.isMark)

/-- The version in a declared range, or a warning if there is none. -/
def fromRange (ref : PackageReference) (range : String) (source : VersionSource) (detail : String)
    (warning : String → Warning) : Choosing (Option ResolvedVersion) := do
  if Version.isExact range then pure (some ⟨dropMarks range, source, some detail⟩)
  else
    match ← pick ref range with
    | .ok v => pure (some ⟨v, source, some detail⟩)
    | .error reason =>
      warnHere (warning reason.message)
      pure none

/-- The version in the range that the workspace declares. -/
def fromManifest (ref : PackageReference) : Choosing (Option ResolvedVersion) := do
  let r ← getThe Resolver
  match r.manifest?.bind fun m => m.declaredRange? ref.fullName with
  | none => pure none
  | some (range, field) =>
    fromRange ref range .manifest field.word fun reason =>
      .unresolvedManifestRange ref.fullName range reason

/-- The version in the range that the importing package declares. -/
def fromParent (ref : PackageReference) (parent? : Option PackageKey) :
    Choosing (Option ResolvedVersion) := do
  let r ← getThe Resolver
  match parent? with
  | none => pure none
  | some parent =>
    match (r.parents.get? parent).bind (·.get? ref.fullName) with
    | none => pure none
    | some range =>
      if range.isEmpty then pure none
      else
        fromRange ref range .parent parent.render fun reason =>
          .unresolvedParentRange parent.render ref.fullName range reason

/-- The highest release. -/
def fromRegistry (ref : PackageReference) : Choosing ResolvedVersion := do
  let versions ← publishedVersions ref
  match Version.pickLatest versions with
  | .ok v => pure ⟨v, .registry, none⟩
  | .error reason => throw (.resolution (.noVersion ref reason))

/-- The ranges that fetched packages declare for a package. -/
def requirements (r : Resolver) (name : String) : List Requirement :=
  r.parents.entries.filterMap fun (key, deps) =>
    (deps.get? name).map fun range => ⟨key.render, range⟩

/-- Warn when fetched packages declare different ranges for a package. -/
def checkConflicts (name : String) : Choosing Unit := do
  let rs := requirements (← getThe Resolver) name
  if (rs.map (·.range)).eraseDups.length > 1 then warnHere (.parentConflict name rs)

/-- The first version that one of some steps gives. -/
def firstOf : List (Choosing (Option ResolvedVersion)) → Choosing ResolvedVersion →
    Choosing ResolvedVersion
  | [], last => last
  | step :: steps, last => do
    match ← step with
    | some v => pure v
    | none => firstOf steps last

/-- Choose a version for a package that is not pinned. -/
def resolveUnpinned (ref : PackageReference) (parent? : Option PackageKey) :
    Choosing ResolvedVersion := do
  checkConflicts ref.fullName
  match (← getThe Resolver).session.get? ref.fullName with
  | some v => pure ⟨v, .session, none⟩
  | none =>
    let resolved ← firstOf [fromLockfile ref, fromManifest ref, fromParent ref parent?] (fromRegistry ref)
    modifyThe Resolver fun r => { r with session := r.session.insert ref.fullName resolved.version }
    Stateful.work (Work.log (.versionResolved ref.fullName resolved.version resolved.source.word))
    pure resolved

/-- Choose the version of a package for an import in a file of another package, if any. -/
def resolve (ref : PackageReference) (parent? : Option PackageKey) : Choosing ResolvedVersion :=
  match ref.version? with
  | some range => if range.isEmpty then resolveUnpinned ref parent? else resolvePin ref range
  | none => resolveUnpinned ref parent?

end SourceBundle.Resolve
