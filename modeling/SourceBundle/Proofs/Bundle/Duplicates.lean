/-
# Files that are bundled twice

A file of a package may be bundled from two versions of the package.  The run notes from which version it came
first, and when it comes from another one, gives a warning about these two, unless there is a warning with the
same key.  As names and versions without a colon can be read off the key, the other warning is then about the
same file.  So a file has such a warning exactly if it was added from two versions.
-/
import SourceBundle.Proofs.Bundle.Owners
import SourceBundle.Proofs.Import.Package
import SourceBundle.Proofs.PackageKey
import SourceBundle.Proofs.Text.Cut

namespace SourceBundle

open SourceBundle.Import SourceBundle.Text

/-! ## The keys of warnings -/

namespace Warning

variable {w : Warning} {name name' path path' previous previous' requested requested' : String}

/-- A key of parts that are set off by colons. -/
def joinedKey (name path first second : String) : List Char :=
  "dup:".toList ++ (name.toList ++ ':' :: (path.toList ++ ':' :: (first.toList ++ ':' :: second.toList)))

/-- The key of a warning about a file that is bundled twice has the two versions in order. -/
lemma toList_key_duplicateFile (name path previous requested : String) :
    ∃ first second, (first = previous ∧ second = requested ∨ first = requested ∧ second = previous) ∧
      (duplicateFile name path previous requested).key.toList = joinedKey name path first second := by
  have hkey : (duplicateFile name path previous requested).key =
      if previous ≤ requested then s!"dup:{name}:{path}:{previous}:{requested}"
      else s!"dup:{name}:{path}:{requested}:{previous}" := rfl
  rw [hkey]
  split
  · refine ⟨previous, requested, .inl ⟨rfl, rfl⟩, ?_⟩
    simp [joinedKey, toString, String.toList_append]
  · refine ⟨requested, previous, .inr ⟨rfl, rfl⟩, ?_⟩
    simp [joinedKey, toString, String.toList_append]

/-- The parts can be read off a key if the name and the versions have no colon. -/
lemma joinedKey_inj {first second first' second' : String} (hname : ':' ∉ name.toList)
    (hname' : ':' ∉ name'.toList) (hfirst : ':' ∉ first.toList) (hfirst' : ':' ∉ first'.toList)
    (hsecond : ':' ∉ second.toList) (hsecond' : ':' ∉ second'.toList)
    (h : joinedKey name path first second = joinedKey name' path' first' second') :
    name = name' ∧ path = path' ∧ first = first' ∧ second = second' := by
  have hrest := List.append_cancel_left h
  have hcut := congrArg (cutFirst ':') hrest
  rw [cutFirst_append hname, cutFirst_append hname'] at hcut
  obtain ⟨hnames, htail⟩ := Prod.mk.inj hcut
  -- the path may have colons, so the versions are cut off from behind
  have hregroup : ∀ a b c : List Char, a ++ ':' :: (b ++ ':' :: c) = (a ++ ':' :: b) ++ ':' :: c := by simp
  have hversions := Option.some.inj htail
  rw [hregroup, hregroup] at hversions
  obtain ⟨hfront, hseconds⟩ := append_cons_inj hsecond hsecond' hversions
  obtain ⟨hpaths, hfirsts⟩ := append_cons_inj hfirst hfirst' hfront
  exact ⟨String.toList_injective hnames, String.toList_injective hpaths, String.toList_injective hfirsts,
    String.toList_injective hseconds⟩

/-- Only warnings about files that are bundled twice have keys like theirs. -/
lemma isDuplicate_of_key (h : w.key = (duplicateFile name path previous requested).key) :
    ∃ name' path' previous' requested', w = duplicateFile name' path' previous' requested' := by
  obtain ⟨first, second, -, hkey⟩ := toList_key_duplicateFile name path previous requested
  have hbegin : w.key.toList.take 4 = "dup:".toList := by
    rw [h, hkey, joinedKey]
    rfl
  cases w with
  | duplicateFile => exact ⟨_, _, _, _, rfl⟩
  | parseFailure source reason =>
    change (s!"parse:{source}").toList.take 4 = _ at hbegin
    simp [toString, String.toList_append] at hbegin
  | invalidLockEntry package declared pinned =>
    change (s!"lock:{package}:{declared}:{pinned}").toList.take 4 = _ at hbegin
    simp [toString, String.toList_append] at hbegin
  | unresolvedManifestRange package range reason =>
    change (s!"range:{package}:{range}").toList.take 4 = _ at hbegin
    simp [toString, String.toList_append] at hbegin
  | unresolvedParentRange parent package range reason =>
    change (s!"parent-range:{parent}:{package}:{range}").toList.take 4 = _ at hbegin
    simp [toString, String.toList_append] at hbegin
  | parentConflict package requirements =>
    let joined := "|".intercalate (ranges requirements)
    change (s!"multi-parent:{package}:{joined}").toList.take 4 = _ at hbegin
    simp [toString, String.toList_append] at hbegin

/-- Warnings about files that are bundled twice are about the same file and the same two versions if they have
one key, and names and versions have no colon. -/
lemma eq_of_key_duplicateFile (hname : ':' ∉ name.toList) (hname' : ':' ∉ name'.toList)
    (hversions : ':' ∉ previous.toList ∧ ':' ∉ requested.toList)
    (hversions' : ':' ∉ previous'.toList ∧ ':' ∉ requested'.toList)
    (h : (duplicateFile name path previous requested).key =
      (duplicateFile name' path' previous' requested').key) :
    name = name' ∧ path = path' ∧
      (previous = previous' ∧ requested = requested' ∨ previous = requested' ∧ requested = previous') := by
  obtain ⟨first, second, hordered, hkey⟩ := toList_key_duplicateFile name path previous requested
  obtain ⟨first', second', hordered', hkey'⟩ := toList_key_duplicateFile name' path' previous' requested'
  have hfree : ':' ∉ first.toList ∧ ':' ∉ second.toList := by
    rcases hordered with ⟨rfl, rfl⟩ | ⟨rfl, rfl⟩
    · exact hversions
    · exact hversions.symm
  have hfree' : ':' ∉ first'.toList ∧ ':' ∉ second'.toList := by
    rcases hordered' with ⟨rfl, rfl⟩ | ⟨rfl, rfl⟩
    · exact hversions'
    · exact hversions'.symm
  rw [h, hkey'] at hkey
  obtain ⟨hnames, hpaths, hfirst, hsecond⟩ :=
    joinedKey_inj hname hname' hfree.1 hfree'.1 hfree.2 hfree'.2 hkey.symm
  refine ⟨hnames, hpaths, ?_⟩
  rcases hordered with ⟨rfl, rfl⟩ | ⟨rfl, rfl⟩
  · rcases hordered' with ⟨rfl, rfl⟩ | ⟨rfl, rfl⟩
    · exact .inl ⟨hfirst, hsecond⟩
    · exact .inr ⟨hfirst, hsecond⟩
  · rcases hordered' with ⟨rfl, rfl⟩ | ⟨rfl, rfl⟩
    · exact .inr ⟨hsecond, hfirst⟩
    · exact .inl ⟨hsecond, hfirst⟩

end Warning

/-! ## The notes after a file has been added -/

namespace Context

variable {st : Settings} {c : Context} {key : PackageKey} {name path file place version : String}

/-- A file of a package has been added from a version of it: what the bundle has at its place is noted as a
file of this version. -/
def AddedFrom (st : Settings) (c : Context) (name path version : String) : Prop :=
  c.filePackages.get? (PackageKey.pathFor ⟨name, version⟩ st path) = some ⟨name, version⟩

/-- The version that is noted as the first one, or the given one if none is noted. -/
def firstOr (c : Context) (name path version : String) : String :=
  (c.bundled.get? (name, path)).getD version

lemma firstOr_cases (c : Context) (name path version : String) :
    c.bundled.get? (name, path) = some (c.firstOr name path version) ∨
      c.firstOr name path version = version := by
  unfold firstOr
  cases c.bundled.get? (name, path) with
  | none => exact .inr rfl
  | some first => exact .inl rfl

/-- After a file has been added, what is noted is the package of this file, or was noted before. -/
lemma filePackages_withPackageFile {owner : PackageKey}
    (h : (c.withPackageFile key path place).filePackages.get? file = some owner) :
    place = file ∧ key = owner ∨ c.filePackages.get? file = some owner := by
  by_cases hplace : place = file
  · subst hplace
    exact .inl ⟨rfl, Option.some.inj ((Table.get?_insert_self _ _ _).symm.trans h)⟩
  · exact .inr ((Table.get?_insert_ne _ hplace _).symm.trans h)

lemma addedFrom_withPackageFile (hnew : c.filePackages.get? (key.pathFor st path) = none) :
    (c.withPackageFile key path (key.pathFor st path)).AddedFrom st name file version ↔
      c.AddedFrom st name file version ∨ ⟨name, version⟩ = key ∧ file = path := by
  unfold AddedFrom withPackageFile
  dsimp only
  by_cases hplace : key.pathFor st path = PackageKey.pathFor ⟨name, version⟩ st file
  · rw [hplace] at hnew
    rw [hplace, Table.get?_insert_self, hnew]
    constructor
    · intro heq
      obtain rfl := Option.some.inj heq
      exact .inr ⟨rfl, (PackageKey.pathFor_injective _ st hplace).symm⟩
    · rintro (hold | ⟨rfl, -⟩)
      · exact nomatch hold
      · rfl
  · rw [Table.get?_insert_ne _ hplace]
    constructor
    · exact .inl
    · rintro (hold | ⟨rfl, rfl⟩)
      · exact hold
      · exact absurd rfl hplace

lemma bundled_withPackageFile_self :
    (c.withPackageFile key path place).bundled.get? (key.name, path) =
      some (c.firstOr key.name path key.version) :=
  Table.get?_insertNew_self _ _ _

lemma bundled_withPackageFile_ne (h : (key.name, path) ≠ (name, file)) :
    (c.withPackageFile key path place).bundled.get? (name, file) = c.bundled.get? (name, file) :=
  Table.get?_insertNew_ne _ h _

/-- A first version is only noted if none was noted before. -/
lemma bundled_withPackageFile_of_some {first : String} (h : c.bundled.get? (name, file) = some first) :
    (c.withPackageFile key path place).bundled.get? (name, file) = some first := by
  by_cases hsame : (key.name, path) = (name, file)
  · obtain ⟨rfl, rfl⟩ := Prod.mk.inj hsame
    rw [bundled_withPackageFile_self, firstOr, h, Option.getD_some]
  · rw [bundled_withPackageFile_ne hsame, h]

/-- The first version that is noted of a file was noted before, or is the version of the file that has been
added. -/
lemma bundled_withPackageFile_cases {first : String}
    (h : (c.withPackageFile key path place).bundled.get? (name, file) = some first) :
    c.bundled.get? (name, file) = some first ∨ ⟨name, first⟩ = key ∧ file = path := by
  by_cases hsame : (key.name, path) = (name, file)
  · obtain ⟨rfl, rfl⟩ := Prod.mk.inj hsame
    obtain rfl := Option.some.inj (bundled_withPackageFile_self.symm.trans h)
    rcases c.firstOr_cases key.name path key.version with hold | hnew
    · exact .inl hold
    · exact .inr ⟨by rw [hnew], rfl⟩
  · exact .inl ((bundled_withPackageFile_ne hsame).symm.trans h)

lemma warnings_withPackageFile :
    (c.withPackageFile key path place).warnings =
      if c.firstOr key.name path key.version = key.version then c.warnings
      else c.warnings.add
        (.duplicateFile key.name path (c.firstOr key.name path key.version) key.version) := rfl

lemma extends_withPackageFile : c.warnings.Extends (c.withPackageFile key path place).warnings := by
  rw [warnings_withPackageFile]
  split
  · exact refl_of WarningLog.Extends _
  · exact c.warnings.extends_add _

lemma distinct_withPackageFile (h : c.warnings.Distinct) :
    (c.withPackageFile key path place).warnings.Distinct := by
  rw [warnings_withPackageFile]
  split
  · exact h
  · exact h.add _

lemma mem_withPackageFile {w : Warning} (h : w ∈ (c.withPackageFile key path place).warnings.given) :
    w ∈ c.warnings.given ∨ c.firstOr key.name path key.version ≠ key.version ∧
      w = .duplicateFile key.name path (c.firstOr key.name path key.version) key.version := by
  rw [warnings_withPackageFile] at h
  split at h
  · exact .inl h
  · next hother =>
    rcases WarningLog.mem_add h with hold | hnew
    · exact .inl hold
    · exact .inr ⟨hother, hnew⟩

/-- If a file was there from another version, the log knows a warning about it. -/
lemma knows_withPackageFile (h : c.firstOr key.name path key.version ≠ key.version) :
    (c.withPackageFile key path place).warnings.knows
      (.duplicateFile key.name path (c.firstOr key.name path key.version) key.version) = true := by
  rw [warnings_withPackageFile, if_neg h]
  exact c.warnings.knows_add _

end Context

namespace Bundle

/-! ## The account that is kept -/

/-- No version that is noted for a file has a colon. -/
def PlainVersions (c : Context) : Prop :=
  ∀ path key, c.filePackages.get? path = some key → ':' ∉ key.version.toList

/-- The notes on package files and the warnings agree.  What is noted is in the bundle; the version that is
noted as the first one is one from which the file was added; and a warning about a file tells of this version
and another one from which it was added. -/
structure Traversal.Accounts (st : Settings) (t : Traversal) : Prop where
  present : ∀ path key, t.context.filePackages.get? path = some key → t.bundle.contains path = true
  names : ∀ path key, t.context.filePackages.get? path = some key → ':' ∉ key.name.toList
  distinct : t.context.warnings.Distinct
  first : ∀ name path v, t.context.bundled.get? (name, path) = some v → t.context.AddedFrom st name path v
  warned : ∀ name path p q, .duplicateFile name path p q ∈ t.context.warnings.given →
    p ≠ q ∧ t.context.bundled.get? (name, path) = some p ∧ t.context.AddedFrom st name path q

/-- If versions have no colons, a first version is noted for every file that was added, and for every other
version from which it was added a warning has been given. -/
def Traversal.Warns (st : Settings) (t : Traversal) : Prop :=
  PlainVersions t.context → ∀ name path v, t.context.AddedFrom st name path v →
    ∃ first, t.context.bundled.get? (name, path) = some first ∧
      (first ≠ v → .duplicateFile name path first v ∈ t.context.warnings.given)

variable {st : Settings} {nodes : List Node} {t t' : Traversal} {n : Node}
  {name path content file version : String}

namespace Traversal

section Keeps

variable (h : t.context.SamePackages t'.context)

include h

lemma addedFrom_of_samePackages :
    t'.context.AddedFrom st name path version ↔ t.context.AddedFrom st name path version := by
  rw [Context.AddedFrom, h.filePackages, Context.AddedFrom]

lemma mem_given_of_samePackages {p q : String} :
    .duplicateFile name path p q ∈ t'.context.warnings.given ↔
      .duplicateFile name path p q ∈ t.context.warnings.given := by
  rw [← WarningLog.mem_duplicates, h.warnings.duplicates, WarningLog.mem_duplicates]

end Keeps

lemma Accounts.keeps (h : t.Accounts st) (hk : t.KeepsPackages t') : t'.Accounts st where
  present path key hkey := by
    rw [hk.context.filePackages] at hkey
    obtain ⟨content, hcontent⟩ := Option.isSome_iff_exists.mp (h.present path key hkey)
    exact Option.isSome_iff_exists.mpr ⟨content, Table.get?_of_prefix hk.entries hcontent⟩
  names := by
    rw [hk.context.filePackages]
    exact h.names
  distinct := hk.context.warnings.distinct h.distinct
  first name path v hv := by
    rw [hk.context.bundled] at hv
    exact (addedFrom_of_samePackages hk.context).mpr (h.first name path v hv)
  warned name path p q hgiven := by
    obtain ⟨hne, hp, hq⟩ := h.warned name path p q ((mem_given_of_samePackages hk.context).mp hgiven)
    rw [hk.context.bundled]
    exact ⟨hne, hp, (addedFrom_of_samePackages hk.context).mpr hq⟩

lemma Warns.keeps (h : t.Warns st) (hk : t.KeepsPackages t') : t'.Warns st := by
  intro hplain name path v hv
  rw [PlainVersions, hk.context.filePackages] at hplain
  obtain ⟨first, hfirst, htold⟩ := h hplain name path v ((addedFrom_of_samePackages hk.context).mp hv)
  rw [hk.context.bundled]
  exact ⟨first, hfirst, fun hne => (mem_given_of_samePackages hk.context).mpr (htold hne)⟩

/-- Nothing is noted of a place that the bundle does not have. -/
lemma Accounts.filePackages_eq_none (h : t.Accounts st) (hnew : t.bundle.contains file = false) :
    t.context.filePackages.get? file = none := by
  rw [Option.eq_none_iff_forall_ne_some]
  intro key hkey
  exact nomatch hnew.symm.trans (h.present _ key hkey)

section Adds

variable (h : t.Accounts st) (hnew : t.bundle.contains (n.pathFor st path) = false)

include h hnew

lemma addedFrom_withPackageFile :
    (t.withPackageFile st n path content).context.AddedFrom st name file version ↔
      t.context.AddedFrom st name file version ∨ ⟨name, version⟩ = n.key ∧ file = path :=
  Context.addedFrom_withPackageFile (h.filePackages_eq_none hnew)

lemma Accounts.adds (hname : ':' ∉ n.key.name.toList) : (t.withPackageFile st n path content).Accounts st where
  present file key hkey := by
    rcases Context.filePackages_withPackageFile hkey with ⟨rfl, -⟩ | hold
    · exact Option.isSome_iff_exists.mpr ⟨content, Table.get?_insert_self _ _ _⟩
    · obtain ⟨text, htext⟩ := Option.isSome_iff_exists.mp (h.present file key hold)
      exact Option.isSome_iff_exists.mpr ⟨text, Table.get?_of_prefix (prefix_withPackageFile hnew) htext⟩
  names file key hkey := by
    rcases Context.filePackages_withPackageFile hkey with ⟨-, rfl⟩ | hold
    · exact hname
    · exact h.names file key hold
  distinct := Context.distinct_withPackageFile h.distinct
  first name file v hv := by
    rw [addedFrom_withPackageFile h hnew]
    exact (Context.bundled_withPackageFile_cases hv).imp_left (h.first name file v)
  warned name file p q hgiven := by
    rw [addedFrom_withPackageFile h hnew]
    rcases Context.mem_withPackageFile hgiven with hold | ⟨hother, heq⟩
    · obtain ⟨hne, hp, hq⟩ := h.warned name file p q hold
      exact ⟨hne, Context.bundled_withPackageFile_of_some hp, .inl hq⟩
    · obtain ⟨rfl, rfl, rfl, rfl⟩ := Warning.duplicateFile.inj heq
      exact ⟨hother, Context.bundled_withPackageFile_self, .inr ⟨rfl, rfl⟩⟩

lemma plainVersions_of_withPackageFile (hplain : PlainVersions (t.withPackageFile st n path content).context) :
    PlainVersions t.context := by
  intro place key hkey
  have hother : n.pathFor st path ≠ place := by
    rintro rfl
    exact nomatch (h.filePackages_eq_none hnew).symm.trans hkey
  exact hplain place key ((Table.get?_insert_ne _ hother _).trans hkey)

/-- The version from which a file has been added now has its warning: it has been given, or the warning that
had its key tells of the same file and the same two versions, the first one first. -/
lemma Accounts.mem_given (hname : ':' ∉ n.key.name.toList)
    (hplain : PlainVersions (t.withPackageFile st n path content).context)
    (hne : t.context.firstOr n.key.name path n.key.version ≠ n.key.version) :
    .duplicateFile n.key.name path (t.context.firstOr n.key.name path n.key.version) n.key.version ∈
      (t.withPackageFile st n path content).context.warnings.given := by
  have hafter : (t.withPackageFile st n path content).Accounts st := h.adds hnew hname
  have hself : (t.withPackageFile st n path content).context.bundled.get? (n.key.name, path) =
      some (t.context.firstOr n.key.name path n.key.version) := Context.bundled_withPackageFile_self
  have hfirst := hafter.first _ _ _ hself
  have hadded : (t.withPackageFile st n path content).context.AddedFrom st n.key.name path n.key.version :=
    (addedFrom_withPackageFile h hnew).mpr (.inr ⟨rfl, rfl⟩)
  obtain ⟨g, hgiven, hkey⟩ := WarningLog.knows_iff.mp (Context.knows_withPackageFile hne)
  obtain ⟨name', file', p, q, rfl⟩ := Warning.isDuplicate_of_key hkey
  obtain ⟨-, hp, hq⟩ := hafter.warned name' file' p q hgiven
  have hp' := hafter.first _ _ _ hp
  obtain ⟨rfl, rfl, horder⟩ := Warning.eq_of_key_duplicateFile (hafter.names _ _ hp') hname
    ⟨hplain _ _ hp', hplain _ _ hq⟩ ⟨hplain _ _ hfirst, hplain _ _ hadded⟩ hkey
  obtain rfl : p = t.context.firstOr n.key.name file' n.key.version := Option.some.inj (hp.symm.trans hself)
  rcases horder with ⟨-, rfl⟩ | ⟨hsame, -⟩
  · exact hgiven
  · exact absurd hsame hne

lemma Warns.adds (hname : ':' ∉ n.key.name.toList) (hw : t.Warns st) :
    (t.withPackageFile st n path content).Warns st := by
  intro hplain name file v hv
  rcases (addedFrom_withPackageFile h hnew).mp hv with hold | ⟨hkey, rfl⟩
  · obtain ⟨first, hfirst, htold⟩ := hw (plainVersions_of_withPackageFile h hnew hplain) name file v hold
    exact ⟨first, Context.bundled_withPackageFile_of_some hfirst,
      fun hne => Context.extends_withPackageFile.subset (htold hne)⟩
  · obtain rfl : name = n.key.name := congrArg PackageKey.name hkey
    obtain rfl : v = n.key.version := congrArg PackageKey.version hkey
    exact ⟨_, Context.bundled_withPackageFile_self, h.mem_given hnew hname hplain⟩

end Adds

end Traversal

/-! ## Builds -/

/-- The names of packages that imports can name have no colon. -/
lemma colon_not_mem_name {key : PackageKey} (h : key.Imported) : ':' ∉ key.name.toList := by
  obtain ⟨literal, r, hread, hname⟩ := h
  have hform := PackageReference.hasForm_of_parse hread
  have hlast : ':' ∉ r.name.toList := hform.name.not_mem (by decide) (by decide)
  rw [← hname, PackageReference.toList_fullName]
  cases hscope : r.scope? with
  | none => simpa [scopePart] using hlast
  | some scope =>
    obtain ⟨word, hword, htext⟩ := hform.scope scope hscope
    have hscope : ':' ∉ word := hword.not_mem (by decide) (by decide)
    simp [scopePart, htext, hlast, hscope]

lemma upheld_accounts (hnames : ∀ n ∈ nodes, ':' ∉ n.key.name.toList) :
    Upheld st nodes (fun t => t.Accounts st ∧ t.Warns st) where
  keeps _ _ hk h := ⟨h.1.keeps hk, h.2.keeps hk⟩
  adds _ n _ _ hn _ _ hnew h := ⟨h.1.adds hnew (hnames n hn), Traversal.Warns.adds h.1 hnew (hnames n hn) h.2⟩

section Fresh

variable {c : Context} (hwarnings : c.warnings = {}) (hbundled : c.bundled = ∅) (hpackages : c.filePackages = ∅)
  (h : c.SamePackages t.context)

include hpackages h

lemma not_addedFrom_of_fresh : ¬ t.context.AddedFrom st name path version := by
  rw [Context.AddedFrom, h.filePackages, hpackages]
  exact nofun

lemma warns_of_fresh : t.Warns st := fun _ _ _ _ hv => absurd hv (not_addedFrom_of_fresh hpackages h)

include hwarnings hbundled

/-- The notes of a run that is fresh agree with the warnings that are given before its first pass. -/
lemma accounts_of_fresh : t.Accounts st := by
  have hnone : t.context.filePackages = ∅ := h.filePackages.trans hpackages
  have hduplicates : t.context.warnings.duplicates = [] := by
    rw [h.warnings.duplicates, hwarnings]
    rfl
  have hdistinct : c.warnings.Distinct := by
    rw [hwarnings]
    exact List.nodup_nil
  refine ⟨?_, ?_, h.warnings.distinct hdistinct, ?_, ?_⟩
  · rw [hnone]
    exact nofun
  · rw [hnone]
    exact nofun
  · rw [h.bundled, hbundled]
    exact nofun
  · intro name path p q hgiven
    rw [← WarningLog.mem_duplicates, hduplicates] at hgiven
    exact nomatch hgiven

end Fresh

namespace Traversal

/-- The warnings about a file that has been added are those which tell of the first version and another one. -/
lemma Accounts.exists_first (h : t.Accounts st) (hw : t.Warns st) (hplain : PlainVersions t.context)
    (hv : t.context.AddedFrom st name path version) :
    ∃ first, t.context.AddedFrom st name path first ∧
      ∀ p q, .duplicateFile name path p q ∈ t.context.warnings.given ↔
        p = first ∧ p ≠ q ∧ t.context.AddedFrom st name path q := by
  obtain ⟨first, hfirst, -⟩ := hw hplain name path version hv
  refine ⟨first, h.first _ _ _ hfirst, fun p q => ⟨?_, ?_⟩⟩
  · intro hgiven
    obtain ⟨hne, hp, hq⟩ := h.warned name path p q hgiven
    exact ⟨Option.some.inj (hp.symm.trans hfirst), hne, hq⟩
  · rintro ⟨rfl, hne, hq⟩
    obtain ⟨first, hfirst', htold⟩ := hw hplain name path q hq
    obtain rfl : p = first := Option.some.inj (hfirst.symm.trans hfirst')
    exact htold hne

/-- There is a warning about a file exactly if it was added from two versions. -/
lemma Accounts.warned_iff (h : t.Accounts st) (hw : t.Warns st) (hplain : PlainVersions t.context) :
    (∃ p q, .duplicateFile name path p q ∈ t.context.warnings.given) ↔
      ∃ v w, v ≠ w ∧ t.context.AddedFrom st name path v ∧ t.context.AddedFrom st name path w := by
  constructor
  · rintro ⟨p, q, hgiven⟩
    obtain ⟨hne, hp, hq⟩ := h.warned name path p q hgiven
    exact ⟨p, q, hne, h.first _ _ _ hp, hq⟩
  · rintro ⟨p, q, hne, hp, hq⟩
    obtain ⟨first, -, hgiven⟩ := h.exists_first hw hplain hp
    -- the first version is another one than one of the two
    by_cases hsame : first = p
    · exact ⟨first, q, (hgiven first q).mpr ⟨rfl, hsame ▸ hne, hq⟩⟩
    · exact ⟨first, p, (hgiven first p).mpr ⟨rfl, hsame, hp⟩⟩

end Traversal

variable {R : Type} {work : R → Work (Except Fault Bundle × Context)} {s₀ : Service}
  {crowd : Crowd Service Question Question.Answer R (Except Fault Bundle × Context)} {id budget : Nat}
  {b : Builder} {entry : String} {c c' : Context} {bundle : Bundle}

/-- **Warnings of duplicate files are exact.**  Let a build of a fresh run return a bundle, whatever else goes
on, and let the versions of the packages whose files are bundled have no colon.  Then a file of a package has a
warning of a duplicate exactly if it was added from two versions of the package: one for each version but the
first, which tells of it and the first.  No two warnings of the run have one key.  What is noted as added from a
version is a source file of a package that was fetched in this version, and the bundle has its text. -/
theorem duplicates_exact (hwork : ∀ r, (work r).Steady Spares Helper)
    (hs₀ : (Cache.supplying st Cache.Keyed).Accords s₀) (hreach : Crowd.Reachable work s₀ crowd)
    (hbuild : ∀ r, .begun id r ∈ crowd.history → work r = build b budget entry content c)
    (hret : .returned id (.ok bundle, c') ∈ crowd.history) (hwarnings : c.warnings = {})
    (hbundled : c.bundled = ∅) (hpackages : c.filePackages = ∅) (hplain : PlainVersions c') :
    (∀ name path, (∃ p q, .duplicateFile name path p q ∈ c'.warnings.given) ↔
      ∃ v w, v ≠ w ∧ c'.AddedFrom st name path v ∧ c'.AddedFrom st name path w) ∧
    (∀ name path v, c'.AddedFrom st name path v → ∃ first, c'.AddedFrom st name path first ∧
      ∀ p q, .duplicateFile name path p q ∈ c'.warnings.given ↔
        p = first ∧ p ≠ q ∧ c'.AddedFrom st name path q) ∧
    (c'.warnings.given.map Warning.key).Nodup ∧
    ∃ s rules t v ps left w x,
      Run.Ends (amongOthers st id crowd.history) (prepare b entry content) { context := c } s (.ok rules) t v ∧
      Passes (amongOthers st id crowd.history) b.shelf rules 0 [entry] t v ps left w x ∧
      ∀ path key, c'.filePackages.get? path = some key →
        Brought st (ps.flatMap Passage.nodes) bundle path key := by
  obtain ⟨hT, s, rules, t, v, ps, left, w, x, hs, hprepare, hpasses, rfl, bundle?, rfl⟩ :=
    exists_passes_of_returned hwork hs₀ hreach hbuild hret
  have hS : ∀ s, (Cache.supplying st Cache.Keyed).Accords s → s.settings = st :=
    fun _ => Cache.settings_of_accords
  obtain ⟨hsame, hv⟩ := (samePackages_prepare b entry content).ends hT hs hprepare
  have himported := hpasses.imported hT hS (fun _ => Cache.good_of_accords) hv
  have hnames : ∀ n ∈ ps.flatMap Passage.nodes, ':' ∉ n.key.name.toList :=
    fun n hn => colon_not_mem_name (himported n hn)
  obtain ⟨haccounts, hwarns⟩ := hpasses.upholds hT hS (upheld_accounts hnames) (fun _ hn => hn) hv
    ⟨accounts_of_fresh hwarnings hbundled hpackages hsame, warns_of_fresh hpackages hsame⟩
  have hbrought := hpasses.attributes hT hS hv (hsame.filePackages.trans hpackages)
  have hfirst : ∀ name path v, w.context.AddedFrom st name path v → ∃ first,
      w.context.AddedFrom st name path first ∧
      ∀ p q, .duplicateFile name path p q ∈ w.context.warnings.given ↔
        p = first ∧ p ≠ q ∧ w.context.AddedFrom st name path q :=
    fun _ _ _ hadded => haccounts.exists_first hwarns hplain hadded
  exact ⟨fun _ _ => haccounts.warned_iff hwarns hplain, hfirst, haccounts.distinct, s, rules, t, v, ps, left,
    w, x, hprepare, hpasses, hbrought⟩

/-- The file that the package has in both versions has a warning of a duplicate. -/
theorem duplicates_exact_twin :
    ∃ crowd bundle c', twinPlay = some crowd ∧ .returned 0 (.ok bundle, c') ∈ crowd.history ∧
      PlainVersions c' ∧
      c'.AddedFrom twinWorld.service.settings "p" "A.sol" "1.0.0" ∧
      c'.AddedFrom twinWorld.service.settings "p" "A.sol" "2.0.0" ∧
      (∃ p q, .duplicateFile "p" "A.sol" p q ∈ c'.warnings.given) ∧
      (c'.warnings.given.map Warning.key).Nodup := by
  have hplay : (twinPlay.bind fun w => lastPackages? w.history) =
      some (0, [(".deps/npm/p@1.0.0/A.sol", ⟨"p", "1.0.0"⟩), (".deps/npm/p@2.0.0/A.sol", ⟨"p", "2.0.0"⟩)]) := by
    decide +kernel
  obtain ⟨crowd, bundle, c', hcrowd, hreach, hret, hpackages⟩ := exists_returned_of_play hplay
  have hplain : PlainVersions c' := by
    intro path key hkey
    rw [Table.get?_eq_some_iff, hpackages] at hkey
    have hversion : ∀ e ∈ [(".deps/npm/p@1.0.0/A.sol", (⟨"p", "1.0.0"⟩ : PackageKey)),
        (".deps/npm/p@2.0.0/A.sol", ⟨"p", "2.0.0"⟩)], ':' ∉ e.2.version.toList := by decide
    exact hversion _ hkey
  have hfirst : c'.AddedFrom twinWorld.service.settings "p" "A.sol" "1.0.0" := by
    rw [Context.AddedFrom, Table.get?_eq_some_iff, hpackages]
    decide +kernel
  have hsecond : c'.AddedFrom twinWorld.service.settings "p" "A.sol" "2.0.0" := by
    rw [Context.AddedFrom, Table.get?_eq_some_iff, hpackages]
    decide +kernel
  obtain ⟨hiff, -, hdistinct, -⟩ := duplicates_exact (fun _ => spares_build _ _ _ _ _)
    ⟨[], rfl, Cache.faithful_new rfl rfl⟩ hreach (fun _ _ => rfl) hret rfl rfl rfl hplain
  exact ⟨crowd, bundle, c', hcrowd, hret, hplain, hfirst, hsecond,
    (hiff "p" "A.sol").mpr ⟨_, _, by decide, hfirst, hsecond⟩, hdistinct⟩

end Bundle

end SourceBundle
