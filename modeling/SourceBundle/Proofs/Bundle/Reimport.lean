/-
# Paths of package files, imported

The path of a file of a package begins with the directory of the packages; what follows is a package
literal, which names the package, the version and the file.  So an import of this path, unless there is such
a file in the workspace, waits for the same file of the same version: what is written for a key and a path
inside the package is read again by the reader of literals, and by the choice of a version.
-/
import SourceBundle.Proofs.Bundle.Growth
import SourceBundle.Proofs.Import.Package
import SourceBundle.Proofs.PackageKey
import SourceBundle.Proofs.Routine.Direct

namespace SourceBundle

open SourceBundle.Import SourceBundle.Text

/-! ## References with a version put in -/

namespace Import.PackageReference

variable {literal : String} {r : PackageReference} {v : String}

/-- The reference to the same file in a version of the package. -/
def pinned (r : PackageReference) (v : String) : PackageReference := { r with version? := some v }

/-- What is written of a reference with a version put in has the form of a literal. -/
lemma HasForm.render_pinned (h : HasForm IsFedWordOf literal r) (hfile : r.subpath ≠ "")
    (hv : IsWordOf isVersionChar v.toList) : HasForm IsFedWordOf (r.pinned v).render (r.pinned v) where
  trimmed := by
    -- both texts begin with the scope or the name, and end with the path
    obtain ⟨tail?, hliteral, hsubpath⟩ := h.parts
    have hne : r.subpath.toList ≠ [] := by simpa using hfile
    obtain ⟨tail, rfl⟩ : ∃ tail, tail? = some tail := by
      cases tail? with
      | none => exact absurd hsubpath hne
      | some tail => exact ⟨tail, rfl⟩
    obtain rfl : r.subpath.toList = tail := hsubpath
    have hfront : scopePart r.scope? ++ r.name.toList ≠ [] := by
      simp [h.name.ne_nil]
    have hback : pathPart (some r.subpath.toList) ≠ [] := List.cons_ne_nil _ _
    have htrimmed := trim_eq_self_iff.mp h.trimmed
    rw [hliteral, ← List.append_assoc] at htrimmed
    have hpath : (r.pinned v).path? = some r.subpath.toList := if_neg hfile
    rw [trim_eq_self_iff, toList_render, hpath, ← List.append_assoc]
    exact htrimmed.swap hfront hback _
  parts := by
    have hpath : (r.pinned v).path? = some r.subpath.toList := if_neg hfile
    exact ⟨some r.subpath.toList, hpath ▸ toList_render _, rfl⟩
  scope := h.scope
  name := h.name
  version := by
    rintro _ ⟨⟩
    exact .inl hv
  rooted := h.rooted
  doubled := h.doubled

/-- A name that is read is not empty and more than an at sign. -/
lemma HasForm.fullName_ne (h : HasForm IsFedWordOf literal r) : r.fullName ≠ "" ∧ r.fullName ≠ "@" := by
  obtain ⟨hne, hat, -⟩ := h.name.undivided fun _ => inner_of_isNameChar
  have htext := r.toList_fullName
  constructor
  · intro hempty
    rw [hempty] at htext
    simp [hne] at htext
  · intro halone
    rw [halone] at htext
    have hmem : '@' ∈ r.name.toList := by
      obtain ⟨front, c, hlast⟩ := List.eq_nil_or_concat r.name.toList |>.resolve_left hne
      have hend : ("@".toList).getLast? = some c := by
        rw [htext, hlast]
        simp
      obtain rfl : '@' = c := by simpa using hend
      simp [hlast]
    exact hat hmem

end Import.PackageReference

namespace Bundle

open PackageReference

variable {st : Settings} {r r' : PackageReference} {v v' : String}

/-- A file of a package in a version as an import can name them: the reference is read from a literal and
names a file, and the version is exact and made of characters that a literal may have in a version, such as
digits, letters, dots, hyphens and plus signs. -/
structure Importable (r : PackageReference) (v : String) : Prop where
  read : ∃ literal, parse literal = .ok r
  file : r.subpath ≠ ""
  exact : Version.isExact v = true
  word : IsWordOf isVersionChar v.toList

/-- The key of a version of the package that a reference names. -/
def keyOf (r : PackageReference) (v : String) : PackageKey := ⟨r.fullName, v⟩

/-- The path of the file that a reference names, in a version of the package. -/
def pathOf (st : Settings) (r : PackageReference) (v : String) : String :=
  (keyOf r v).pathFor st r.subpath

/-- The only question is whether there is a file or directory at a path, and there is none. -/
def Absent (path : String) (q : Question) (a : q.Answer) : Prop :=
  (⟨q, a⟩ : Σ q : Question, q.Answer) = ⟨.probe path, .ok false⟩

/-- A traversal after an import of the path of a package file: the import is noted, and it waits for the file
unless the bundle has it. -/
def Traversal.imports (t : Traversal) (st : Settings) (rules : List Remapping) (ref : Reference)
    (r : PackageReference) (v : String) : Traversal :=
  { t with
    context := noteImport rules ref (pathOf st r v) t.context
    waiting :=
      if t.bundle.contains (pathOf st r v) then t.waiting
      else t.waiting ++ [⟨ref.file, ref.path, keyOf r v, r.subpath⟩] }

/-! ## The path is read -/

lemma pathOf_eq (hfile : r.subpath ≠ "") : pathOf st r v = st.packageDir ++ (r.pinned v).render := by
  apply String.toList_injective
  have hpath : (r.pinned v).path? = some r.subpath.toList := if_neg hfile
  rw [pathOf, PackageKey.toList_pathFor _ st hfile, PackageKey.toList_root, PackageKey.toList_render, keyOf,
    toList_fullName, String.toList_append, toList_render, hpath]
  simp [pinned, versionPart, versionChars?, pathPart]

lemma packageLiteral_append (st : Settings) (text : String) :
    packageLiteral st (st.packageDir ++ text) = text := by
  rw [packageLiteral, String.toList_append, dropPrefix?_append]
  exact String.ofList_toList

lemma parse_pathOf (h : Importable r v) : parse (packageLiteral st (pathOf st r v)) = .ok (r.pinned v) := by
  obtain ⟨literal, hliteral⟩ := h.read
  rw [pathOf_eq h.file, packageLiteral_append]
  exact ((hasForm_of_parse hliteral).render_pinned h.file h.word).parse_eq

/-- An exact version is what its import resolves to, for whatever has been chosen before. -/
lemma resolve_pinned (h : Importable r v) (parent? : Option PackageKey) :
    Resolve.resolve (r.pinned v) parent? = pure ⟨v, .explicit, some v⟩ := by
  have hne : v.isEmpty = false := by simpa using h.word.1
  have hversion : (r.pinned v).version? = some v := rfl
  simp only [Resolve.resolve, hversion, hne, Bool.false_eq_true, if_false]
  exact if_pos h.exact

lemma parse?_render_keyOf (h : Importable r v) :
    PackageKey.parse? (keyOf r v).render = some (keyOf r v) := by
  obtain ⟨literal, hliteral⟩ := h.read
  obtain ⟨hne, hat, -⟩ := IsFedWordOf.undivided (fun _ => inner_of_isVersionChar) (.inl h.word)
  have hversion : v ≠ "" := by simpa using hne
  exact PackageKey.parse?_render (hasForm_of_parse hliteral).fullName_ne hversion hat

/-- Files of packages that have one path are one file of one version of one package. -/
lemma eq_of_pathOf (h : Importable r v) (h' : Importable r' v') (heq : pathOf st r v = pathOf st r' v') :
    r.fullName = r'.fullName ∧ v = v' ∧ r.subpath = r'.subpath := by
  have hread : parse (packageLiteral st (pathOf st r v)) = .ok (r.pinned v) := parse_pathOf h
  rw [heq, parse_pathOf h'] at hread
  have hsame : r'.pinned v' = r.pinned v := Except.ok.inj hread
  have hname : (r'.pinned v').fullName = (r.pinned v).fullName := congrArg fullName hsame
  have hversion : (r'.pinned v').version? = (r.pinned v).version? := congrArg version? hsame
  have hsubpath : (r'.pinned v').subpath = (r.pinned v).subpath := congrArg subpath hsame
  exact ⟨hname.symm, (Option.some.inj hversion).symm, hsubpath.symm⟩

/-! ## The path is imported -/

variable {rules : List Remapping} {ref : Reference} {t : Traversal} {path : String}
  {S : Service → Prop} {ans : (q : Question) → q.Answer → Prop}

lemma comesTo_isFile_absent (h : t.bundle.contains path = false) :
    Run.ComesTo S (Absent path) (isFile path ref) t (.ok false) t := by
  obtain ⟨next, hask, hok, -⟩ := isFile_of_not_contains ref (by simpa using h)
  unfold Run.ComesTo
  rw [hask]
  refine ⟨⟨.ok false, rfl⟩, ?_⟩
  rintro _ ⟨⟩
  rw [hok false]
  rfl

lemma comesTo_addLocal (h : t.bundle.contains path = true) :
    Run.ComesTo S ans (addLocal path ref) t (.ok ()) t := by
  refine (Run.ComesTo.get t).bind ?_
  rw [if_pos h]
  exact Run.ComesTo.pure _ _

lemma comesTo_awaitPackage (hS : ∀ s, S s → s.settings = st) (h : Importable r v) :
    Run.ComesTo S ans (awaitPackage ref (r.pinned v)) t (.ok (pathOf st r v))
      { t with waiting := t.waiting ++ [⟨ref.file, ref.path, keyOf r v, r.subpath⟩] } := by
  have hempty : (r.pinned v).subpath.isEmpty = false := by simpa [pinned] using h.file
  rw [awaitPackage, hempty]
  refine (Run.ComesTo.get t).bind ?_
  rw [resolve_pinned h]
  refine (Run.ComesTo.zoom (Run.ComesTo.pure _ _)).bind ?_
  refine (Run.ComesTo.modify _ _).bind ?_
  exact (Stateful.comesTo_settings hS _).bind (Run.ComesTo.pure _ _)

lemma classify_append (hdir : ∀ rest, isRelative (st.packageDir ++ rest) = false) (rest : String) :
    classify st (st.packageDir ++ rest) = .package := by
  have hbegins : beginsWith st.packageDir.toList (st.packageDir ++ rest).toList = true := by
    rw [beginsWith, String.toList_append, dropPrefix?_append, Option.isSome_some]
  rw [classify, hdir, hbegins]
  simp

lemma comesTo_locate (hS : ∀ s, S s → s.settings = st)
    (hdir : ∀ rest, isRelative (st.packageDir ++ rest) = false) (h : Importable r v) :
    Run.ComesTo S (Absent (pathOf st r v)) (locate ref (pathOf st r v)) t (.ok (some (pathOf st r v)))
      { t with waiting :=
        if t.bundle.contains (pathOf st r v) then t.waiting
        else t.waiting ++ [⟨ref.file, ref.path, keyOf r v, r.subpath⟩] } := by
  have hkind : classify st (pathOf st r v) = .package := by
    rw [pathOf_eq h.file]
    exact classify_append hdir _
  refine (Stateful.comesTo_settings hS t).bind ?_
  simp only [hkind, reduceCtorEq, if_false, if_true]
  by_cases hb : t.bundle.contains (pathOf st r v) = true
  · rw [if_pos hb]
    have hfound : Run.ComesTo S (Absent (pathOf st r v)) (isFile (pathOf st r v) ref) t (.ok true) t := by
      unfold Run.ComesTo
      rw [isFile_of_contains ref hb]
      rfl
    exact hfound.bind ((comesTo_addLocal hb).bind (Run.ComesTo.pure _ _))
  · rw [if_neg hb]
    refine (comesTo_isFile_absent (by simpa using hb)).bind ?_
    refine (Stateful.comesTo_settings hS t).bind ?_
    simp only [parse_pathOf h]
    exact (comesTo_awaitPackage hS h).bind (Run.ComesTo.pure _ _)

lemma comesTo_followImport (hS : ∀ s, S s → s.settings = st)
    (hdir : ∀ rest, isRelative (st.packageDir ++ rest) = false) (h : Importable r v)
    (hremap : (remap rules ref.path).1 = pathOf st r v) :
    Run.ComesTo S (Absent (pathOf st r v)) (followImport rules ref) t (.ok ())
      (t.imports st rules ref r v) := by
  rw [followImport, hremap]
  exact (comesTo_locate hS hdir h).bind (Run.ComesTo.modify _ _)

/-- **Paths of package files import themselves.**  Without the directory of the packages in front, the path
of a file of a package in an exact version is a literal, which is read as the reference to the file with just
this version; the version is what it resolves to, without a question.  So an import of the path, as it is
remapped, always comes to this path if there is nothing at it in the workspace and the directory is not
relative: it waits for the same file of the same version of the package, unless the bundle has the path.  The
text of the key is read as the key; and two such files with one path are the same file of one version. -/
theorem path_imports_back (hdir : ∀ rest, isRelative (st.packageDir ++ rest) = false) :
    (∀ r v, Importable r v →
      parse (packageLiteral st (pathOf st r v)) = .ok (r.pinned v) ∧
      ((r.pinned v).fullName = r.fullName ∧ (r.pinned v).version? = some v ∧
        (r.pinned v).subpath = r.subpath) ∧
      (∀ parent?, Resolve.resolve (r.pinned v) parent? = pure ⟨v, .explicit, some v⟩) ∧
      (∀ rules ref t, (remap rules ref.path).1 = pathOf st r v →
        Run.ComesTo (fun s => s.settings = st) (Absent (pathOf st r v)) (followImport rules ref) t (.ok ())
          (t.imports st rules ref r v)) ∧
      PackageKey.parse? (keyOf r v).render = some (keyOf r v)) ∧
    ∀ r v r' v', Importable r v → Importable r' v' → pathOf st r v = pathOf st r' v' →
      r.fullName = r'.fullName ∧ v = v' ∧ r.subpath = r'.subpath := by
  constructor
  · intro r v h
    exact ⟨parse_pathOf h, ⟨rfl, rfl, rfl⟩, resolve_pinned h,
      fun rules ref t hremap => comesTo_followImport (fun _ hs => hs) hdir h hremap, parse?_render_keyOf h⟩
  · intro r v r' v' h h' heq
    exact eq_of_pathOf h h' heq

/-- A file of a package with a scope, whose path has at signs and a blank. -/
def scopedFile : PackageReference :=
  ⟨some "@openzeppelin", "contracts", some "^4.0.0", "token/@old@1/ERC 20.sol"⟩

/-- An import of the path of this file in a version with a release candidate and a build. -/
def scopedImport : Reference :=
  ⟨"m.sol", ".deps/npm/@openzeppelin/contracts@4.8.3-rc.1+b5/token/@old@1/ERC 20.sol", ⟨8, 70⟩⟩

/-- The import of a path with a scope, a release candidate and a build in front of a path with at signs waits
for the file that has this path. -/
theorem path_imports_back_scoped :
    Importable scopedFile "4.8.3-rc.1+b5" ∧
      pathOf {} scopedFile "4.8.3-rc.1+b5" = scopedImport.path ∧
      Run.ComesTo (fun s => s.settings = {}) (Absent scopedImport.path) (followImport [] scopedImport)
        { context := { target := "m.sol" } } (.ok ())
        (({ context := { target := "m.sol" } } : Traversal).imports {} [] scopedImport scopedFile
          "4.8.3-rc.1+b5") := by
  have hread : parse "@openzeppelin/contracts@^4.0.0/token/@old@1/ERC 20.sol" = .ok scopedFile := by
    decide +kernel
  have hfile : Importable scopedFile "4.8.3-rc.1+b5" :=
    ⟨⟨_, hread⟩, by decide, by decide +kernel, by decide +kernel⟩
  have hpath : pathOf {} scopedFile "4.8.3-rc.1+b5" = scopedImport.path := by decide +kernel
  have hdir : ∀ rest, isRelative (({} : Settings).packageDir ++ rest) = false := by
    intro rest
    rw [isRelative, String.toList_append]
    rfl
  obtain ⟨-, -, -, himport, -⟩ := (path_imports_back hdir).1 _ _ hfile
  rw [← hpath]
  exact ⟨hfile, rfl, himport [] scopedImport _ rfl⟩

end Bundle

end SourceBundle
