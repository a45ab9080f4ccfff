/-
# One file under one path

A workspace in memory keeps a file under one place, but answers to every path with the normal form of that
place.  A bundle goes by paths as texts.  Relative imports are brought to places, except below a path that
begins at the root; the entry, the other imports and the files of packages are taken as they are given.  So
two paths of one file are due to what is given, and if all that is given is a place, there is one file of
the bundle for each file of the workspace.
-/
import SourceBundle.Proofs.Bundle.Added
import SourceBundle.Proofs.Bundle.Complete
import SourceBundle.Proofs.Path

namespace SourceBundle.Bundle

open SourceBundle.Import SourceBundle.Text

/-- Distinct paths of a bundle lead to distinct places of a workspace in memory. -/
def OneEntryPerFile (bundle : Bundle) : Prop :=
  ∀ p ∈ bundle.keys, ∀ q ∈ bundle.keys, Workspace.Memory.normal p = Workspace.Memory.normal q → p = q

/-- A path begins at the root. -/
def IsRooted (path : String) : Prop := path.toList.head? = some '/'

/-- The files to which a build can come: the entry, what is read for the imports of a file, and the files
of some packages. -/
inductive Arises (T : Terms Service Question Question.Answer) (st : Settings)
    (rules : List Remapping) (nodes : List Node) (entry content : String) : String → String → Prop
  | entry : Arises T st rules nodes entry content entry content
  | imported {file text text' : String} {r : Reference} :
      Arises T st rules nodes entry content file text → r ∈ extract text file →
      T.answer (.read (targetOf st rules r)) (.ok text') →
      Arises T st rules nodes entry content (targetOf st rules r) text'
  | fetched {n : Node} {path text : String} : n ∈ nodes → n.files.get? path = some text →
      Arises T st rules nodes entry content (n.pathFor st path) text

/-- The paths that a build takes as they are given: the entry, the imports that are not relative and name
a file that can be read, as they are remapped, and the paths of the files of some packages. -/
inductive Given (T : Terms Service Question Question.Answer) (st : Settings)
    (rules : List Remapping) (nodes : List Node) (entry content : String) : String → Prop
  | entry : Given T st rules nodes entry content entry
  | named {file text text' : String} {r : Reference} :
      Arises T st rules nodes entry content file text → r ∈ extract text file →
      classify st (remap rules r.path).1 ≠ .relative →
      T.answer (.read (remap rules r.path).1) (.ok text') →
      Given T st rules nodes entry content (remap rules r.path).1
  | fetched {n : Node} {path text : String} : n ∈ nodes → n.files.get? path = some text →
      Given T st rules nodes entry content (n.pathFor st path)

/-- A path is a stray if it is no place and has been given, or begins at the root as one that has been
given. -/
def Stray (T : Terms Service Question Question.Answer) (st : Settings)
    (rules : List Remapping) (nodes : List Node) (entry content path : String) : Prop :=
  ¬ Workspace.Memory.IsPlace path ∧ (Given T st rules nodes entry content path ∨
    IsRooted path ∧ ∃ p, Given T st rules nodes entry content p ∧ IsRooted p)

variable {T : Terms Service Question Question.Answer} {S : Service → Prop} {st : Settings}
  {rules : List Remapping} {nodes : List Node} {b : Builder} {budget : Nat}
  {entry content path text : String} {c c' : Context} {bundle : Bundle} {t u : Traversal}
  {s s' : Service}

/-! ## Relative imports -/

lemma isRelative_of_classify {literal : String} (h : classify st literal = .relative) :
    isRelative literal = true := by
  unfold classify at h
  split at h
  · assumption
  · split at h <;> exact nomatch h

lemma not_isRooted_of_isRelative {literal : String} (h : isRelative literal = true) :
    ¬ IsRooted literal := by
  intro hslash
  obtain ⟨cs, hcs⟩ := List.head?_eq_some_iff.mp hslash
  rw [isRelative, hcs] at h
  contradiction

/-- A relative import names a file at its place, or both begin at the root: the file and the one that
imports it. -/
lemma isPlace_or_isRooted_relativePath {file literal : String} (hliteral : isRelative literal = true) :
    Workspace.Memory.IsPlace (relativePath file literal) ∨
      IsRooted (relativePath file literal) ∧ IsRooted file := by
  by_cases hfile : IsRooted file
  · by_cases hpath : IsRooted (relativePath file literal)
    · exact .inr ⟨hpath, hfile⟩
    · exact .inl (Workspace.Memory.isPlace_normal hpath)
  · refine .inl (Workspace.Memory.isPlace_normal ?_)
    have hparent : (Path.parent file).toList.head? ≠ some '/' := by
      rw [Path.parent, String.toList_ofList]
      exact Path.head?_of_prefix (Path.parentChars_prefix _) hfile
    rw [Path.normal, String.toList_ofList, Path.join, String.toList_ofList]
    exact Path.head?_normalChars (Path.head?_joinChars hparent (not_isRooted_of_isRelative hliteral))

/-! ## The files of a bundle -/

theorem inherited_arises (T : Terms Service Question Question.Answer) (st : Settings)
    (rules : List Remapping) (nodes : List Node) (entry content : String) :
    Inherited T st rules nodes (Arises T st rules nodes entry content) where
  imported _ _ hfile _ hr _ ha := .imported hfile hr ha
  fetched _ hn _ _ hf := .fetched hn hf

/-- A path that begins at the root is due to one that has been given. -/
lemma Arises.exists_given_of_isRooted (h : Arises T st rules nodes entry content path text)
    (hpath : IsRooted path) : ∃ p, Given T st rules nodes entry content p ∧ IsRooted p := by
  induction h with
  | entry => exact ⟨_, .entry, hpath⟩
  | @imported file text text' r hfile hr ha ih =>
    by_cases hc : classify st (remap rules r.path).1 = .relative
    · rw [targetOf, if_pos hc, file_of_mem_extract hr] at hpath
      -- a place does not begin at the root, so that the importing file does
      rcases isPlace_or_isRooted_relativePath (isRelative_of_classify hc) with hplace | ⟨-, hroot⟩
      · exact absurd hpath (Workspace.Memory.head?_of_isPlace hplace)
      · exact ih hroot
    · rw [targetOf, if_neg hc] at hpath ha
      exact ⟨_, .named hfile hr hc ha, hpath⟩
  | fetched hn hf => exact ⟨_, .fetched hn hf, hpath⟩

/-- All files to which a build can come are at their places, but for the strays. -/
theorem Arises.isPlace_or_stray (h : Arises T st rules nodes entry content path text) :
    Workspace.Memory.IsPlace path ∨ Stray T st rules nodes entry content path := by
  refine Classical.or_iff_not_imp_left.mpr fun hnot => ⟨hnot, ?_⟩
  cases h with
  | entry => exact .inl .entry
  | @imported file text text' r hfile hr ha =>
    by_cases hc : classify st (remap rules r.path).1 = .relative
    · have hpath : targetOf st rules r = relativePath file (remap rules r.path).1 := by
        rw [targetOf, if_pos hc, file_of_mem_extract hr]
      rw [hpath] at hnot ⊢
      rcases isPlace_or_isRooted_relativePath (isRelative_of_classify hc) with hplace | ⟨hroot, hfrom⟩
      · exact absurd hplace hnot
      · exact .inr ⟨hroot, hfile.exists_given_of_isRooted hfrom⟩
    · rw [targetOf, if_neg hc] at ha ⊢
      exact .inl (.named hfile hr hc ha)
  | fetched hn hf => exact .inl (.fetched hn hf)

/-- If all that is given is a place, there are no strays. -/
lemma not_stray (hgiven : ∀ p, Given T st rules nodes entry content p → Workspace.Memory.IsPlace p) :
    ¬ Stray T st rules nodes entry content path := by
  rintro ⟨hnot, hpath | ⟨-, p, hp, hroot⟩⟩
  · exact hnot (hgiven _ hpath)
  · exact Workspace.Memory.head?_of_isPlace (hgiven _ hp) hroot

/-- All files of a bundle come from the entry, from imports and from the packages that were fetched. -/
theorem Tour.arises {ps : List Passage} {left : List String} {complete : Bool} (hT : T.Meet (quiet S))
    (hS : ∀ s, S s → s.settings = st) (h : Tour T b entry content c rules ps left complete t s u s')
    (hs : S s) (hpath : u.bundle.get? path = some text) :
    Arises T st rules (ps.flatMap Passage.nodes) entry content path text := by
  have hfirst : t.All (Arises T st rules (ps.flatMap Passage.nodes) entry content) := by
    unfold Traversal.All
    rw [h.bundle]
    exact List.forall_mem_singleton.mpr .entry
  have hall := h.passes.all hT hS (inherited_arises T st rules _ entry content) (fun _ hn => hn) hs hfirst
  exact hall _ (Table.get?_eq_some_iff.mp hpath)

/-- Two paths of one file are the same if both are places. -/
lemma oneEntryPerFile_iff {P : String → Prop}
    (hkeys : ∀ p ∈ bundle.keys, Workspace.Memory.IsPlace p ∨ P p) :
    OneEntryPerFile bundle ↔ ∀ p ∈ bundle.keys, P p → ∀ q ∈ bundle.keys,
      Workspace.Memory.normal p = Workspace.Memory.normal q → p = q := by
  constructor
  · intro h p hp _ q hq heq
    exact h p hp q hq heq
  · intro h p hp q hq heq
    rcases hkeys p hp with hplace | hstray
    · rcases hkeys q hq with hplace' | hstray'
      · rw [← hplace, heq, hplace']
      · exact (h q hq hstray' p hp heq.symm).symm
    · exact h p hp hstray q hq heq

/-- **One entry for one file.**  In a bundle that is built, distinct paths lead to distinct files of a
workspace in memory exactly if no stray leads to a file to which another path leads, too; relative imports
of files that do not begin at the root never make strays.  So there is one entry for each file if the entry,
the remapped imports that are not relative and name a file, and the files of the fetched packages are given
by their places, whatever relative imports there are. -/
theorem one_entry_per_file (hT : T.Meet (quiet S)) (hS : ∀ s, S s → s.settings = st) (hs : S s)
    (h : (build b budget entry content c).Ends T s (.ok bundle, c') s') :
    ∃ rules ps left complete t x u y, Tour T b entry content c rules ps left complete t x u y ∧
      bundle = u.bundle ∧
      (∀ path text, bundle.get? path = some text →
        Arises T st rules (ps.flatMap Passage.nodes) entry content path text) ∧
      (OneEntryPerFile bundle ↔ ∀ p ∈ bundle.keys,
        Stray T st rules (ps.flatMap Passage.nodes) entry content p → ∀ q ∈ bundle.keys,
          Workspace.Memory.normal p = Workspace.Memory.normal q → p = q) ∧
      ((∀ p, Given T st rules (ps.flatMap Passage.nodes) entry content p →
        Workspace.Memory.IsPlace p) → OneEntryPerFile bundle) := by
  obtain ⟨rules, ps, left, complete, t, x, u, y, htour, hx, rfl, -⟩ := exists_tour hT hs h
  have harises : ∀ path text, u.bundle.get? path = some text →
      Arises T st rules (ps.flatMap Passage.nodes) entry content path text :=
    fun path text hpath => htour.arises hT hS hx hpath
  have hkeys : ∀ p ∈ u.bundle.keys, Workspace.Memory.IsPlace p ∨
      Stray T st rules (ps.flatMap Passage.nodes) entry content p := by
    intro p hp
    obtain ⟨text, htext⟩ := Table.get?_isSome_iff.mpr hp
    exact (harises p text htext).isPlace_or_stray
  have hiff := oneEntryPerFile_iff hkeys
  exact ⟨rules, ps, left, complete, t, x, u, y, htour, rfl, harises, hiff,
    fun hgiven => hiff.mpr fun p _ hstray => absurd hstray (not_stray hgiven)⟩

/-! ## Two builds over one library -/

/-- A workspace with one library file, and a builder that takes the paths below `@x/` to the library. -/
def libraryWorld : Scenario.World where
  service := { settings := {}, index := { path := "" } }
  store := .memory (.ofFiles [("lib/x.sol", "contract X {}")])
  catalog := ∅
  failures := []
  cues := []
  builder := ⟨0, some [⟨"@x/", "lib/", ""⟩], false⟩
  budget := 8

/-- A fresh run for a source above the library. -/
def libraryRun : Context := { target := "m.sol" }

/-- How a build over the library ends, by what it does alone. -/
lemma exists_ends_library (content : String) (keys : List String)
    (h : (((build libraryWorld.builder libraryWorld.budget "m.sol" content libraryRun).alone
      (fun q => (Scenario.reply libraryWorld q).1) libraryWorld.service).map
        fun r => r.1.1.toOption.map Table.keys) = some (some keys)) :
    ∃ bundle c' s', bundle.keys = keys ∧
      (build libraryWorld.builder libraryWorld.budget "m.sol" content libraryRun).Ends
        (unsuperseded {} libraryRun) libraryWorld.service (.ok bundle, c') s' := by
  obtain ⟨⟨⟨result, c'⟩, s'⟩, halone, hr⟩ := Option.map_eq_some_iff.mp h
  obtain ⟨bundle, hb, hk⟩ := Option.map_eq_some_iff.mp hr
  cases result with
  | error f => cases hb
  | ok bundle' =>
    obtain rfl := Option.some.inj hb
    exact ⟨bundle', c', s', hk, Routine.ends_of_alone (obeys_build _ _ _ _ _)
      (unsuperseded_meet {} libraryRun) (fun s t hs hk => ⟨hk.settings.trans hs.1, trivial⟩)
      (fun s hs => hs) (fun _ => trivial) ⟨rfl, trivial⟩ halone⟩

/-- A source that imports the file of the library in three ways. -/
def thriceEntry : String := "import \"./lib/x.sol\";\nimport \"lib/x.sol\";\nimport \"@x/x.sol\";"

/-- A file to which a relative import, a path and a remapped path lead has one entry. -/
theorem one_entry_per_file_thrice :
    ∃ bundle c' s', bundle.keys = ["m.sol", "lib/x.sol"] ∧
      (build libraryWorld.builder libraryWorld.budget "m.sol" thriceEntry libraryRun).Ends
        (unsuperseded {} libraryRun) libraryWorld.service (.ok bundle, c') s' ∧
      OneEntryPerFile bundle := by
  obtain ⟨bundle, c', s', hkeys, hends⟩ := exists_ends_library thriceEntry ["m.sol", "lib/x.sol"]
    (by decide +kernel)
  obtain ⟨rules, ps, left, complete, t, x, u, y, htour, hb, harises, hiff, hplaces⟩ :=
    one_entry_per_file (unsuperseded_meet {} libraryRun) (fun _ hs => hs.1) ⟨rfl, trivial⟩ hends
  refine ⟨bundle, c', s', hkeys, hends, hiff.mpr ?_⟩
  have hall : ∀ p ∈ bundle.keys, Workspace.Memory.IsPlace p := by
    rw [hkeys]
    decide +kernel
  exact fun p hp hstray => absurd (hall p hp) hstray.1

/-- A source that imports the file of the library by a path and by the same path with one slash more. -/
def doubledEntry : String := "import \"lib/x.sol\";\nimport \"lib//x.sol\";"

/-- A file that two spellings of its path lead to has two entries. -/
theorem not_one_entry_per_file_doubled :
    ∃ bundle c' s', bundle.keys = ["m.sol", "lib/x.sol", "lib//x.sol"] ∧
      (build libraryWorld.builder libraryWorld.budget "m.sol" doubledEntry libraryRun).Ends
        (unsuperseded {} libraryRun) libraryWorld.service (.ok bundle, c') s' ∧
      ¬ OneEntryPerFile bundle := by
  obtain ⟨bundle, c', s', hkeys, hends⟩ := exists_ends_library doubledEntry
    ["m.sol", "lib/x.sol", "lib//x.sol"] (by decide +kernel)
  refine ⟨bundle, c', s', hkeys, hends, fun h => ?_⟩
  have hsame : "lib/x.sol" = "lib//x.sol" :=
    h "lib/x.sol" (by simp [hkeys]) "lib//x.sol" (by simp [hkeys]) (by decide +kernel)
  exact absurd hsame (by decide)

end SourceBundle.Bundle
