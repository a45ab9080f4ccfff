/-
# Relative imports inside a package

The files of a package join the bundle all at once, below a directory of their own, and no file of it is
scanned before.  A relative import is taken from the directory of the importing file.  So when a file of a
package imports another one relatively, without leading out of the package on the way, the path that it comes
to is that of the other file in the same version of the package; and as the bundle has this path, nothing is
asked of the workspace.
-/
import SourceBundle.Proofs.Bundle.Levels
import SourceBundle.Proofs.Bundle.Owners
import SourceBundle.Proofs.Bundle.Reimport
import SourceBundle.Proofs.Path.Below

namespace SourceBundle.Bundle

open SourceBundle.Import SourceBundle.Text SourceBundle.Text.Path

/-- A relative literal in a file of a package names a source file of the package, and does not lead out of
it. -/
structure NamesInside (n : Node) (file literal target : String) : Prop where
  relative : isRelative literal = true
  below : StaysBelow (join (parent file) literal)
  path : Path.normal (join (parent file) literal) = target
  source : endsWith sourceEnding target.toList = true
  present : ∃ content, n.files.get? target = some content

variable {T : Terms Service Question Question.Answer} {S : Service → Prop} {st : Settings}
  {rules : List Remapping} {shelf : Nat} {t t' u : Traversal} {s s' v : Service} {r : Reference}
  {n : Node} {key : PackageKey} {dir file literal target : String}

/-! ## The directory of a package -/

/-- A component with an at sign is an ordinary one. -/
lemma proper_of_at {p : List Char} (hat : '@' ∈ p) (hslash : '/' ∉ p) : Proper p ∧ p ≠ ['.', '.'] := by
  refine ⟨⟨?_, ?_, hslash⟩, ?_⟩
  all_goals
    rintro rfl
    simp at hat

/-- A directory below a directory, if its own components are ordinary ones. -/
lemma isDirectory_append {path : String} (hdir : IsDirectory dir)
    (hpath : ∀ p ∈ pieces '/' path.toList, Proper p ∧ p ≠ ['.', '.']) : IsDirectory (dir ++ "/" ++ path) := by
  obtain ⟨htext, hne⟩ := toList_eq_intercalate_pieces dir
  have hwhole : pieces '/' (dir ++ "/" ++ path).toList = pieces '/' dir.toList ++ pieces '/' path.toList := by
    have hslash : ∀ p ∈ pieces '/' dir.toList, '/' ∉ p := fun p hp => (hdir p hp).1.noSlash
    rw [← pieces_intercalate_append hne hslash, ← htext]
    simp [String.toList_append]
  rw [IsDirectory, hwhole]
  exact List.forall_mem_append.mpr ⟨hdir, hpath⟩

/-- The name of a package and its version make components with at signs. -/
lemma proper_of_mem_render (hkey : key.Imported) (hversion : '/' ∉ key.version.toList) :
    ∀ p ∈ pieces '/' key.render.toList, Proper p ∧ p ≠ ['.', '.'] := by
  obtain ⟨literal, reference, hread, hname⟩ := hkey
  have hform := PackageReference.hasForm_of_parse hread
  obtain ⟨-, -, hslash⟩ := hform.name.undivided fun _ => inner_of_isNameChar
  have hlast : '/' ∉ reference.name.toList ++ '@' :: key.version.toList := by
    simp [hslash, hversion]
  have hrender : key.render.toList =
      scopePart reference.scope? ++ (reference.name.toList ++ '@' :: key.version.toList) := by
    rw [PackageKey.toList_render, ← hname, PackageReference.toList_fullName, List.append_assoc]
  have hproper := proper_of_at (List.mem_append_right reference.name.toList List.mem_cons_self) hlast
  rw [hrender]
  cases hscope : reference.scope? with
  | none => simpa [scopePart, pieces_of_not_mem hlast] using hproper
  | some scope =>
    obtain ⟨word, hword, htext⟩ := hform.scope scope hscope
    obtain ⟨-, -, hfree⟩ := hword.undivided fun _ => inner_of_isNameChar
    have hfront : '/' ∉ '@' :: word := by simp [hfree]
    have hpieces : pieces '/' (scopePart (some scope) ++
        (reference.name.toList ++ '@' :: key.version.toList)) =
          ['@' :: word, reference.name.toList ++ '@' :: key.version.toList] := by
      have hcut := pieces_append hfront (reference.name.toList ++ '@' :: key.version.toList)
      rw [pieces_of_not_mem hlast] at hcut
      simpa [scopePart, htext] using hcut
    rw [hpieces]
    exact List.forall_mem_cons.mpr
      ⟨proper_of_at List.mem_cons_self hfront, List.forall_mem_singleton.mpr hproper⟩

/-- The files of a package are below a directory. -/
lemma isDirectory_root (hdir : IsDirectory dir) (hpackages : st.packageDir = dir ++ "/")
    (hkey : key.Imported) (hversion : '/' ∉ key.version.toList) : IsDirectory (key.root st) := by
  rw [PackageKey.root, hpackages]
  exact isDirectory_append hdir (proper_of_mem_render hkey hversion)

/-! ## The path of the import -/

lemma head?_of_isRelative (h : isRelative literal = true) : literal.toList.head? ≠ some '/' := by
  rintro hhead
  obtain ⟨rest, hrest⟩ : ∃ rest, literal.toList = '/' :: rest := by
    cases hl : literal.toList with
    | nil => simp [hl] at hhead
    | cons c cs => exact ⟨cs, by simpa [hl] using hhead⟩
  rw [isRelative, hrest] at h
  exact absurd h (by simp [beginsWith, dropPrefix?])

/-- A relative import inside of a package comes to the path of the file that it names. -/
theorem relativePath_inside (hroot : IsDirectory (key.root st)) (hfile : IsFile file)
    (h : NamesInside n file literal target) :
    relativePath (key.pathFor st file) literal = key.pathFor st target := by
  have hne : file ≠ "" := by
    rintro rfl
    exact absurd hfile.normal (by decide)
  have hnamed : target ≠ "." := by
    rintro rfl
    exact absurd h.source (by decide)
  have htarget : target ≠ "" := by
    rintro rfl
    exact absurd h.source (by decide)
  rw [relativePath, PackageKey.pathFor_of_ne hne, PackageKey.pathFor_of_ne htarget, ← h.path]
  exact normal_join_below hroot hfile (head?_of_isRelative h.relative) h.below (h.path ▸ hnamed)

/-! ## Following the import -/

variable {ans : (q : Question) → q.Answer → Prop}

lemma remap_of_isRelative (h : isRelative literal = true) : remap rules literal = (literal, none) :=
  if_pos h

/-- A relative import inside of a package that the bundle has is located without a question. -/
lemma comesTo_locate_inside (hS : ∀ s, S s → s.settings = st) (hroot : IsDirectory (n.key.root st))
    (hfile : IsFile file) (hr : r.file = n.pathFor st file) (h : NamesInside n file r.path target)
    (hsources : SourcesIn st n u.bundle) :
    Run.ComesTo S ans (locate r (remap rules r.path).1) u (.ok (some (n.pathFor st target))) u := by
  obtain ⟨content, hcontent⟩ := h.present
  have hpath : relativePath r.file r.path = n.pathFor st target :=
    hr ▸ relativePath_inside hroot hfile h
  have hkind : classify st r.path = .relative := if_pos h.relative
  rw [remap_of_isRelative h.relative]
  refine (Stateful.comesTo_settings hS u).bind ?_
  simp only [hkind, hpath, if_true]
  exact (comesTo_addLocal (hsources target content hcontent h.source)).bind (Run.ComesTo.pure _ _)

/-- From a traversal on, and whatever joins the bundle, an import comes to a path without any question to the
workspace or to others. -/
def ComesUnasked (st : Settings) (rules : List Remapping) (t : Traversal) (r : Reference) (path : String) :
    Prop :=
  ∀ u : Traversal, t.bundle.entries <+: u.bundle.entries →
    Run.ComesTo (fun s => s.settings = st) (fun _ _ => False) (followImport rules r) u (.ok ())
      { u with context := noteImport rules r path u.context }

lemma comesUnasked_inside (hroot : IsDirectory (n.key.root st)) (hfile : IsFile file)
    (hr : r.file = n.pathFor st file) (h : NamesInside n file r.path target)
    (hsources : SourcesIn st n t.bundle) : ComesUnasked st rules t r (n.pathFor st target) := by
  intro u hu
  exact (comesTo_locate_inside (fun _ hs => hs) hroot hfile hr h (hsources.mono hu)).bind
    (Run.ComesTo.modify _ _)

/-! ## The imports of a pass -/

/-- Somewhere on the way from a traversal on, when more files may have joined the bundle, an import has been
located at a path. -/
def Traversal.LocatesLater (T : Terms Service Question Question.Answer) (S : Service → Prop)
    (rules : List Remapping) (t : Traversal) (r : Reference) (path? : Option String) : Prop :=
  ∃ u v u' v', S v ∧ t.bundle.entries <+: u.bundle.entries ∧
    Run.Ends T (locate r (remap rules r.path).1) u v (.ok path?) u' v'

lemma Traversal.LocatesLater.earlier {path? : Option String} (h : u.LocatesLater T S rules r path?)
    (hentries : t.bundle.entries <+: u.bundle.entries) : t.LocatesLater T S rules r path? := by
  obtain ⟨w, v, w', v', hv, hprefix, hends⟩ := h
  exact ⟨w, v, w', v', hv, hentries.trans hprefix, hends⟩

/-- An import that has been followed has been located. -/
lemma Follows.locatesLater {rs : List Reference} {is : List Followed} {path? : Option String}
    (hT : T.Meet (quiet S)) (h : Follows T rules rs t s is t' s') (hs : S s) (hi : (r, path?) ∈ is) :
    r ∈ rs ∧ t.LocatesLater T S rules r path? := by
  induction h with
  | done => exact nomatch hi
  | skipped hl _ ih =>
    obtain ⟨hg, hv⟩ := (keeps_locate _ _).ends hT hs hl
    rcases List.mem_cons.mp hi with heq | hi
    · obtain ⟨rfl, rfl⟩ := Prod.mk.inj heq
      exact ⟨List.mem_cons_self, _, _, _, _, hs, List.prefix_refl _, hl⟩
    · obtain ⟨hr, hlater⟩ := ih hv hi
      exact ⟨List.mem_cons_of_mem _ hr, hlater.earlier hg.entries⟩
  | resolved hl _ ih =>
    obtain ⟨hg, hv⟩ := (keeps_locate _ _).ends hT hs hl
    rcases List.mem_cons.mp hi with heq | hi
    · obtain ⟨rfl, rfl⟩ := Prod.mk.inj heq
      exact ⟨List.mem_cons_self, _, _, _, _, hs, List.prefix_refl _, hl⟩
    · obtain ⟨hr, hlater⟩ := ih hv hi
      exact ⟨List.mem_cons_of_mem _ hr, hlater.earlier hg.entries⟩

lemma Scans.locatesLater {files : List String} {is : List Followed} {path? : Option String}
    (hT : T.Meet (quiet S)) (hS : ∀ s, S s → s.settings = st) (h : Scans T rules files t s is t' s')
    (hs : S s) (hi : (r, path?) ∈ is) : r.file ∈ files ∧ t.LocatesLater T S rules r path? := by
  induction h with
  | done => exact nomatch hi
  | file hf _ ih =>
    obtain ⟨hv, hchooses⟩ := hf.chooses hT hS hs
    rcases List.mem_append.mp hi with hi | hi
    · obtain ⟨hr, hlater⟩ := hf.locatesLater hT hs hi
      have hfile := file_of_mem_extract hr
      exact ⟨hfile ▸ List.mem_cons_self, hlater⟩
    · obtain ⟨hr, hlater⟩ := ih hv hi
      exact ⟨List.mem_cons_of_mem _ hr, hlater.earlier hchooses.bundle⟩

/-- The imports that are followed in a pass are those of its files, and one that comes to a path without a
question has come to this path. -/
lemma Pass.follows {depth : Nat} {p : Passage} {path? : Option String} (hT : T.Meet (quiet S))
    (hS : ∀ s, S s → s.settings = st) (h : Pass T shelf rules depth p t s t' s') (hs : S s)
    (hi : (r, path?) ∈ p.imports) :
    r.file ∈ p.files ∧ ∀ path, (∀ u : Traversal, t.bundle.entries <+: u.bundle.entries →
      Run.ComesTo S (fun _ _ => False) (locate r (remap rules r.path).1) u (.ok (some path)) u) →
        path? = some path := by
  obtain ⟨hcur, hscan, -⟩ := h
  have hv := ((Work.lawful_contextIsCurrent _).ends hT hs hcur).2
  obtain ⟨hr, u, x, u', x', hx, hprefix, hends⟩ := hscan.locatesLater hT hS hv hi
  exact ⟨hr, fun path hlocate => Except.ok.inj ((hlocate u hprefix).eq_of_ends hx hends).1⟩

/-! ## The files of a level -/

/-- The files that a pass leaves for the next level are in the bundle. -/
lemma Pass.contains_next {depth : Nat} {p : Passage} (hT : T.Meet (quiet S))
    (hS : ∀ s, S s → s.settings = st) (h : Pass T shelf rules depth p t s t' s') (hs : S s) :
    S s' ∧ ∀ path ∈ t'.next, t'.bundle.contains path = true := by
  have hinherited : Inherited T st rules p.nodes fun _ _ => True :=
    ⟨fun _ _ _ _ _ _ _ => trivial, fun _ _ _ _ _ => trivial⟩
  obtain ⟨hs', more, hentries, hnext, -⟩ :=
    h.adds hT hS hinherited (fun _ hn => hn) hs fun _ _ => trivial
  refine ⟨hs', fun path hpath => ?_⟩
  rw [Table.contains_iff, Table.keys, hentries, List.map_append]
  rw [hnext, List.nil_append] at hpath
  exact List.mem_append_right _ hpath

lemma Passes.contains_left {depth : Nat} {level left : List String} {ps : List Passage}
    (hT : T.Meet (quiet S)) (hS : ∀ s, S s → s.settings = st)
    (h : Passes T shelf rules depth level t s ps left u v) (hs : S s)
    (ht : ∀ path ∈ level, t.bundle.contains path = true) : ∀ path ∈ left, u.bundle.contains path = true := by
  induction h with
  | done => exact ht
  | pass _ hpass _ ih =>
    obtain ⟨hs', hnext⟩ := hpass.contains_next hT hS hs
    exact ih hs' hnext

/-- Whether a file of the bundle is noted as a file of a package does not change any more. -/
lemma Passes.filePackages_of_contains {depth : Nat} {level left : List String} {ps : List Passage}
    {path : String} (hT : T.Meet (quiet S)) (hS : ∀ s, S s → s.settings = st)
    (h : Passes T shelf rules depth level t s ps left u v) (hs : S s)
    (hpath : t.bundle.contains path = true) :
    u.context.filePackages.get? path = t.context.filePackages.get? path := by
  have hupheld : Upheld st (ps.flatMap Passage.nodes) fun w => w.bundle.contains path = true ∧
      w.context.filePackages.get? path = t.context.filePackages.get? path := by
    constructor
    · rintro w w' hw ⟨hin, hnoted⟩
      obtain ⟨content, hcontent⟩ := Option.isSome_iff_exists.mp hin
      refine ⟨Option.isSome_iff_exists.mpr ⟨content, Table.get?_of_prefix hw.entries hcontent⟩, ?_⟩
      rw [hw.context.filePackages, hnoted]
    · rintro w n file text - - - hnew ⟨hin, hnoted⟩
      have hother : n.pathFor st file ≠ path := by
        rintro rfl
        exact nomatch hnew.symm.trans hin
      exact ⟨(congrArg Option.isSome (Table.get?_insert_ne _ hother _)).trans hin,
        (Table.get?_insert_ne _ hother _).trans hnoted⟩
  exact (h.upholds hT hS hupheld (fun _ hn => hn) hs ⟨hpath, rfl⟩).2

/-- Files of packages are noted before they are scanned: a file of the level that some passes leave, if it is
noted as a file of a package after all further passes, has been brought in those passes. -/
lemma Passes.brought_of_mem_left {depth depth' : Nat} {level left left' : List String}
    {ps qs : List Passage} {w : Traversal} {x : Service} {path : String} (hT : T.Meet (quiet S))
    (hS : ∀ s, S s → s.settings = st) (h : Passes T shelf rules depth level t s ps left u v) (hs : S s) (hv : S v)
    (hlater : Passes T shelf rules depth' left u v qs left' w x)
    (hlevel : ∀ path ∈ level, t.bundle.contains path = true) (hfresh : t.context.filePackages = ∅)
    (hpath : path ∈ left) (hkey : w.context.filePackages.get? path = some key) :
    Brought st (ps.flatMap Passage.nodes) u.bundle path key := by
  have hpresent := h.contains_left hT hS hs hlevel path hpath
  have hnoted : u.context.filePackages.get? path = some key := by
    rw [← hlater.filePackages_of_contains hT hS hv hpresent, hkey]
  exact h.attributes hT hS hs hfresh path key hnoted

/-! ## Builds -/

variable {b : Builder} {entry content : String} {c : Context} {ps : List Passage} {left : List String}
  {w : Traversal} {x : Service}

/-- After some passes the source files of a fetched package are in the bundle, below a directory. -/
lemma Passes.rooted (hT : T.Meet (quiet S)) (hS : ∀ s, S s → s.settings = st)
    (hd : ∀ s, S s → ∀ d r, (d, r) ∈ s.delivered → Cache.Keyed d.1 r)
    (hdir : IsDirectory dir) (hpackages : st.packageDir = dir ++ "/") {depth : Nat} {level : List String}
    (h : Passes T shelf rules depth level t s ps left w x) (hs : S s) (hn : n ∈ ps.flatMap Passage.nodes)
    (hversion : '/' ∉ n.key.version.toList) : IsDirectory (n.key.root st) ∧ SourcesIn st n w.bundle := by
  obtain ⟨-, hcanonical⟩ := h.canonical hT hS hd hs
  obtain ⟨p, hp, hnode⟩ := List.mem_flatMap.mp hn
  exact ⟨isDirectory_root hdir hpackages (h.imported hT hS hd hs n hn) hversion,
    hcanonical.sources p hp n hnode⟩

/-- **Relative imports stay inside of their package.**  Take a file path in normal form below a fetched package
whose version has no slash, and a relative literal that does not lead out of the package and names a source file
of it.  Once the package has been fetched, an import of this literal in this file comes to the path of the file
that it names in the same version: this takes no question to the workspace or to anyone else, whatever is
bundled or there.  When the imports of a file that is noted as a file of a package are followed, its package has
been fetched in an earlier pass and has brought the file; so this is how all of them are followed. -/
theorem relative_imports_stay_inside (hT : T.Meet (quiet S)) (hS : ∀ s, S s → s.settings = st)
    (hd : ∀ s, S s → ∀ d r, (d, r) ∈ s.delivered → Cache.Keyed d.1 r) (hs : S s)
    (hdir : IsDirectory dir) (hpackages : st.packageDir = dir ++ "/") (hc : c.filePackages = ∅)
    (hprepare : Run.Ends T (prepare b entry content) { context := c } s (.ok rules) t v)
    (hpasses : Passes T b.shelf rules 0 [entry] t v ps left w x) :
    (∀ n ∈ ps.flatMap Passage.nodes, '/' ∉ n.key.version.toList → ∀ file target r, IsFile file →
      r.file = n.pathFor st file → NamesInside n file r.path target →
        ComesUnasked st rules w r (n.pathFor st target)) ∧
    ∀ front p back, ps = front ++ p :: back → ∃ y z y' z',
      Passes T b.shelf rules 0 [entry] t v front p.files y z ∧ Pass T b.shelf rules front.length p y z y' z' ∧
      ∀ r path?, (r, path?) ∈ p.imports → ∀ key, w.context.filePackages.get? r.file = some key →
        ∃ n ∈ front.flatMap Passage.nodes, n.key = key ∧ ∃ file text, n.files.get? file = some text ∧
          r.file = n.pathFor st file ∧ y.bundle.get? r.file = some text ∧
          ('/' ∉ key.version.toList → IsFile file → ∀ target, NamesInside n file r.path target →
            path? = some (n.pathFor st target) ∧ ComesUnasked st rules y r (n.pathFor st target)) := by
  obtain ⟨hsame, hv⟩ := (samePackages_prepare b entry content).ends hT hs hprepare
  have hfresh : t.context.filePackages = ∅ := hsame.filePackages.trans hc
  have hentry : ∀ path ∈ [entry], t.bundle.contains path = true := by
    obtain ⟨-, -, -, hbundle⟩ := ready_of_prepare hT hs hprepare
    refine List.forall_mem_singleton.mpr ?_
    rw [hbundle]
    exact Option.isSome_iff_exists.mpr ⟨content, Table.get?_insert_self _ _ _⟩
  constructor
  · intro n hn hversion file target r hfile hr h
    obtain ⟨hroot, hsources⟩ := hpasses.rooted hT hS hd hdir hpackages hv hn hversion
    exact comesUnasked_inside hroot hfile hr h hsources
  · rintro front p back rfl
    obtain ⟨mid, y, z, hfront, hback⟩ := hpasses.split
    have hz := (hfront.canonical hT hS hd hv).1
    rw [Nat.zero_add] at hback
    have hlater := hback
    cases hback with
    | @pass _ _ _ _ _ y' _ _ z' _ _ hpass hrest =>
      refine ⟨y, z, y', z', hfront, hpass, fun r path? hi key hkey => ?_⟩
      obtain ⟨hr, hfollowed⟩ := hpass.follows hT hS hz hi
      obtain ⟨n, hn, hnkey, file, text, hfile, -, hplace, htext⟩ :=
        hfront.brought_of_mem_left hT hS hv hz hlater hentry hfresh hr hkey
      refine ⟨n, hn, hnkey, file, text, hfile, hplace, htext, fun hversion hnormal target h => ?_⟩
      obtain ⟨hroot, hsources⟩ :=
        hfront.rooted hT hS hd hdir hpackages hv hn (hnkey ▸ hversion)
      refine ⟨hfollowed _ fun u hu => ?_, comesUnasked_inside hroot hnormal hplace h hsources⟩
      exact comesTo_locate_inside hS hroot hnormal hplace h (hsources.mono hu)

/-- A registry that publishes two versions of a package with the same files, in a workspace that has a file
of its own at the place of one of them. -/
def nestedWorld : Scenario.World :=
  { twinWorld with
    store := .memory (.ofFiles [(".deps/npm/p@1.0.0/lib/B.sol", "contract Other \x7b\x7d")])
    catalog := Table.empty.insert "p" ((Table.empty.insert "1.0.0"
      ((Table.empty.insert "src/A.sol" "import \"../lib/./B.sol\";").insert "lib/B.sol" "")).insert "2.0.0"
        ((Table.empty.insert "src/A.sol" "").insert "lib/B.sol" "contract B \x7b\x7d")) }

/-- A source that imports a file of the package in both versions. -/
def nestedEntry : String := "import \"p@1.0.0/src/A.sol\"; import \"p/src/A.sol\";"

/-- The build of this source, played until it returns. -/
def nestedPlay :
    Option (Crowd Service Question Question.Answer Unit (Except Fault Bundle × Context)) :=
  (started nestedWorld.service (build nestedWorld.builder nestedWorld.budget "m.sol" nestedEntry
    { target := "m.sol" })).play nestedWorld [0, 0, 0, 0, 0, 0, 1, 2, 1, 0, 0]

/-- The relative import in the first version of the package. -/
def nestedImport : Reference := ⟨".deps/npm/p@1.0.0/src/A.sol", "../lib/./B.sol", ⟨8, 22⟩⟩

/-- In this build the first version of the package is fetched, with the file that is imported. -/
lemma exists_nested_passes :
    ∃ crowd s rules t v ps left w x n content, nestedPlay = some crowd ∧
      (amongOthers nestedWorld.service.settings 0 crowd.history).Meet
        (quiet (Cache.supplying nestedWorld.service.settings Cache.Keyed).Accords) ∧
      (Cache.supplying nestedWorld.service.settings Cache.Keyed).Accords s ∧
      Run.Ends (amongOthers nestedWorld.service.settings 0 crowd.history)
        (prepare nestedWorld.builder "m.sol" nestedEntry) { context := { target := "m.sol" } } s (.ok rules)
        t v ∧
      Passes (amongOthers nestedWorld.service.settings 0 crowd.history) nestedWorld.builder.shelf rules 0
        ["m.sol"] t v ps left w x ∧
      n ∈ ps.flatMap Passage.nodes ∧ n.key = ⟨"p", "1.0.0"⟩ ∧ n.files.get? "lib/B.sol" = some content := by
  have hplay : (nestedPlay.bind fun w => lastPackages? w.history) =
      some (0, [(".deps/npm/p@1.0.0/lib/B.sol", ⟨"p", "1.0.0"⟩),
        (".deps/npm/p@1.0.0/src/A.sol", ⟨"p", "1.0.0"⟩), (".deps/npm/p@2.0.0/lib/B.sol", ⟨"p", "2.0.0"⟩),
        (".deps/npm/p@2.0.0/src/A.sol", ⟨"p", "2.0.0"⟩)]) := by
    decide +kernel
  obtain ⟨crowd, bundle, c', hcrowd, hreach, hret, hpackages⟩ := exists_returned_of_play hplay
  have hbegun : (Cache.supplying nestedWorld.service.settings Cache.Keyed).Accords nestedWorld.service :=
    ⟨[], rfl, Cache.faithful_new rfl rfl⟩
  obtain ⟨hT, s, rules, t, v, ps, left, w, x, hs, hprepare, hpasses, -, bundle?, hc⟩ :=
    exists_passes_of_returned (fun _ => spares_build _ _ _ _ _) hbegun hreach (fun _ _ => rfl) hret
  -- the file that is imported is noted as a file of the package, which has brought it
  have hnoted : w.context.filePackages.get? ".deps/npm/p@1.0.0/lib/B.sol" = some ⟨"p", "1.0.0"⟩ := by
    have hsame : c'.filePackages = w.context.filePackages := by rw [hc]
    rw [← hsame, Table.get?_eq_some_iff, hpackages]
    exact List.mem_cons_self
  obtain ⟨hfresh, hv⟩ := (samePackages_prepare nestedWorld.builder "m.sol" nestedEntry).ends hT hs hprepare
  obtain ⟨n, hn, hkey, path, content, hfile, -, hplace, -⟩ :=
    hpasses.attributes hT (fun _ => Cache.settings_of_accords) hv hfresh.filePackages _ _ hnoted
  have hpath : path = "lib/B.sol" := by
    refine PackageKey.pathFor_injective n.key nestedWorld.service.settings ?_
    rw [Node.pathFor] at hplace
    rw [← hplace, hkey]
    decide +kernel
  subst hpath
  exact ⟨crowd, s, rules, t, v, ps, left, w, x, n, content, hcrowd, hT, hs, hprepare, hpasses, hn, hkey, hfile⟩

/-- The relative import in the first version comes to the file of the first version, without a question. -/
theorem relative_imports_stay_inside_nested :
    ∃ crowd s rules t v ps left w x n, nestedPlay = some crowd ∧
      Run.Ends (amongOthers nestedWorld.service.settings 0 crowd.history)
        (prepare nestedWorld.builder "m.sol" nestedEntry) { context := { target := "m.sol" } } s (.ok rules)
        t v ∧
      Passes (amongOthers nestedWorld.service.settings 0 crowd.history) nestedWorld.builder.shelf rules 0
        ["m.sol"] t v ps left w x ∧
      n ∈ ps.flatMap Passage.nodes ∧ n.key = ⟨"p", "1.0.0"⟩ ∧
      NamesInside n "src/A.sol" nestedImport.path "lib/B.sol" ∧
      ComesUnasked nestedWorld.service.settings rules w nestedImport ".deps/npm/p@1.0.0/lib/B.sol" := by
  obtain ⟨crowd, s, rules, t, v, ps, left, w, x, n, content, hcrowd, hT, hs, hprepare, hpasses, hn, hkey,
    hfile⟩ := exists_nested_passes
  have hdir : IsDirectory ".deps/npm" := by
    intro p hp
    have hpieces : p = ".deps".toList ∨ p = "npm".toList := by simpa [pieces] using hp
    rcases hpieces with rfl | rfl <;> exact ⟨⟨by decide, by decide, by decide⟩, by decide⟩
  have hversion : '/' ∉ n.key.version.toList := by
    rw [hkey]
    decide
  have hplace : n.pathFor nestedWorld.service.settings "lib/B.sol" = ".deps/npm/p@1.0.0/lib/B.sol" := by
    rw [Node.pathFor, hkey]
    decide +kernel
  have himporting : nestedImport.file = n.pathFor nestedWorld.service.settings "src/A.sol" := by
    rw [Node.pathFor, hkey]
    decide +kernel
  have hnormal : IsFile "src/A.sol" := ⟨by decide +kernel, by decide, by decide⟩
  have hnames : NamesInside n "src/A.sol" nestedImport.path "lib/B.sol" :=
    ⟨by decide, by decide +kernel, by decide +kernel, by decide, content, hfile⟩
  obtain ⟨hinside, -⟩ := relative_imports_stay_inside hT (fun _ => Cache.settings_of_accords)
    (fun _ => Cache.good_of_accords) hs hdir rfl rfl hprepare hpasses
  have hcomes := hinside n hn hversion "src/A.sol" "lib/B.sol" nestedImport hnormal himporting hnames
  rw [hplace] at hcomes
  exact ⟨crowd, s, rules, t, v, ps, left, w, x, n, hcrowd, hprepare, hpasses, hn, hkey, hnames, hcomes⟩

end SourceBundle.Bundle
