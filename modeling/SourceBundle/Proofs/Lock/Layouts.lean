/-
# The layouts of a document

One tree of installed packages can be laid out in two ways: nested, each package inside the one that it is installed
in, or flat, as a list of places.  The outermost packages are read alike from both, each with its version and without a
range, and nothing is read of what is installed inside another package.

In the flat layout the depth of a package shows in its place only: below the root, nothing but the name follows on the
directory, and deeper, the directory comes a second time.
-/
import Mathlib.Data.List.Infix
import Mathlib.Data.List.Perm.Basic
import SourceBundle.Lock.Tree
import SourceBundle.Proofs.Table
import SourceBundle.Proofs.Text.Cut

namespace SourceBundle.Lock

open SourceBundle.Text

/-! ## Installed packages -/

/-- An installed package: its version, and the packages installed inside it, by their names. -/
inductive Install
  /-- A package with what is installed inside it. -/
  | package (version : String) (inside : List (String × Install))

namespace Install

/-- The version of a package. -/
def version : Install → String
  | package version _ => version

/-- The places of a package and of all that is installed inside it, with their versions. -/
def places (place : String) : Install → List (String × String)
  | package version inside => (place, version) :: placesIn (place ++ "/") inside
where
  /-- The places of the packages installed in a directory. -/
  placesIn (dir : String) : List (String × Install) → List (String × String)
    | [] => []
    | (name, i) :: rest => i.places (dir ++ "node_modules/" ++ name) ++ placesIn dir rest

end Install

open Install.places (placesIn)

/-- A name of a package: it is not empty, and does not hold the directory of packages between slashes. -/
structure IsName (name : String) : Prop where
  nonempty : name ≠ ""
  single : ¬ "/node_modules/".toList <:+: name.toList

/-- Packages are installed at the root: they have names, no two the same. -/
structure AtRoot (installs : List (String × Install)) : Prop where
  names : ∀ p ∈ installs, IsName p.1
  distinct : (installs.map Prod.fst).Nodup

/-! ## Layouts -/

/-- A description gives a version. -/
def Describes (version : String) (description : Json) : Prop :=
  description.member? "version" = some (.text version)

/-- Descriptions by name, each with those of the packages inside it. -/
inductive Nests : List (String × Install) → List (String × Json) → Prop
  /-- There are no packages. -/
  | nil : Nests [] []
  /-- One more package. -/
  | cons {name version : String} {inside rest : List (String × Install)} {description : Json}
      {ms : List (String × Json)} (describes : Describes version description)
      (inner : Nests inside (((description.member? "dependencies").bind Json.members?).getD []))
      (others : Nests rest ms) :
      Nests ((name, .package version inside) :: rest) ((name, description) :: ms)

/-- Descriptions by place, in any order, with one of the root. -/
def Flattens (installs : List (String × Install)) (ms : List (String × Json)) : Prop :=
  ∃ root ms', ms.Perm (("", root) :: ms') ∧
    List.Forall₂ (fun p m => p.1 = m.1 ∧ Describes p.2 m.2) (placesIn "" installs) ms'

/-- A document in the nested layout. -/
def IsNested (installs : List (String × Install)) (content : String) : Prop :=
  ∃ ms nested, Json.read content = .ok (.object ms) ∧ Table.look "packages" ms = none ∧
    Table.look "dependencies" ms = some (.object nested) ∧ Nests installs nested

/-- A document in the flat layout; it may hold the nested one, too. -/
def IsFlat (installs : List (String × Install)) (content : String) : Prop :=
  ∃ ms flat, Json.read content = .ok (.object ms) ∧ Table.look "packages" ms = some (.object flat) ∧
    Flattens installs flat ∧
    (Table.look "dependencies" ms = none ∨
      ∃ nested, Table.look "dependencies" ms = some (.object nested) ∧ Nests installs nested)

/-- What the lockfile of some packages holds for a name. -/
def locked (installs : List (String × Install)) (name : String) : Option (List LockEntry) :=
  (Table.look name installs).map fun i => [⟨none, i.version⟩]

/-! ## Collecting versions -/

variable {name? : String → Option String} {ms : List (String × Json)} {installs : List (String × Install)}

/-- The name and the version that a description pins. -/
def pinned? (name? : String → Option String) (m : String × Json) : Option (String × String) :=
  (name? m.1).bind fun name => (versionIn? m.2).map (name, ·)

/-- The outermost packages with their versions. -/
def pins (installs : List (String × Install)) : List (String × String) :=
  installs.map fun p => (p.1, p.2.version)

lemma collect_eq (name? : String → Option String) (ms : List (String × Json)) :
    collect name? ms =
      (ms.filterMap (pinned? name?)).foldl (fun lock p => lock.add p.1 ⟨none, p.2⟩) ∅ := by
  rw [collect]
  generalize (∅ : Lockfile) = lock
  induction ms generalizing lock with
  | nil => rfl
  | cons m ms ih =>
    obtain ⟨label, description⟩ := m
    rw [List.foldl_cons, ih, List.filterMap_cons, pinned?]
    dsimp only
    cases name? label with
    | none => rfl
    | some name => cases versionIn? description <;> rfl

/-- Pins of different packages make up a table of single entries. -/
lemma foldl_add {ps : List (String × String)} {lock : Lockfile} (hd : (ps.map Prod.fst).Nodup)
    (hnew : ∀ p ∈ ps, lock.get? p.1 = none) :
    ps.foldl (fun lock p => lock.add p.1 ⟨none, p.2⟩) lock =
      (ps.map fun p => (p.1, [LockEntry.mk none p.2])).foldl (fun t e => t.insert e.1 e.2) lock := by
  induction ps generalizing lock with
  | nil => rfl
  | cons p ps ih =>
    rw [List.map_cons, List.nodup_cons] at hd
    have hadd : lock.add p.1 ⟨none, p.2⟩ = lock.insert p.1 [⟨none, p.2⟩] := by
      rw [Lockfile.add, Table.update, hnew p List.mem_cons_self]
      rfl
    rw [List.foldl_cons, List.map_cons, List.foldl_cons, hadd]
    refine ih hd.2 fun q hq => ?_
    have hne : p.1 ≠ q.1 := fun heq => hd.1 (heq ▸ List.mem_map_of_mem hq)
    rw [Table.get?_insert_ne _ hne]
    exact hnew q (List.mem_cons_of_mem p hq)

/-- Descriptions that pin just the outermost packages give their lockfile. -/
lemma get?_collect (hroot : AtRoot installs) (h : (ms.filterMap (pinned? name?)).Perm (pins installs))
    (name : String) : (collect name? ms).get? name = locked installs name := by
  have hfst : (pins installs).map Prod.fst = installs.map Prod.fst := by simp [pins, Function.comp_def]
  have hd : ((ms.filterMap (pinned? name?)).map Prod.fst).Nodup := by
    rw [(h.map Prod.fst).nodup_iff, hfst]
    exact hroot.distinct
  have hentries : ((ms.filterMap (pinned? name?)).map fun p => (p.1, [LockEntry.mk none p.2])).map Prod.fst =
      (ms.filterMap (pinned? name?)).map Prod.fst := by simp [Function.comp_def]
  rw [collect_eq, foldl_add hd (fun _ _ => rfl), Table.get?_foldl_insert (hentries ▸ hd), Table.get?_empty,
    Option.or_none, Table.look_map (fun version => [LockEntry.mk none version]),
    Table.look_perm h (hfst ▸ hroot.distinct), pins, Table.look_map Install.version, Option.map_map]
  rfl

/-! ## The nested layout -/

lemma Describes.versionIn? {version : String} {description : Json} (h : Describes version description) :
    versionIn? description = some version := by
  rw [Lock.versionIn?, h]
  rfl

lemma Nests.filterMap_eq (h : Nests installs ms) : ms.filterMap (pinned? some) = pins installs := by
  induction h with
  | nil => rfl
  | cons hdescribes _ _ _ ih =>
    rw [List.filterMap_cons, ih, pinned?, hdescribes.versionIn?]
    rfl

/-! ## The flat layout -/

lemma nameAt?_append (rest : String) :
    nameAt? ("node_modules/" ++ rest) =
      if rest = "" ∨ "/node_modules/".toList <:+: rest.toList then none else some rest := by
  have hdir : ("node_modules/" ++ rest).toList = installDir ++ rest.toList := String.toList_append
  have hword : '/' :: installDir = "/node_modules/".toList := rfl
  have hempty : rest.toList.isEmpty = true ↔ rest = "" := by
    rw [List.isEmpty_iff, String.toList_eq_nil_iff]
  rw [nameAt?, hdir, dropPrefix?_append, hword]
  simp only [Option.bind_eq_bind, Option.bind_some, Bool.or_eq_true, hempty, isSome_splitFirst?,
    String.ofList_toList]
  split <;> rfl

/-- Below the root stands a name. -/
lemma IsName.nameAt? {name : String} (h : IsName name) : nameAt? ("node_modules/" ++ name) = some name := by
  rw [nameAt?_append, if_neg (not_or.mpr ⟨h.nonempty, h.single⟩)]

/-- Inside another package stands no name. -/
lemma nameAt?_inside (name rest : String) :
    nameAt? ("node_modules/" ++ name ++ "/" ++ "node_modules/" ++ rest) = none := by
  have hassoc : "node_modules/" ++ name ++ "/" ++ "node_modules/" ++ rest =
      "node_modules/" ++ (name ++ "/node_modules/" ++ rest) := by
    apply String.toList_injective
    simp [String.toList_append]
  rw [hassoc, nameAt?_append, if_pos]
  refine .inr ⟨name.toList, rest.toList, ?_⟩
  simp [String.toList_append]

mutual

/-- All of a package stands at its place or below. -/
lemma Install.exists_append (i : Install) (place : String) :
    ∀ p ∈ i.places place, ∃ rest, p.1 = place ++ rest := by
  cases i with
  | package version inside =>
    intro p hp
    rw [Install.places, List.mem_cons] at hp
    rcases hp with rfl | hp
    · exact ⟨"", by simp⟩
    · obtain ⟨rest, hrest⟩ := exists_append_of_mem_placesIn inside (place ++ "/") p hp
      exact ⟨"/" ++ "node_modules/" ++ rest, by simp [hrest, String.append_assoc]⟩

/-- What is installed in a directory stands in its directory of packages. -/
lemma exists_append_of_mem_placesIn (installs : List (String × Install)) (dir : String) :
    ∀ p ∈ placesIn dir installs, ∃ rest, p.1 = dir ++ "node_modules/" ++ rest := by
  match installs with
  | [] => exact nofun
  | (name, i) :: installs =>
    intro p hp
    rw [placesIn, List.mem_append] at hp
    rcases hp with hp | hp
    · obtain ⟨rest, hrest⟩ := i.exists_append (dir ++ "node_modules/" ++ name) p hp
      exact ⟨name ++ rest, by simp [hrest, String.append_assoc]⟩
    · exact exists_append_of_mem_placesIn installs dir p hp

end

/-- The name and the version of a place. -/
def outermost? (p : String × String) : Option (String × String) := (nameAt? p.1).map (·, p.2)

/-- Of all places, those of the outermost packages count. -/
lemma filterMap_placesIn (hnames : ∀ p ∈ installs, IsName p.1) :
    (placesIn "" installs).filterMap outermost? = pins installs := by
  induction installs with
  | nil => rfl
  | cons p installs ih =>
    obtain ⟨name, version, inside⟩ := p
    obtain ⟨hname, hinstalls⟩ := List.forall_mem_cons.mp hnames
    have hinside : ∀ p ∈ placesIn ("node_modules/" ++ name ++ "/") inside, outermost? p = none := by
      intro p hp
      obtain ⟨rest, hrest⟩ := exists_append_of_mem_placesIn inside _ p hp
      rw [outermost?, hrest, nameAt?_inside]
      rfl
    rw [placesIn, Install.places, String.empty_append, List.filterMap_append, List.filterMap_cons,
      List.filterMap_eq_nil_iff.mpr hinside, ih hinstalls, outermost?, hname.nameAt?]
    rfl

lemma Flattens.filterMap_perm (hnames : ∀ p ∈ installs, IsName p.1) (h : Flattens installs ms) :
    (ms.filterMap (pinned? nameAt?)).Perm (pins installs) := by
  obtain ⟨root, ms', hperm, hplaces⟩ := h
  have hpinned : ms'.filterMap (pinned? nameAt?) = (placesIn "" installs).filterMap outermost? := by
    clear hperm
    generalize placesIn "" installs = places at hplaces
    induction hplaces with
    | nil => rfl
    | @cons p m _ _ hplace _ ih =>
      rw [List.filterMap_cons, List.filterMap_cons, ih, pinned?, outermost?, hplace.1, hplace.2.versionIn?]
      cases nameAt? m.1 <;> rfl
  have hnone : pinned? nameAt? ("", root) = none := rfl
  have hfiltered := hperm.filterMap (pinned? nameAt?)
  rwa [List.filterMap_cons, hnone, hpinned, filterMap_placesIn hnames] at hfiltered

/-! ## Documents -/

lemma ofDocument_of_read {content : String} (h : Json.read content = .ok (.object ms)) :
    ofDocument content = .ok (ofMembers ms) := by
  rw [ofDocument, readObject, h]
  rfl

/-- The nested layout alone is read. -/
lemma ofMembers_nested {nested : List (String × Json)} (hpackages : Table.look "packages" ms = none)
    (hnested : Table.look "dependencies" ms = some (.object nested)) : ofMembers ms = collect some nested := by
  rw [ofMembers, hpackages, hnested]
  rfl

/-- The flat layout is read, unless it holds no package; then the nested one holds none either. -/
lemma get?_ofMembers_flat {flat : List (String × Json)} (hroot : AtRoot installs)
    (hflat : Table.look "packages" ms = some (.object flat)) (hplaces : Flattens installs flat)
    (hnested : Table.look "dependencies" ms = none ∨
      ∃ nested, Table.look "dependencies" ms = some (.object nested) ∧ Nests installs nested)
    (name : String) : (ofMembers ms).get? name = locked installs name := by
  have hplaced := get?_collect hroot (hplaces.filterMap_perm hroot.names)
  have hmembers : ofMembers ms =
      if (collect nameAt? flat).isEmpty then
        collect some (((Table.look "dependencies" ms).bind Json.members?).getD [])
      else collect nameAt? flat := by
    rw [ofMembers, hflat]
    rfl
  rw [hmembers]
  split
  · next hempty =>
    rcases hnested with hnone | ⟨nested, hsome, hnests⟩
    · have hentries : (collect nameAt? flat).entries = [] := List.isEmpty_iff.mp hempty
      rw [hnone, ← hplaced name, Table.get?, Table.get?, hentries]
      rfl
    · rw [hsome]
      exact get?_collect hroot (.of_eq hnests.filterMap_eq) name
  · exact hplaced name

/-- **Layouts.**  From a document in the nested layout and from one in the flat layout of the same packages the same
lockfile is read: it holds the outermost packages, each with one entry, which gives the version and no range,
and nothing else. -/
theorem layouts_read_alike {nested flat : String} (hroot : AtRoot installs) (hnested : IsNested installs nested)
    (hflat : IsFlat installs flat) :
    ∃ lock lock', ofDocument nested = .ok lock ∧ ofDocument flat = .ok lock' ∧
      ∀ name, lock.get? name = locked installs name ∧ lock'.get? name = locked installs name := by
  obtain ⟨ms, ms', hread, hpackages, hdependencies, hnests⟩ := hnested
  obtain ⟨ns, ns', hread', hpackages', hplaces, hdependencies'⟩ := hflat
  refine ⟨_, _, ofDocument_of_read hread, ofDocument_of_read hread', fun name => ⟨?_, ?_⟩⟩
  · rw [ofMembers_nested hpackages hdependencies]
    exact get?_collect hroot (.of_eq hnests.filterMap_eq) name
  · exact get?_ofMembers_flat hroot hpackages' hplaces hdependencies' name

/-- A package with one inside it. -/
def pair : List (String × Install) := [("a", .package "1" [("b", .package "2" [])])]

/-- The nested layout of a package with one inside it. -/
def pairNested : String :=
  "\x7b\"dependencies\":\x7b\"a\":\x7b\"version\":\"1\",\"dependencies\":\x7b\"b\":\x7b\"version\":\"2\"\x7d\x7d\x7d\x7d\x7d"

/-- The flat layout of a package with one inside it. -/
def pairFlat : String :=
  "\x7b\"packages\":\x7b\"\":\x7b\x7d,\"node_modules/a/node_modules/b\":\x7b\"version\":\"2\"\x7d," ++
    "\"node_modules/a\":\x7b\"version\":\"1\"\x7d\x7d\x7d"

theorem layouts_read_alike_pair :
    AtRoot pair ∧ IsNested pair pairNested ∧ IsFlat pair pairFlat ∧
      ∃ lock lock', ofDocument pairNested = .ok lock ∧ ofDocument pairFlat = .ok lock' ∧
        lock.get? "a" = some [⟨none, "1"⟩] ∧ lock'.get? "b" = none := by
  have hread : Json.read pairNested = .ok (.object [("dependencies", .object [("a", .object
      [("version", .text "1"), ("dependencies", .object [("b", .object [("version", .text "2")])])])])]) := by
    cbv
  have hread' : Json.read pairFlat = .ok (.object [("packages", .object [("", .object []),
      ("node_modules/a/node_modules/b", .object [("version", .text "2")]),
      ("node_modules/a", .object [("version", .text "1")])])]) := by
    cbv
  have hroot : AtRoot pair := ⟨List.forall_mem_singleton.mpr ⟨by decide, by decide⟩, by decide⟩
  have hnested : IsNested pair pairNested := ⟨_, _, hread, rfl, rfl, .cons rfl (.cons rfl .nil .nil) .nil⟩
  have hplaces : Flattens pair [("", .object []),
      ("node_modules/a/node_modules/b", .object [("version", .text "2")]),
      ("node_modules/a", .object [("version", .text "1")])] := by
    refine ⟨_, _, .cons _ (.swap _ _ _), ?_⟩
    exact .cons ⟨by decide, rfl⟩ (.cons ⟨by decide, rfl⟩ .nil)
  have hflat : IsFlat pair pairFlat := ⟨_, _, hread', rfl, hplaces, .inl rfl⟩
  obtain ⟨lock, lock', hlock, hlock', hboth⟩ := layouts_read_alike hroot hnested hflat
  exact ⟨hroot, hnested, hflat, lock, lock', hlock, hlock', (hboth "a").1, (hboth "b").2⟩

end SourceBundle.Lock
