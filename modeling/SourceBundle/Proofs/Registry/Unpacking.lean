/-
# What is unpacked of a package

A member of an archive is kept under the path that follows the first directory of its name, if that path has an
allowed ending and no two dots.  So whatever the names in an archive are, every path that is unpacked lies
strictly below the directory of the package, and the content under it is that of the last member that is kept
under this path and is a text.
-/
import Mathlib.Data.List.TakeWhile
import SourceBundle.Proofs.PackageKey
import SourceBundle.Proofs.Path.Nested
import SourceBundle.Proofs.Table
import SourceBundle.Registry.Unpack

namespace SourceBundle.Registry

open SourceBundle.Archive SourceBundle.Text

variable {name cs : List Char} {path content : String} {m : Tar.Member} {ms : List Tar.Member} {u : Unpacked}

/-! ## Names of members -/

/-- A member with a name is kept under a path: dots and slashes in front do not count, then comes a directory,
and then the path, which does not lead upwards and has one of the endings. -/
structure KeptAs (name path : List Char) : Prop where
  parts : ∃ lead top, name = lead ++ (top ++ '/' :: path) ∧ (∀ c ∈ lead, c = '.' ∨ c = '/') ∧
    (∃ c, top.head? = some c ∧ c ≠ '.') ∧ '/' ∉ top
  noDots : ['.', '.'] ∉ pieces '/' path
  ending : ∃ e ∈ keptEndings, e.toList <:+ path

/-- The endings are no dots, and there is no slash in them. -/
lemma keptEndings_plain : ∀ e ∈ keptEndings, '/' ∉ e.toList ∧ 3 ≤ e.toList.length := by decide

lemma KeptAs.of_keptPath? (h : keptPath? name = some cs) : KeptAs name cs := by
  rw [keptPath?] at h
  cases hcut : cutFirst '/' (name.dropWhile fun c => c == '.' || c == '/') with
  | mk top rest? =>
    rw [hcut] at h
    cases rest? with
    | none => exact nomatch h
    | some path =>
      dsimp only at h
      split at h
      · contradiction
      · next hgood =>
        simp only [Bool.or_eq_true, not_or, List.contains_iff_mem] at hgood
        split at h
        · next hends =>
          obtain rfl := Option.some.inj h
          have hparts := append_cutFirst '/' (name.dropWhile fun c => c == '.' || c == '/')
          have htop := notMem_cutFirst '/' (name.dropWhile fun c => c == '.' || c == '/')
          have hhead := List.head?_dropWhile_not (fun c => c == '.' || c == '/') name
          rw [hcut] at hparts htop
          simp only [Option.elim_some] at hparts
          rw [← hparts] at hhead
          refine ⟨⟨name.takeWhile fun c => c == '.' || c == '/', top, ?_, fun c hc => ?_, ?_, htop⟩,
            hgood.2, ?_⟩
          · rw [hparts, List.takeWhile_append_dropWhile]
          · simpa using List.mem_takeWhile_imp hc
          · cases top with
            | nil => simp at hhead
            | cons c top => exact ⟨c, rfl, by simp at hhead; exact hhead.1⟩
          · simpa [endsWith_iff] using hends
        · contradiction

lemma KeptAs.keptPath? (h : KeptAs name cs) : keptPath? name = some cs := by
  obtain ⟨⟨lead, top, rfl, hlead, ⟨c, hc, hdot⟩, htop⟩, hdots, e, he, hends⟩ := h
  obtain ⟨d, rest, rfl⟩ : ∃ d rest, top = d :: rest := by
    cases top with
    | nil => exact nomatch hc
    | cons d rest => exact ⟨d, rest, rfl⟩
  obtain rfl : d = c := Option.some.inj hc
  have hslash : d ≠ '/' := fun heq => htop (heq ▸ List.mem_cons_self)
  have hdrop : (lead ++ (d :: rest ++ '/' :: cs)).dropWhile (fun c => c == '.' || c == '/') =
      d :: rest ++ '/' :: cs := by
    rw [List.dropWhile_append_of_pos fun c hc => by simpa using hlead c hc]
    exact List.dropWhile_cons_of_neg (by simp [hdot, hslash])
  have hne : cs ≠ [] := by
    rintro rfl
    have hlength := hends.length_le
    have hplain := (keptEndings_plain e he).2
    rw [List.length_nil] at hlength
    omega
  have hany : (keptEndings.any fun e => endsWith e.toList cs) = true :=
    List.any_eq_true.mpr ⟨e, he, endsWith_iff.mpr hends⟩
  rw [Registry.keptPath?, hdrop, cutFirst_append htop]
  simp [hne, hdots, hany]

/-- The last component of a path that is kept is a name. -/
lemma KeptAs.exists_isName (h : KeptAs name cs) : ∃ p ∈ pieces '/' cs, Path.IsName p := by
  obtain ⟨e, he, front, rfl⟩ := h.ending
  obtain ⟨hslash, hlength⟩ := keptEndings_plain e he
  obtain ⟨ps, p, hps⟩ := exists_pieces_append hslash front
  have hmem : p ++ e.toList ∈ pieces '/' (front ++ e.toList) := by simp [hps]
  have hlong : ∀ q : List Char, q.length < 3 → p ++ e.toList ≠ q := by
    rintro q hq rfl
    rw [List.length_append] at hq
    omega
  exact ⟨_, hmem, ⟨hlong _ (by decide), hlong _ (by decide), not_mem_pieces hmem⟩, hlong _ (by decide)⟩

/-! ## Members -/

/-- A member is kept under a path with a content: it is a regular file and a text. -/
structure Keeps (m : Tar.Member) (path content : String) : Prop where
  isFile : m.isFile = true
  named : KeptAs (Utf8.decodeLossy m.name).toList path.toList
  decoded : Utf8.decode m.content = .ok content

/-- The last of the members that are kept under a path has this content. -/
def LastKept (ms : List Tar.Member) (path content : String) : Prop :=
  ∃ before m after, ms = before ++ m :: after ∧ Keeps m path content ∧
    ∀ m' ∈ after, ∀ content', ¬ Keeps m' path content'

lemma get?_member_of_keeps (h : Keeps m path content) : (u.member m).files.get? path = some content := by
  simp [Unpacked.member, h.isFile, h.named.keptPath?, h.decoded]

lemma get?_member_of_not_keeps (h : ∀ content, ¬ Keeps m path content) :
    (u.member m).files.get? path = u.files.get? path := by
  rw [Unpacked.member]
  split
  · rfl
  · next hfile =>
    split
    · rfl
    · next path' hpath =>
      split
      · next content hdecoded =>
        refine Table.get?_insert_ne _ ?_ _
        rintro rfl
        refine h content ⟨by simpa using hfile, ?_, hdecoded⟩
        rw [String.toList_ofList]
        exact .of_keptPath? hpath
      · rfl

lemma not_lastKept_nil : ¬ LastKept [] path content := by
  rintro ⟨before, m, after, hnil, -⟩
  simp at hnil

lemma lastKept_concat : LastKept (ms ++ [m]) path content ↔
    Keeps m path content ∨ (∀ content', ¬ Keeps m path content') ∧ LastKept ms path content := by
  constructor
  · rintro ⟨before, m', after, hms, hkeeps, hafter⟩
    rcases List.eq_nil_or_concat after with rfl | ⟨after, m'', rfl⟩
    · obtain ⟨-, hm⟩ := List.append_inj' hms rfl
      obtain rfl : m = m' := by simpa using hm
      exact .inl hkeeps
    · rw [List.concat_eq_append] at hms hafter
      obtain ⟨rfl, hm⟩ : ms = before ++ m' :: after ∧ [m] = [m''] :=
        List.append_inj' (by simpa using hms) rfl
      obtain rfl : m = m'' := by simpa using hm
      refine .inr ⟨hafter m (by simp), before, m', after, rfl, hkeeps, fun n hn => ?_⟩
      exact hafter n (by simp [hn])
  · rintro (hkeeps | ⟨hnot, before, m', after, rfl, hkeeps, hafter⟩)
    · exact ⟨ms, m, [], rfl, hkeeps, nofun⟩
    · refine ⟨before, m', after ++ [m], by simp, hkeeps, fun n hn => ?_⟩
      rcases List.mem_append.mp hn with hn | hn
      · exact hafter n hn
      · rw [List.mem_singleton.mp hn]
        exact hnot

lemma Keeps.content_eq {content' : String} (h : Keeps m path content) (h' : Keeps m path content') :
    content = content' := by
  have hsame := h.decoded.symm.trans h'.decoded
  exact Except.ok.inj hsame

/-- Under each path stands the content of the last member that is kept there. -/
lemma get?_foldl_member (ms : List Tar.Member) (path content : String) :
    (ms.foldl Unpacked.member {}).files.get? path = some content ↔ LastKept ms path content := by
  induction ms using List.reverseRecOn with
  | nil => exact iff_of_false nofun not_lastKept_nil
  | append_singleton ms m ih =>
    rw [List.foldl_append, List.foldl_cons, List.foldl_nil, lastKept_concat]
    by_cases hkeeps : ∃ content', Keeps m path content'
    · obtain ⟨content', hkeeps⟩ := hkeeps
      rw [get?_member_of_keeps hkeeps, Option.some.injEq]
      constructor
      · rintro rfl
        exact .inl hkeeps
      · rintro (hlast | ⟨hnot, -⟩)
        · exact hkeeps.content_eq hlast
        · exact absurd hkeeps (hnot content')
    · have hnot : ∀ content', ¬ Keeps m path content' := fun content' h => hkeeps ⟨content', h⟩
      rw [get?_member_of_not_keeps hnot, ih]
      simp [hnot]

/-! ## Packages -/

/-- The directory of a package ends with a name, which holds the at sign. -/
lemma exists_pieces_root (st : Settings) {k : PackageKey} (h : '/' ∉ k.version.toList) :
    ∃ front last, pieces '/' (k.root st).toList = front ++ [last] ∧ Path.IsName last := by
  have hslash : '/' ∉ '@' :: k.version.toList := by simp [h]
  obtain ⟨front, p, hpieces⟩ := exists_pieces_append hslash (st.packageDir.toList ++ k.name.toList)
  rw [List.append_assoc, ← PackageKey.toList_render, ← PackageKey.toList_root] at hpieces
  have hmem : p ++ '@' :: k.version.toList ∈ pieces '/' (k.root st).toList := by simp [hpieces]
  have hat : ∀ q : List Char, '@' ∉ q → p ++ '@' :: k.version.toList ≠ q := by
    rintro q hq rfl
    exact hq (by simp)
  exact ⟨front, _, hpieces, ⟨hat _ (by decide), hat _ (by decide), not_mem_pieces hmem⟩, hat _ (by decide)⟩

/-- A path that is kept lies strictly below the directory of every package. -/
lemma KeptAs.strictlyBelow (st : Settings) {k : PackageKey} (hversion : '/' ∉ k.version.toList)
    (h : KeptAs name path.toList) : Path.StrictlyBelow (k.root st) (k.pathFor st path) := by
  obtain ⟨front, last, hroot, hlast⟩ := exists_pieces_root st hversion
  have hne : path ≠ "" := by
    rintro rfl
    obtain ⟨p, hp, hname⟩ := h.exists_isName
    exact hname.nonempty (by simpa [pieces] using hp)
  rw [PackageKey.pathFor_of_ne hne]
  exact Path.strictlyBelow_nested hroot hlast h.noDots h.exists_isName

/-- A file as it stands in an archive, with its name and its content. -/
def archived (name content : String) : List UInt8 :=
  let padded (length : Nat) (bytes : List UInt8) := bytes ++ List.replicate (length - bytes.length) 0
  let octal (n : Nat) : List UInt8 := (Nat.toDigits 8 n).map fun c => UInt8.ofNat c.toNat
  let bytes := Utf8.encode content
  let front := padded 136 (padded 124 (Utf8.encode name) ++ octal bytes.length) ++ List.replicate 12 0
  let back := 48 :: List.replicate 355 0
  let sum := Tar.checksum Tar.unsigned (front ++ List.replicate 8 0 ++ back)
  front ++ padded 8 (octal sum.toNat) ++ back ++ padded (Tar.paddedSize bytes.length) bytes

/-- An archive with a file that is kept twice under one path, a file that leads upwards, and one beside the
directory of the package. -/
def hostile : List UInt8 :=
  archived "package/a/./b.sol" "x" ++ archived "package/../c.sol" "y" ++ archived "d.sol" "z" ++
    archived "../.././package/a/./b.sol" "w"

end SourceBundle.Registry
