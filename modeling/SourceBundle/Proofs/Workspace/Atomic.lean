/-
# Whether a file is written as a whole

A file is written under a temporary name first, and then takes its place.  So a write either is done, and then
the file can be read and every other file is as before, or it is refused, and then all files are as before.

There are four exceptions.  A path can be one that no file has; it is refused, but not with a fault of the
workspace.  A directory can stand at the place; then the temporary file stays.  Another file can have the
temporary name; it is lost.  And the content can have line ends that are read as other ones.
-/
import SourceBundle.Proofs.Text.Utf8
import SourceBundle.Proofs.Workspace.Directories

namespace SourceBundle.Workspace.Disk

open SourceBundle.Text

variable {d d' : Disk} {p q : Place} {name path content : String} {bytes old : List UInt8}

/-! ## Line ends -/

lemma not_mem_unifyLines (cs : List Char) : '\r' ∉ unifyLines cs := by
  fun_induction unifyLines cs with
  | case1 => exact List.not_mem_nil
  | case2 cs ih => simpa using ih
  | case3 cs _ ih => simpa using ih
  | case4 c cs _ hne ih => simpa using ⟨fun h => hne h.symm, ih⟩

lemma unifyLines_of_not_mem {cs : List Char} (h : '\r' ∉ cs) : unifyLines cs = cs := by
  fun_induction unifyLines cs with
  | case1 => rfl
  | case2 cs _ => exact absurd List.mem_cons_self h
  | case3 cs _ _ => exact absurd List.mem_cons_self h
  | case4 c cs _ _ ih => rw [ih fun hcs => h (List.mem_cons_of_mem _ hcs)]

/-- Exactly the contents without carriage returns are read as they are written. -/
lemma read_of_look (hp : d.resolve path = .ok p) (h : d.look p = .ok (.file (Utf8.encode content))) :
    d.read path = .ok content ↔ '\r' ∉ content.toList := by
  have hread : d.read path = .ok (String.ofList (unifyLines content.toList)) := by
    rw [read, hp]
    simp only [bind, Except.bind, h, Utf8.decode_encode]
    rfl
  rw [hread, Except.ok.injEq]
  constructor
  · intro hsame
    rw [← hsame, String.toList_ofList]
    exact not_mem_unifyLines _
  · intro hnone
    rw [unifyLines_of_not_mem hnone, String.ofList_toList]

/-! ## Files of changed trees -/

lemma fileAt_insert_iff (d : Disk) (p : Place) (new : List UInt8) :
    ({ d with entries := d.entries.insert p (.file new) } : Disk).FileAt q bytes ↔
      q = p ∧ bytes = new ∨ q ≠ p ∧ d.FileAt q bytes := by
  unfold FileAt
  by_cases hq : q = p
  · subst hq
    simp [eq_comm]
  · dsimp only
    rw [Table.get?_insert_ne _ (Ne.symm hq)]
    simp [hq]

lemma fileAt_erase_iff (d : Disk) (p : Place) :
    ({ d with entries := d.entries.erase p } : Disk).FileAt q bytes ↔ q ≠ p ∧ d.FileAt q bytes := by
  unfold FileAt
  by_cases hq : q = p
  · subst hq
    simp
  · dsimp only
    rw [Table.get?_erase_ne _ (Ne.symm hq)]
    simp [hq]

/-- Below a directory a file can be put where no directory stands, unless the place is too long. -/
lemma putFile_concat (hp : d.isDirectory p = true) (name : String) (bytes : List UInt8) :
    d.putFile (p ++ [name]) bytes =
      if (pathOf (p ++ [name])).utf8ByteSize ≤ pathLimit ∧ name.utf8ByteSize ≤ nameLimit then
        if d.entries.get? (p ++ [name]) = some .dir then .error .isDirectory
        else .ok { d with entries := d.entries.insert (p ++ [name]) (.file bytes) }
      else .error .tooLong := by
  rw [putFile, look_concat hp]
  by_cases hshort : (pathOf (p ++ [name])).utf8ByteSize ≤ pathLimit ∧ name.utf8ByteSize ≤ nameLimit
  · rw [if_pos hshort, if_pos hshort]
    cases d.entries.get? (p ++ [name]) with
    | none => simp [hp]
    | some e => cases e <;> simp
  · rw [if_neg hshort, if_neg hshort]

/-! ## What a write can do -/

/-- A directory stands at a place. -/
def DirAt (d : Disk) (p : Place) : Prop := p = [] ∨ d.entries.get? p = some .dir

/-- The temporary file for a place can be written: its name is not too long, no file stands where there should be
a directory, and no directory where the temporary file should be. -/
structure HasRoom (d : Disk) (p : Place) : Prop where
  fits : Fits (temporary p)
  clear : d.Clear p.dropLast
  free : d.entries.get? (temporary p) ≠ some .dir

/-- What can come of writing bytes to a place, and what it does to the files. -/
inductive Replaced (d : Disk) (p : Place) (bytes : List UInt8) : Except String Unit × Disk → Prop
  /-- There is no room for the temporary file, and nothing is done to the files. -/
  | refused {reason : String} {d' : Disk} (hroom : ¬ d.HasRoom p)
      (hfiles : ∀ q b, d'.FileAt q b ↔ d.FileAt q b) : Replaced d p bytes (.error reason, d')
  /-- A directory stands at the place, and the temporary file stays. -/
  | spilled {reason : String} {d' : Disk} (hroom : d.HasRoom p) (hdir : d.DirAt p)
      (hfiles : ∀ q b, d'.FileAt q b ↔
        q = temporary p ∧ b = bytes ∨ q ≠ temporary p ∧ d.FileAt q b) :
      Replaced d p bytes (.error reason, d')
  /-- The bytes are written, and no file has the temporary name. -/
  | done {d' : Disk} (hroom : d.HasRoom p) (hdir : ¬ d.DirAt p) (hroot : d'.root = d.root)
      (hlook : d'.look p = .ok (.file bytes))
      (hfiles : ∀ q b, q ≠ p → (d'.FileAt q b ↔ q ≠ temporary p ∧ d.FileAt q b)) :
      Replaced d p bytes (.ok (), d')

lemma not_prefix_above (hp : p ≠ []) : ¬ p <+: p.dropLast := by
  intro h
  have hpos := List.length_pos_of_ne_nil hp
  have hlength := h.length_le
  rw [List.length_dropLast] at hlength
  omega

lemma not_temporary_prefix_above (p : Place) : ¬ temporary p <+: p.dropLast := by
  have hnil : temporary p ≠ [] := by simp [temporary]
  have h := not_prefix_above hnil
  rwa [temporary, List.dropLast_concat, ← temporary] at h

/-- A directory stays where it is when an entry below it changes. -/
lemma isDirectory_congr (hp : d.isDirectory p = true)
    (h : ∀ q, q <+: p → d'.entries.get? q = d.entries.get? q) : d'.isDirectory p = true := by
  rw [isDirectory_iff] at hp ⊢
  rw [look_congr h, hp]

lemma HasRoom.fits_self (h : d.HasRoom p) (hp : p ≠ []) : Fits p := by
  have hfits := h.fits
  rw [← List.dropLast_concat_getLast hp] at hfits ⊢
  rw [temporary, List.dropLast_concat, List.getLastD_concat, fits_concat_iff] at hfits
  obtain ⟨habove, hpath, hname⟩ := hfits
  have hle : (p.getLast hp).utf8ByteSize ≤ (p.getLast hp ++ ".tmp").utf8ByteSize := by
    rw [String.utf8ByteSize_append]
    omega
  exact fits_concat_iff.mpr ⟨habove, (size_pathOf_concat_le hle).trans hpath, hle.trans hname⟩

/-- A file can be put at a place that is not too long, unless a directory stands there. -/
lemma putFile_of_fits (habove : d.isDirectory p.dropLast = true) (hnil : p ≠ []) (hfits : Fits p)
    (bytes : List UInt8) :
    d.putFile p bytes = if d.entries.get? p = some .dir then .error .isDirectory
      else .ok { d with entries := d.entries.insert p (.file bytes) } := by
  rw [← List.dropLast_concat_getLast hnil] at hfits ⊢
  rw [putFile_concat habove, if_pos (fits_concat_iff.mp hfits).2]

/-- When the bytes have taken the place and the temporary name is gone, the place has them. -/
lemma look_of_moved (habove : d.isDirectory p.dropLast = true) (hnil : p ≠ []) (hfits : Fits p)
    (hd' : d' = { d with entries := (d.entries.insert p (.file bytes)).erase (temporary p) }) :
    d'.look p = .ok (.file bytes) := by
  have hentry : d'.entries.get? p = some (.file bytes) := by
    rw [hd', Table.get?_erase_ne _ (temporary_ne p), Table.get?_insert_self]
  have habove' : d'.isDirectory p.dropLast = true := by
    refine isDirectory_congr habove fun q hq => ?_
    have hp : p ≠ q := by
      rintro rfl
      exact not_prefix_above hnil hq
    have htemp : temporary p ≠ q := by
      rintro rfl
      exact not_temporary_prefix_above p hq
    rw [hd', Table.get?_erase_ne _ htemp, Table.get?_insert_ne _ hp]
  rw [← List.dropLast_concat_getLast hnil] at hfits hentry ⊢
  rw [look_concat habove', if_pos (fits_concat_iff.mp hfits).2, hentry]

/-- Behind the temporary file it is told by what stands at the place what comes of a write. -/
lemma replaced_of_room {d₁ d₂ : Disk} (hgrown : Grown p.dropLast d d₁)
    (habove : d₁.isDirectory p.dropLast = true) (hroom : d.HasRoom p)
    (hd₂ : d₂ = { d₁ with entries := d₁.entries.insert (temporary p) (.file bytes) }) :
    Replaced d p bytes (match d₂.moveFile (temporary p) p bytes with
      | .ok d => (.ok (), d)
      | .error r => (.error (r.message (shown (temporary p) ++ " -> " ++ shown p)), d₂)) := by
  have habove₂ : d₂.isDirectory p.dropLast = true := by
    refine isDirectory_congr habove fun q hq => ?_
    rw [hd₂]
    refine Table.get?_insert_ne _ ?_ _
    rintro rfl
    exact not_temporary_prefix_above p hq
  have hfiles₂ : ∀ q b, d₂.FileAt q b ↔
      q = temporary p ∧ b = bytes ∨ q ≠ temporary p ∧ d.FileAt q b := by
    intro q b
    rw [hd₂, fileAt_insert_iff, hgrown.fileAt_iff]
  by_cases hnil : p = []
  · -- the outermost directory has no entry of its own
    have hput : d₂.putFile p bytes = .error .isDirectory := by
      rw [hnil, putFile, isDirectory_iff.mp (isDirectory_nil d₂)]
    rw [moveFile, hput]
    exact .spilled hroom (Or.inl hnil) hfiles₂
  have hfits := hroom.fits_self hnil
  have hsame : d₂.entries.get? p = d.entries.get? p := by
    rw [hd₂, Table.get?_insert_ne _ (temporary_ne p), hgrown.get?_of_not_prefix (not_prefix_above hnil)]
  rw [moveFile, putFile_of_fits habove₂ hnil hfits, hsame]
  by_cases hdir : d.entries.get? p = some .dir
  · rw [if_pos hdir]
    exact .spilled hroom (Or.inr hdir) hfiles₂
  · rw [if_neg hdir]
    refine .done hroom (fun h => h.elim hnil hdir) ?_ (look_of_moved habove₂ hnil hfits rfl)
      fun q b hq => ?_
    · rw [hd₂]
      exact hgrown.root
    · rw [fileAt_erase_iff, fileAt_insert_iff, hfiles₂]
      tauto

/-- What comes of a write, for every tree, place and content. -/
theorem replaced (d : Disk) (p : Place) (bytes : List UInt8) :
    Replaced d p bytes (d.replaceFile p bytes) := by
  obtain ⟨hok, hgrown, hdir⟩ := makeAll_exact d p.dropLast
  -- the temporary name is not on the way to its directory, so it is untouched when that is created
  have htemp : (d.makeAll p.dropLast).2.entries.get? (temporary p) = d.entries.get? (temporary p) :=
    hgrown.get?_of_not_prefix (not_temporary_prefix_above p)
  rw [replaceFile]
  cases hall : d.makeAll p.dropLast with
  | mk result d₁ =>
    rw [hall] at hok hgrown hdir htemp
    dsimp only at hok hgrown hdir htemp
    cases result with
    | error r =>
      refine .refused (fun hroom => ?_) fun q b => hgrown.fileAt_iff
      cases hok.mpr ⟨(fits_concat_iff.mp hroom.fits).1, hroom.clear⟩
    | ok u =>
      obtain ⟨hfits, hclear⟩ := hok.mp rfl
      have habove := hdir rfl
      have hput := putFile_concat habove (p.getLastD "" ++ ".tmp") bytes
      rw [← temporary] at hput
      dsimp only
      rw [hput]
      by_cases hshort : (pathOf (temporary p)).utf8ByteSize ≤ pathLimit ∧
          (p.getLastD "" ++ ".tmp").utf8ByteSize ≤ nameLimit
      · rw [if_pos hshort, htemp]
        by_cases hfree : d.entries.get? (temporary p) = some .dir
        · rw [if_pos hfree]
          exact .refused (fun hroom => hroom.free hfree) fun q b => hgrown.fileAt_iff
        · rw [if_neg hfree]
          exact replaced_of_room hgrown habove ⟨fits_concat_iff.mpr ⟨hfits, hshort⟩, hclear, hfree⟩ rfl
      · rw [if_neg hshort]
        exact .refused (fun hroom => hshort (fits_concat_iff.mp hroom.fits).2) fun q b => hgrown.fileAt_iff

/-! ## Writing as a whole -/

/-- A write is done as a whole or not at all.  If it succeeds, then the content can be read, and nothing has
happened to any other file; in particular there is no file of a temporary name that has not been there before.
If it fails, then with a fault of the workspace for the path, and nothing has happened to any file. -/
structure Atomic (d : Disk) (path content : String) : Prop where
  done : ∀ d', d.write path content = (.ok (), d') → d'.read path = .ok content ∧
    ∃ p, d.resolve path = .ok p ∧ ∀ q ≠ p, ∀ bytes, d'.FileAt q bytes ↔ d.FileAt q bytes
  refused : ∀ f d', d.write path content = (.error f, d') →
    (∃ message, f = .workspace ⟨message, path⟩) ∧ ∀ q bytes, d'.FileAt q bytes ↔ d.FileAt q bytes

/-- How a write is not done as a whole. -/
inductive Mishap (d : Disk) (path content : String) : Prop
  /-- No file can have the path. -/
  | noFile (h : d.resolve path = .error .impossiblePath ∨ d.resolve path = .ok outermost)
  /-- A directory stands at the place, and the temporary file is new or another one than before. -/
  | directory {p : Place} (hp : d.resolve path = .ok p) (hout : p ≠ outermost) (hroom : d.HasRoom p)
      (hdir : d.DirAt p) (hnew : ¬ d.FileAt (temporary p) (Utf8.encode content))
  /-- The file is written, and another file has had the temporary name. -/
  | taken {p : Place} {old : List UInt8} (hp : d.resolve path = .ok p) (hout : p ≠ outermost)
      (hroom : d.HasRoom p) (hdir : ¬ d.DirAt p) (htaken : d.FileAt (temporary p) old)
  /-- The file is written, and one of its line ends is read as another one. -/
  | lineEnd {p : Place} (hp : d.resolve path = .ok p) (hout : p ≠ outermost) (hroom : d.HasRoom p)
      (hdir : ¬ d.DirAt p) (hreturn : '\r' ∈ content.toList)

lemma mishap_iff (hp : d.resolve path = .ok p) (hout : p ≠ outermost) :
    Mishap d path content ↔ d.HasRoom p ∧
      (d.DirAt p ∧ ¬ d.FileAt (temporary p) (Utf8.encode content) ∨
        ¬ d.DirAt p ∧ ((∃ old, d.FileAt (temporary p) old) ∨ '\r' ∈ content.toList)) := by
  have hsame : ∀ {p'}, d.resolve path = .ok p' → p = p' := fun hp' =>
    Except.ok.inj (hp.symm.trans hp')
  constructor
  · intro h
    cases h with
    | noFile h =>
      rcases h with h | h
      · cases hp.symm.trans h
      · exact absurd (hsame h) hout
    | directory hp' _ hroom hdir hnew =>
      obtain rfl := hsame hp'
      exact ⟨hroom, Or.inl ⟨hdir, hnew⟩⟩
    | taken hp' _ hroom hdir htaken =>
      obtain rfl := hsame hp'
      exact ⟨hroom, Or.inr ⟨hdir, Or.inl ⟨_, htaken⟩⟩⟩
    | lineEnd hp' _ hroom hdir hreturn =>
      obtain rfl := hsame hp'
      exact ⟨hroom, Or.inr ⟨hdir, Or.inr hreturn⟩⟩
  · rintro ⟨hroom, ⟨hdir, hnew⟩ | ⟨hdir, ⟨old, htaken⟩ | hreturn⟩⟩
    · exact .directory hp hout hroom hdir hnew
    · exact .taken hp hout hroom hdir htaken
    · exact .lineEnd hp hout hroom hdir hreturn

lemma atomic_of_ok_iff (h : d.write path content = (.ok (), d')) :
    Atomic d path content ↔ d'.read path = .ok content ∧
      ∃ p, d.resolve path = .ok p ∧ ∀ q ≠ p, ∀ bytes, d'.FileAt q bytes ↔ d.FileAt q bytes := by
  constructor
  · intro hatomic
    exact hatomic.done d' h
  · intro hdone
    refine ⟨fun d'' h' => ?_, fun f d'' h' => ?_⟩
    · cases h.symm.trans h'
      exact hdone
    · cases h.symm.trans h'

lemma atomic_of_error_iff {f : Fault} (h : d.write path content = (.error f, d')) :
    Atomic d path content ↔ (∃ message, f = .workspace ⟨message, path⟩) ∧
      ∀ q bytes, d'.FileAt q bytes ↔ d.FileAt q bytes := by
  constructor
  · intro hatomic
    exact hatomic.refused f d' h
  · intro hrefused
    refine ⟨fun d'' h' => ?_, fun f' d'' h' => ?_⟩
    · cases h.symm.trans h'
    · cases h.symm.trans h'
      exact hrefused

lemma write_of_ok (hp : d.resolve path = .ok p) (hout : p ≠ outermost)
    (h : d.replaceFile p (Utf8.encode content) = (.ok (), d')) : d.write path content = (.ok (), d') := by
  simp only [write, hp, if_neg hout, h]

lemma write_of_error {reason : String} (hp : d.resolve path = .ok p) (hout : p ≠ outermost)
    (h : d.replaceFile p (Utf8.encode content) = (.error reason, d')) :
    d.write path content = (.error (.workspace ⟨s!"Cannot write {path}: {reason}", path⟩), d') := by
  simp only [write, hp, if_neg hout, h]

lemma error_ne_ok (f : Fault) : (.error f : Except Fault Unit) ≠ .ok () := by
  intro h
  cases h

/-- A path that leads nowhere inside is refused as it should be, unless no file can have it. -/
lemma atomic_iff_of_unresolved {f : Fault} (hp : d.resolve path = .error f) :
    Atomic d path content ↔ ¬ Mishap d path content := by
  have hwrite : d.write path content = (.error f, d) := by rw [write, hp]
  rw [atomic_of_error_iff hwrite]
  rcases fault_of_resolve hp with ⟨message, rfl⟩ | rfl
  · refine iff_of_true ⟨⟨message, rfl⟩, fun _ _ => Iff.rfl⟩ fun h => ?_
    cases h with
    | noFile h => rcases h with h | h <;> cases hp.symm.trans h
    | directory hp' | taken hp' | lineEnd hp' => cases hp.symm.trans hp'
  · refine iff_of_false ?_ (not_not.mpr (.noFile (Or.inl hp)))
    rintro ⟨⟨message, h⟩, -⟩
    cases h

/-- The outermost directory has no name beside which there could be a temporary one. -/
lemma not_atomic_outermost (content : String) (hp : d.resolve path = .ok outermost) :
    ¬ Atomic d path content ∧ (d.write path content).1 = .error .impossiblePath := by
  have hwrite : d.write path content = (.error .impossiblePath, d) := by
    rw [write, hp]
    exact if_pos rfl
  rw [atomic_of_error_iff hwrite, hwrite]
  refine ⟨?_, rfl⟩
  rintro ⟨⟨message, h⟩, -⟩
  cases h

/-- All files are as before exactly if the temporary file that stays has been there. -/
lemma forall_fileAt_iff_of_spilled
    (hfiles : ∀ q b, d'.FileAt q b ↔ q = temporary p ∧ b = bytes ∨ q ≠ temporary p ∧ d.FileAt q b) :
    (∀ q b, d'.FileAt q b ↔ d.FileAt q b) ↔ d.FileAt (temporary p) bytes := by
  constructor
  · intro hsame
    exact (hsame _ _).mp ((hfiles _ _).mpr (Or.inl ⟨rfl, rfl⟩))
  · intro hold q b
    rw [hfiles]
    by_cases hq : q = temporary p
    · subst hq
      constructor
      · rintro (⟨-, rfl⟩ | ⟨hne, -⟩)
        · exact hold
        · exact absurd rfl hne
      · intro hb
        have hentry := Option.some.inj (hb.symm.trans hold)
        exact Or.inl ⟨rfl, Entry.file.inj hentry⟩
    · simp [hq]

/-- All other files are as before exactly if none has had the temporary name. -/
lemma forall_fileAt_iff_of_done
    (hfiles : ∀ q b, q ≠ p → (d'.FileAt q b ↔ q ≠ temporary p ∧ d.FileAt q b)) :
    (∀ q ≠ p, ∀ b, d'.FileAt q b ↔ d.FileAt q b) ↔ ∀ old, ¬ d.FileAt (temporary p) old := by
  constructor
  · intro hsame old hold
    have hnew := (hsame _ (temporary_ne p) old).mpr hold
    exact ((hfiles _ _ (temporary_ne p)).mp hnew).1 rfl
  · intro hnone q hq b
    rw [hfiles q b hq]
    exact and_iff_right_of_imp fun hfile htemp => hnone b (htemp ▸ hfile)

/-- A write succeeds exactly for a place that a file can have, if there is room and no directory stands there;
and it is done as a whole exactly if there is no mishap. -/
lemma write_of_resolve (hp : d.resolve path = .ok p) (hout : p ≠ outermost) (content : String) :
    (Atomic d path content ↔ ¬ Mishap d path content) ∧
      ((d.write path content).1 = .ok () ↔ d.HasRoom p ∧ ¬ d.DirAt p) := by
  rw [mishap_iff hp hout]
  have hreplaced := replaced d p (Utf8.encode content)
  cases hres : d.replaceFile p (Utf8.encode content) with
  | mk result d' =>
    rw [hres] at hreplaced
    cases hreplaced with
    | refused hroom hfiles =>
      have hwrite := write_of_error hp hout hres
      rw [atomic_of_error_iff hwrite, hwrite]
      exact ⟨iff_of_true ⟨⟨_, rfl⟩, hfiles⟩ fun h => hroom h.1,
        iff_of_false (error_ne_ok _) fun h => hroom h.1⟩
    | spilled hroom hdir hfiles =>
      have hwrite := write_of_error hp hout hres
      rw [atomic_of_error_iff hwrite, hwrite]
      refine ⟨?_, iff_of_false (error_ne_ok _) fun h => h.2 hdir⟩
      rw [forall_fileAt_iff_of_spilled hfiles, and_iff_right ⟨_, rfl⟩]
      simp [hroom, hdir]
    | done hroom hdir hroot hlook hfiles =>
      have hwrite := write_of_ok hp hout hres
      rw [atomic_of_ok_iff hwrite, hwrite]
      refine ⟨?_, iff_of_true rfl ⟨hroom, hdir⟩⟩
      rw [read_of_look ((resolve_congr hroot path).trans hp) hlook, hp]
      simp only [Except.ok.injEq, exists_eq_left']
      rw [forall_fileAt_iff_of_done hfiles]
      simp [hroom, hdir, and_comm]

/-- A workspace with one directory in it. -/
def shelved : Disk :=
  ⟨outermost ++ ["work"], Table.ofList [(outermost, .dir), (outermost ++ ["work"], .dir),
    (outermost ++ ["work", "lib"], .dir)]⟩

lemma hasRoom_shelved : shelved.HasRoom (outermost ++ ["work", "lib"]) where
  fits := ⟨by decide +kernel, by decide +kernel⟩
  clear := clear_of_isDirectory (by decide +kernel)
  free := by decide +kernel

end SourceBundle.Workspace.Disk
