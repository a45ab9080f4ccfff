/-
# A workspace changes nothing outside its directory

The places of a change lie below the directory of the workspace: the directories that are created,
the file that is written and the temporary file beside it.  One path is different.  When it leads
to the directory itself, then the temporary file stands beside that directory, and it stays there,
because a file cannot take the place of a directory.
-/
import SourceBundle.Proofs.Table
import SourceBundle.Workspace.Disk
import Mathlib.Data.List.Infix

namespace SourceBundle.Workspace.Disk

open SourceBundle.Text

variable {d d' d'' : Disk} {p q names : List String} {bytes : List UInt8} {path content : String}

/-- A place inside a directory. -/
def Below (root p : Place) : Prop := root <+: p ∧ p ≠ root

instance (root p : Place) : Decidable (Below root p) := inferInstanceAs (Decidable (_ ∧ _))

/-- Two trees with the same workspace differ inside its directory only. -/
structure Confined (d d' : Disk) : Prop where
  /-- The workspace is the same. -/
  root : d'.root = d.root
  /-- At a place that is not inside its directory stands the same, which may be nothing. -/
  outside : ∀ p, ¬ Below d.root p → d'.entries.get? p = d.entries.get? p

/-- The workspace is a directory of the tree. -/
structure Rooted (d : Disk) : Prop where
  /-- It has a name. -/
  named : d.root ≠ []
  /-- A directory stands there. -/
  directory : d.isDirectory d.root = true

/-- A change of a workspace. -/
inductive Change
  /-- A directory is created. -/
  | mkdir (path : String)
  /-- A file is written. -/
  | write (path content : String)
deriving DecidableEq, Repr

namespace Change

/-- The path that a change is asked for. -/
def target : Change → String
  | mkdir path => path
  | write path _ => path

/-- Do a change. -/
def perform (d : Disk) : Change → Except Fault Unit × Disk
  | mkdir path => d.mkdir path
  | write path content => d.write path content

end Change

/-- A file is written to the directory of the workspace itself, and the place of the temporary file
beside it is free, or taken by a file of another content. -/
def Spills (d : Disk) : Change → Prop
  | .mkdir _ => False
  | .write path content =>
    d.resolve path = .ok d.root ∧ d.root ≠ outermost ∧
      (d.look (temporary d.root) = .error .notFound ∨
        ∃ bytes, d.look (temporary d.root) = .ok (.file bytes) ∧ bytes ≠ Utf8.encode content)

/-! ## Looking -/

@[simp] lemma lookFrom_nil (d : Disk) (here : Place) (e : Entry) : d.lookFrom here e [] = .ok e := by
  cases e <;> rfl

lemma lookFrom_append (d : Disk) (here : Place) (e : Entry) (names more : List String) :
    d.lookFrom here e (names ++ more) =
      (d.lookFrom here e names).bind fun e => d.lookFrom (here ++ names) e more := by
  induction names generalizing here e with
  | nil => simp [Except.bind]
  | cons name names ih =>
    cases e with
    | file bytes => rfl
    | dir =>
      rw [List.cons_append, lookFrom, lookFrom]
      split
      · rfl
      · split
        · rfl
        · rw [ih, List.append_assoc, List.singleton_append]

/-- What stands at a place is told by the entries on the way to it. -/
lemma lookFrom_congr {here : Place}
    (h : ∀ q, q <+: here ++ names → d'.entries.get? q = d.entries.get? q) (e : Entry) :
    d'.lookFrom here e names = d.lookFrom here e names := by
  induction names generalizing here e with
  | nil => simp
  | cons name names ih =>
    have hsplit : here ++ name :: names = here ++ [name] ++ names := by simp
    cases e with
    | file bytes => rfl
    | dir =>
      rw [lookFrom, lookFrom, h (here ++ [name]) (hsplit ▸ List.prefix_append _ _)]
      split
      · rfl
      · split
        · rfl
        · next e he => exact ih (fun q hq => h q (hsplit ▸ hq)) e

lemma look_congr (h : ∀ q, q <+: p → d'.entries.get? q = d.entries.get? q) :
    d'.look p = d.look p := by
  have hfrom : d'.lookFrom [] .dir p = d.lookFrom [] .dir p :=
    lookFrom_congr (by simpa using h) .dir
  rw [look, look, hfrom]

lemma size_pathOf_le (p q : Place) : (pathOf p).utf8ByteSize ≤ (pathOf (p ++ q)).utf8ByteSize := by
  by_cases hp : p = []
  · subst hp
    exact Nat.zero_le _
  · by_cases hq : q = []
    · simp [hq]
    · rw [pathOf, pathOf, String.intercalate_append_of_ne_nil hp hq, String.utf8ByteSize_append,
        String.utf8ByteSize_append]
      omega

lemma look_eq_ok_iff {e : Entry} :
    d.look p = .ok e ↔ (pathOf p).utf8ByteSize ≤ pathLimit ∧ d.lookFrom [] .dir p = .ok e := by
  rw [look]
  split
  · next hlong => simp; omega
  · next hshort => simp; omega

lemma isDirectory_iff : d.isDirectory p = true ↔ d.look p = .ok .dir := by
  rw [isDirectory]
  split
  · next h => simp [h]
  · next h => simpa using h

/-- The directories above a directory are directories. -/
lemma isDirectory_above (hq : q <+: p) (hp : d.isDirectory p = true) :
    d.isDirectory q = true := by
  obtain ⟨more, rfl⟩ := hq
  rw [isDirectory_iff, look_eq_ok_iff] at hp ⊢
  obtain ⟨hsize, hlook⟩ := hp
  have hle := size_pathOf_le q more
  refine ⟨by omega, ?_⟩
  rw [lookFrom_append] at hlook
  cases hfrom : d.lookFrom [] .dir q with
  | error r =>
    rw [hfrom] at hlook
    contradiction
  | ok e =>
    rw [hfrom] at hlook
    cases e with
    | dir => rfl
    | file bytes => cases more <;> simp [Except.bind, lookFrom] at hlook

/-- What stands at a place below a directory is the entry of the place. -/
lemma get?_of_look {e : Entry} {name : String} (h : d.look (p ++ [name]) = .ok e) :
    d.entries.get? (p ++ [name]) = some e := by
  rw [look_eq_ok_iff, lookFrom_append] at h
  obtain ⟨-, h⟩ := h
  cases hfrom : d.lookFrom [] .dir p with
  | error r =>
    rw [hfrom] at h
    contradiction
  | ok above =>
    rw [hfrom] at h
    cases above with
    | file bytes => simp [Except.bind, lookFrom] at h
    | dir =>
      simp only [Except.bind, lookFrom, List.nil_append] at h
      split at h
      · contradiction
      · split at h
        · contradiction
        · next e' he =>
          rw [he, Except.ok.inj h]

/-- Where nothing stands below a directory, there is no entry. -/
lemma get?_of_look_notFound {name : String} (hp : d.isDirectory p = true)
    (h : d.look (p ++ [name]) = .error .notFound) : d.entries.get? (p ++ [name]) = none := by
  rw [isDirectory_iff, look_eq_ok_iff] at hp
  rw [look] at h
  split at h
  · contradiction
  · rw [lookFrom_append, hp.2] at h
    simp only [Except.bind, lookFrom, List.nil_append] at h
    split at h
    · contradiction
    · split at h
      · assumption
      · contradiction

/-! ## Places -/

lemma not_below_above {root : Place} (h : q <+: root) : ¬ Below root q := by
  rintro ⟨hroot, hne⟩
  exact hne (h.eq_of_length_le hroot.length_le)

lemma Below.prefix_dropLast {root : Place} (h : Below root p) : root <+: p.dropLast := by
  obtain ⟨⟨more, rfl⟩, hne⟩ := h
  have hmore : more ≠ [] := by
    rintro rfl
    simp at hne
  rw [List.dropLast_append_of_ne_nil hmore]
  exact List.prefix_append _ _

lemma below_append {root : Place} (h : root <+: p) (name : String) : Below root (p ++ [name]) := by
  refine ⟨h.trans (List.prefix_append _ _), ?_⟩
  rintro rfl
  have hlength := h.length_le
  rw [List.length_append, List.length_singleton] at hlength
  omega

lemma temporary_ne (p : Place) : temporary p ≠ p := by
  intro h
  have hlast : (temporary p).getLastD "" = p.getLastD "" := by rw [h]
  have hsize := congrArg String.utf8ByteSize hlast
  simp [temporary, String.utf8ByteSize_append] at hsize

lemma length_temporary (hp : p ≠ []) : (temporary p).length = p.length := by
  have hpos := List.length_pos_of_ne_nil hp
  simp [temporary]
  omega

/-- The temporary file of a file inside a directory is inside it. -/
lemma Below.temporary {root : Place} (h : Below root p) : Below root (temporary p) :=
  below_append h.prefix_dropLast _

/-- The temporary file of a directory is beside it. -/
lemma not_below_temporary (hp : p ≠ []) : ¬ Below p (temporary p) := by
  rintro ⟨hpre, hne⟩
  exact hne (hpre.eq_of_length (length_temporary hp).symm).symm

/-! ## Changes of single places -/

namespace Confined

lemma refl (d : Disk) : Confined d d := ⟨rfl, fun _ _ => rfl⟩

lemma trans (h : Confined d d') (h' : Confined d' d'') : Confined d d'' where
  root := h'.root.trans h.root
  outside p hp := (h'.outside p (h.root ▸ hp)).trans (h.outside p hp)

lemma insert (hp : Below d.root p) (e : Entry) :
    Confined d { d with entries := d.entries.insert p e } where
  root := rfl
  outside q hq := Table.get?_insert_ne _ (by rintro rfl; exact hq hp) e

lemma erase (hp : Below d.root p) : Confined d { d with entries := d.entries.erase p } where
  root := rfl
  outside q hq := Table.get?_erase_ne _ (by rintro rfl; exact hq hp)

/-- The way to the workspace does not change. -/
lemma look (h : Confined d d') (hq : q <+: d.root) : d'.look q = d.look q :=
  look_congr fun _ hq' => h.outside _ (not_below_above (hq'.trans hq))

lemma rooted (h : Confined d d') (hd : Rooted d) : Rooted d' where
  named := h.root ▸ hd.named
  directory := by
    have hdir := hd.directory
    rw [isDirectory_iff] at hdir ⊢
    rw [h.root, h.look List.prefix_rfl, hdir]

end Confined

/-- A directory is created where nothing stands. -/
lemma make_eq_ok (h : d.make p = .ok d') :
    d.look p = .error .notFound ∧ d' = { d with entries := d.entries.insert p .dir } := by
  rw [make] at h
  split at h
  · contradiction
  · next hlook =>
    split at h
    · rw [Except.ok.injEq] at h
      exact ⟨hlook, h.symm⟩
    · contradiction
  · contradiction

/-- A file is put at a place where none stands, or one that gives way. -/
lemma putFile_eq_ok (h : d.putFile p bytes = .ok d') :
    d.look p ≠ .ok .dir ∧ d' = { d with entries := d.entries.insert p (.file bytes) } := by
  rw [putFile] at h
  split at h
  · contradiction
  · next hlook =>
    rw [Except.ok.injEq] at h
    exact ⟨by simp [hlook], h.symm⟩
  · next hlook =>
    split at h
    · rw [Except.ok.injEq] at h
      exact ⟨by simp [hlook], h.symm⟩
    · contradiction
  · contradiction

/-- A file has taken a place and left another one. -/
lemma moveFile_eq_ok (h : d.moveFile q p bytes = .ok d') :
    d' = { d with entries := (d.entries.insert p (.file bytes)).erase q } := by
  rw [moveFile] at h
  split at h
  · next d₁ hput =>
    obtain ⟨-, rfl⟩ := putFile_eq_ok hput
    rw [Except.ok.injEq] at h
    exact h.symm
  · contradiction

lemma makeAll_of_isDirectory (h : d.isDirectory p = true) : d.makeAll p = (.ok (), d) := by
  rw [makeAll]
  cases hrev : p.reverse with
  | nil => rfl
  | cons name above =>
    have hp : (name :: above).reverse = p := by rw [← hrev, List.reverse_reverse]
    have hmake : d.make p = .error .present := by
      rw [isDirectory_iff] at h
      rw [make, h]
    simp only [makeAllRev, hp, hmake, h, if_true]

/-! ## Creating directories -/

/-- The places on the way to the workspace, and those inside it. -/
def OnLine (root p : Place) : Prop := p <+: root ∨ root <+: p

lemma OnLine.dropLast {root : Place} (h : OnLine root p) : OnLine root p.dropLast := by
  rcases h with h | h
  · exact .inl (( List.dropLast_prefix p).trans h)
  · by_cases hp : p = root
    · exact .inl (hp ▸ List.dropLast_prefix p)
    · exact .inr (Below.prefix_dropLast ⟨h, hp⟩)

/-- A directory that can be created is inside the workspace, since those above it are there. -/
lemma confined_make (hd : Rooted d) (hp : OnLine d.root p) (h : d.make p = .ok d') :
    Confined d d' := by
  obtain ⟨hlook, rfl⟩ := make_eq_ok h
  have habsent : ¬ p <+: d.root := by
    intro habove
    have hdir := isDirectory_above habove hd.directory
    rw [isDirectory_iff, hlook] at hdir
    contradiction
  have hbelow : Below d.root p := by
    refine ⟨hp.resolve_left habsent, ?_⟩
    rintro rfl
    exact habsent List.prefix_rfl
  exact .insert hbelow .dir

lemma confined_makeNew (hd : Rooted d) (hp : OnLine d.root p) (h : d.makeNew p = .ok d') :
    Confined d d' := by
  rw [makeNew] at h
  split at h
  · next d₁ hmake =>
    obtain rfl := Except.ok.inj h
    exact confined_make hd hp hmake
  · split at h
    · obtain rfl := Except.ok.inj h
      exact .refl d
    · contradiction

lemma confined_makeAllRev (hd : Rooted d) (hp : OnLine d.root names.reverse) :
    Confined d (d.makeAllRev names).2 := by
  induction names with
  | nil => exact .refl d
  | cons name above ih =>
    rw [makeAllRev]
    have habove : OnLine d.root above.reverse := by
      have hdrop := hp.dropLast
      rwa [List.reverse_cons, List.dropLast_concat] at hdrop
    have hup := ih habove
    split
    · next d₁ hmake => exact confined_make hd hp hmake
    · split
      · next r d₁ hall =>
        rw [hall] at hup
        exact hup
      · next d₁ hall =>
        rw [hall] at hup
        -- the last directory is created in the tree that the ones above it have left
        split
        · next d₂ hnew =>
          exact hup.trans (confined_makeNew (hup.rooted hd) (hup.root.symm ▸ hp) hnew)
        · exact hup
    · split <;> exact .refl d

lemma confined_makeAll (hd : Rooted d) (hp : OnLine d.root p) : Confined d (d.makeAll p).2 :=
  confined_makeAllRev hd (by rwa [List.reverse_reverse])

/-! ## Writing files -/

/-- A file inside the workspace is written without a change outside. -/
lemma confined_replaceFile (hd : Rooted d) (hp : Below d.root p) (bytes : List UInt8) :
    Confined d (d.replaceFile p bytes).2 := by
  have hmake := confined_makeAll hd (.inr hp.prefix_dropLast)
  rw [replaceFile]
  split
  · next r at_ d₁ hall =>
    rw [hall] at hmake
    exact hmake
  · next d₁ hall =>
    rw [hall] at hmake
    have htemp : Below d₁.root (temporary p) := hmake.root.symm ▸ hp.temporary
    have hp₁ : Below d₁.root p := hmake.root.symm ▸ hp
    dsimp only
    split
    · exact hmake
    · next d₂ hput =>
      obtain ⟨-, hd₂⟩ := putFile_eq_ok hput
      have hroot : d₂.root = d₁.root := by rw [hd₂]
      have hspare : Confined d d₂ := hmake.trans (hd₂ ▸ .insert htemp (.file bytes))
      rw [← hroot] at hp₁ htemp
      split
      · next d₃ hmove =>
        obtain rfl := moveFile_eq_ok hmove
        exact (hspare.trans (.insert hp₁ (.file bytes))).trans (.erase htemp)
      · exact hspare

/-- A file that is to take the place of a directory is refused, and its temporary file stays. -/
lemma replaceFile_directory (hdir : d.isDirectory p = true) (hp : p ≠ []) (bytes : List UInt8) :
    ∃ reason, d.replaceFile p bytes =
      (.error reason, ((d.putFile (temporary p) bytes).toOption.getD d)) := by
  have habove := makeAll_of_isDirectory (isDirectory_above ( List.dropLast_prefix p) hdir)
  rw [replaceFile, habove]
  cases hput : d.putFile (temporary p) bytes with
  | error r =>
    refine ⟨r.message (shown (temporary p)), ?_⟩
    simp only [hput, Except.toOption, Option.getD]
  | ok d₁ =>
    have hbeside : ¬ temporary p <+: p := by
      intro hpre
      exact temporary_ne p (hpre.eq_of_length (length_temporary hp))
    have hlook : d₁.look p = .ok .dir := by
      obtain ⟨-, rfl⟩ := putFile_eq_ok hput
      rw [isDirectory_iff] at hdir
      rw [← hdir]
      refine look_congr fun q hq => Table.get?_insert_ne _ ?_ _
      rintro rfl
      exact hbeside hq
    have hmove : d₁.moveFile (temporary p) p bytes = .error .isDirectory := by
      rw [moveFile, putFile, hlook]
    refine ⟨Refusal.isDirectory.message (shown (temporary p) ++ " -> " ++ shown p), ?_⟩
    simp only [hput, hmove, Except.toOption, Option.getD]

/-- An entry beside the workspace that arises, or changes, is a change outside. -/
lemma confined_insert_beside (hd : Rooted d) (e : Entry) :
    Confined d { d with entries := d.entries.insert (temporary d.root) e } ↔
      d.entries.get? (temporary d.root) = some e := by
  constructor
  · intro h
    have hsame := h.outside _ (not_below_temporary hd.named)
    rw [← hsame, Table.get?_insert_self]
  · intro h
    refine ⟨rfl, fun q _ => ?_⟩
    by_cases hq : temporary d.root = q
    · subst hq
      rw [Table.get?_insert_self, h]
    · exact Table.get?_insert_ne _ hq _

/-- A file that is put beside the workspace is a change outside, unless it is there already. -/
lemma confined_putFile_beside (hd : Rooted d) (bytes : List UInt8) :
    Confined d ((d.putFile (temporary d.root) bytes).toOption.getD d) ↔
      ¬ (d.look (temporary d.root) = .error .notFound ∨
        ∃ old, d.look (temporary d.root) = .ok (.file old) ∧ old ≠ bytes) := by
  have habove : d.isDirectory (temporary d.root).dropLast = true := by
    rw [temporary, List.dropLast_concat]
    exact isDirectory_above ( List.dropLast_prefix _) hd.directory
  cases hlook : d.look (temporary d.root) with
  | ok e =>
    cases e with
    | dir => simp [putFile, hlook, Except.toOption, Confined.refl]
    | file old =>
      have hold : d.entries.get? (temporary d.root) = some (.file old) := get?_of_look hlook
      have hres : d.putFile (temporary d.root) bytes =
          .ok { d with entries := d.entries.insert (temporary d.root) (.file bytes) } := by
        rw [putFile, hlook]
      simp only [hres, Except.toOption, Option.getD_some]
      rw [confined_insert_beside hd, hold]
      simp
  | error r =>
    cases r with
    | notFound =>
      have hnone : d.entries.get? (temporary d.root) = none :=
        get?_of_look_notFound
          (isDirectory_above ( List.dropLast_prefix _) hd.directory) hlook
      have hres : d.putFile (temporary d.root) bytes =
          .ok { d with entries := d.entries.insert (temporary d.root) (.file bytes) } := by
        rw [putFile, hlook]
        simp only [habove, if_true]
      simp only [hres, Except.toOption, Option.getD_some]
      rw [confined_insert_beside hd, hnone]
      simp
    | present => simp [putFile, hlook, Except.toOption, Confined.refl]
    | notDirectory => simp [putFile, hlook, Except.toOption, Confined.refl]
    | isDirectory => simp [putFile, hlook, Except.toOption, Confined.refl]
    | tooLong => simp [putFile, hlook, Except.toOption, Confined.refl]

/-! ## Changes by path -/

lemma root_above_of_resolve (h : d.resolve path = .ok p) : d.root <+: p := by
  rw [resolve] at h
  split at h
  · contradiction
  · simp only at h
    split at h
    · next hpre =>
      obtain rfl := Except.ok.inj h
      exact List.isPrefixOf_iff_prefix.mp hpre
    · contradiction

lemma resolve_congr (h : d'.root = d.root) (path : String) : d'.resolve path = d.resolve path := by
  rw [resolve, resolve, placeOf, placeOf, h]

/-- A path that leads nowhere inside is reported as a fault of the workspace, unless no file can have
it. -/
lemma fault_of_resolve {f : Fault} (h : d.resolve path = .error f) :
    (∃ message, f = .workspace ⟨message, path⟩) ∨ f = .impossiblePath := by
  rw [resolve] at h
  split at h
  · exact .inr (Except.error.inj h).symm
  · simp only at h
    split at h
    · contradiction
    · exact .inl ⟨_, (Except.error.inj h).symm⟩

lemma confined_mkdir (hd : Rooted d) (path : String) : Confined d (d.mkdir path).2 := by
  rw [mkdir]
  split
  · exact .refl d
  · next p hp =>
    have hall := confined_makeAll hd (.inr (root_above_of_resolve hp))
    split
    · next d₁ hmake => rwa [hmake] at hall
    · next r at_ d₁ hmake => rwa [hmake] at hall

/-- What a write leaves is what its file leaves. -/
lemma write_snd (h : d.resolve path = .ok p) (hp : p ≠ outermost) (content : String) :
    (d.write path content).2 = (d.replaceFile p (Utf8.encode content)).2 := by
  simp only [write, h, if_neg hp]
  split
  · next d₁ hres => rw [hres]
  · next reason d₁ hres => rw [hres]

lemma confined_write_iff (hd : Rooted d) (path content : String) :
    Confined d (d.write path content).2 ↔ ¬ d.Spills (.write path content) := by
  rw [Spills]
  cases hp : d.resolve path with
  | error f => simp [write, hp, Confined.refl]
  | ok p =>
    by_cases hout : p = outermost
    · have hsnd : (d.write path content).2 = d := by simp [write, hp, hout]
      rw [hsnd]
      simp only [Confined.refl, true_iff, Except.ok.injEq]
      rintro ⟨rfl, hne, -⟩
      exact hne hout
    · rw [write_snd hp hout]
      by_cases hroot : p = d.root
      · subst hroot
        obtain ⟨reason, hres⟩ := replaceFile_directory hd.directory hd.named (Utf8.encode content)
        rw [hres, confined_putFile_beside hd]
        simp [hout]
      · have hinside := confined_replaceFile hd ⟨root_above_of_resolve hp, hroot⟩ (Utf8.encode content)
        simp [hinside, hroot]

/-- A change is refused with a fault of the workspace for its path, or, for a path that no file can
have, before anything is done. -/
lemma fault_of_perform {f : Fault} (c : Change) (h : (c.perform d).1 = .error f) :
    (∃ message, f = .workspace ⟨message, c.target⟩) ∨ f = .impossiblePath ∧ (c.perform d).2 = d := by
  cases c with
  | mkdir path =>
    simp only [Change.perform, Change.target, mkdir] at h ⊢
    cases hp : d.resolve path with
    | error f' =>
      simp only [hp, Except.error.injEq] at h ⊢
      subst h
      simpa using fault_of_resolve hp
    | ok p =>
      simp only [hp] at h ⊢
      split at h
      · contradiction
      · exact .inl ⟨_, (Except.error.inj h).symm⟩
  | write path content =>
    simp only [Change.perform, Change.target, write] at h ⊢
    cases hp : d.resolve path with
    | error f' =>
      simp only [hp, Except.error.injEq] at h ⊢
      subst h
      simpa using fault_of_resolve hp
    | ok p =>
      simp only [hp] at h ⊢
      by_cases hout : p = outermost
      · simp only [hout, if_true, Except.error.injEq] at h ⊢
        exact .inr ⟨h.symm, trivial⟩
      · simp only [if_neg hout] at h ⊢
        split at h
        · contradiction
        · exact .inl ⟨_, (Except.error.inj h).symm⟩

lemma fault_of_spills (hd : Rooted d) {c : Change} (h : d.Spills c) :
    ∃ message, (c.perform d).1 = .error (.workspace ⟨message, c.target⟩) := by
  cases c with
  | mkdir path => exact h.elim
  | write path content =>
    obtain ⟨hp, hout, -⟩ := h
    obtain ⟨reason, hres⟩ := replaceFile_directory hd.directory hd.named (Utf8.encode content)
    refine ⟨s!"Cannot write {path}: {reason}", ?_⟩
    simp only [Change.perform, write, hp, if_neg hout, hres, Change.target]

/-- A change touches nothing outside the workspace exactly if it does not spill. -/
lemma confined_perform_iff (hd : Rooted d) (c : Change) :
    Confined d (c.perform d).2 ↔ ¬ d.Spills c := by
  cases c with
  | mkdir path => simpa [Spills, Change.perform] using confined_mkdir hd path
  | write path content => exact confined_write_iff hd path content

/-- A tree with an empty directory as its workspace. -/
def bare : Disk :=
  ⟨outermost ++ ["work"], Table.ofList [(outermost, .dir), (outermost ++ ["work"], .dir)]⟩

lemma rooted_bare : Rooted bare := ⟨by decide, by decide +kernel⟩

/-- Do changes one after the other, whether they succeed or not. -/
def performAll (d : Disk) (cs : List Change) : Disk := cs.foldl (fun d c => (c.perform d).2) d

/-- Without a file that is written to the workspace's own directory, no series of changes touches
anything outside. -/
theorem performAll_confined (hd : Rooted d) (cs : List Change)
    (h : ∀ c ∈ cs, d.resolve c.target ≠ .ok d.root) : Confined d (d.performAll cs) := by
  induction cs generalizing d with
  | nil => exact .refl d
  | cons c cs ih =>
    have hfirst : Confined d (c.perform d).2 := by
      refine (confined_perform_iff hd c).mpr ?_
      intro hspill
      cases c with
      | mkdir path => exact hspill
      | write path content => exact h _ List.mem_cons_self hspill.1
    refine hfirst.trans (ih (hfirst.rooted hd) fun c' hc' => ?_)
    rw [resolve_congr hfirst.root, hfirst.root]
    exact h c' (List.mem_cons_of_mem c hc')

end SourceBundle.Workspace.Disk
