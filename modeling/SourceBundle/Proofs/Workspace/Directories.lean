/-
# What is created with a directory

A directory is created with those above it.  That succeeds exactly if no name on the way is too long and no file
stands there.  Nothing else changes than that there are directories where nothing has been before, also when it
fails halfway.
-/
import SourceBundle.Proofs.Workspace.Confined

namespace SourceBundle.Workspace.Disk

variable {d d' : Disk} {p q names above : List String} {name : String} {bytes : List UInt8}

/-! ## The length of places -/

/-- No name of a place is too long, nor is its path. -/
structure Fits (p : Place) : Prop where
  path : (pathOf p).utf8ByteSize ≤ pathLimit
  names : ∀ name ∈ p, name.utf8ByteSize ≤ nameLimit

lemma Fits.of_prefix (h : Fits p) (hq : q <+: p) : Fits q := by
  obtain ⟨more, rfl⟩ := hq
  exact ⟨(size_pathOf_le q more).trans h.path, fun name hname => h.names name (List.mem_append_left _ hname)⟩

lemma fits_concat_iff :
    Fits (p ++ [name]) ↔ Fits p ∧ (pathOf (p ++ [name])).utf8ByteSize ≤ pathLimit ∧
      name.utf8ByteSize ≤ nameLimit := by
  constructor
  · intro h
    exact ⟨h.of_prefix (List.prefix_append _ _), h.path, h.names name (by simp)⟩
  · rintro ⟨h, hpath, hname⟩
    refine ⟨hpath, fun name' hname' => ?_⟩
    rcases List.mem_append.mp hname' with hname' | hname'
    · exact h.names name' hname'
    · rwa [List.mem_singleton.mp hname']

lemma size_pathOf_concat_le {name' : String} (h : name.utf8ByteSize ≤ name'.utf8ByteSize) :
    (pathOf (p ++ [name])).utf8ByteSize ≤ (pathOf (p ++ [name'])).utf8ByteSize := by
  by_cases hp : p = []
  · simpa [hp, pathOf] using h
  · simp only [pathOf, String.intercalate_append_of_ne_nil hp (List.cons_ne_nil _ _),
      String.utf8ByteSize_append, String.intercalate_singleton]
    omega

/-! ## Looking below a directory -/

/-- A file with such bytes stands at a place. -/
def FileAt (d : Disk) (p : Place) (bytes : List UInt8) : Prop := d.entries.get? p = some (.file bytes)

/-- No file stands at a place, or on the way to it. -/
def Clear (d : Disk) (p : Place) : Prop := ∀ q, q <+: p → q ≠ [] → ∀ bytes, ¬ d.FileAt q bytes

lemma isDirectory_nil (d : Disk) : d.isDirectory [] = true := by
  rw [isDirectory_iff, look_eq_ok_iff]
  exact ⟨Nat.zero_le _, rfl⟩

/-- Below a directory it is told by the length and by the entry what stands at a place. -/
lemma look_concat (hp : d.isDirectory p = true) (name : String) :
    d.look (p ++ [name]) =
      if (pathOf (p ++ [name])).utf8ByteSize ≤ pathLimit ∧ name.utf8ByteSize ≤ nameLimit then
        match d.entries.get? (p ++ [name]) with
        | none => .error .notFound
        | some e => .ok e
      else .error .tooLong := by
  rw [isDirectory_iff, look_eq_ok_iff] at hp
  rw [look, lookFrom_append, hp.2]
  simp only [Except.bind, lookFrom, List.nil_append]
  by_cases hpath : pathLimit < (pathOf (p ++ [name])).utf8ByteSize
  · rw [if_pos hpath, if_neg (by omega)]
  · rw [if_neg hpath]
    by_cases hname : nameLimit < name.utf8ByteSize
    · rw [if_pos hname, if_neg (by omega)]
    · have hshort : (pathOf (p ++ [name])).utf8ByteSize ≤ pathLimit ∧ name.utf8ByteSize ≤ nameLimit := by
        omega
      cases d.entries.get? (p ++ [name]) with
      | none => exact (if_neg hname).trans (if_pos hshort).symm
      | some e => exact (if_neg hname).trans (if_pos hshort).symm

lemma names_of_lookFrom {here : Place} {e e' : Entry} (h : d.lookFrom here e names = .ok e') :
    ∀ name ∈ names, name.utf8ByteSize ≤ nameLimit := by
  induction names generalizing here e with
  | nil => exact nofun
  | cons name names ih =>
    cases e with
    | file bytes => cases h
    | dir =>
      rw [lookFrom] at h
      split at h
      · cases h
      · split at h
        · cases h
        · rintro name' (_ | ⟨_, hname'⟩)
          · omega
          · exact ih h name' hname'

lemma fits_of_isDirectory (h : d.isDirectory p = true) : Fits p := by
  rw [isDirectory_iff, look_eq_ok_iff] at h
  exact ⟨h.1, names_of_lookFrom h.2⟩

lemma clear_of_isDirectory (h : d.isDirectory p = true) : d.Clear p := by
  intro q hq hne bytes hfile
  have hdir := isDirectory_above hq h
  obtain ⟨above, name, rfl⟩ : ∃ above name, q = above ++ [name] :=
    ⟨_, _, (List.dropLast_concat_getLast hne).symm⟩
  rw [isDirectory_iff] at hdir
  exact absurd ((get?_of_look hdir).symm.trans hfile) nofun

/-- Where no name is too long and no file stands on the way, there is a directory or nothing. -/
lemma lookFrom_of_clear {here : Place} (hnames : ∀ name ∈ names, name.utf8ByteSize ≤ nameLimit)
    (hclear : ∀ q, q <+: names → q ≠ [] → ∀ bytes, ¬ d.FileAt (here ++ q) bytes) :
    d.lookFrom here .dir names = .ok .dir ∨ d.lookFrom here .dir names = .error .notFound := by
  induction names generalizing here with
  | nil => exact Or.inl rfl
  | cons name names ih =>
    rw [lookFrom, if_neg (Nat.not_lt.mpr (hnames name List.mem_cons_self))]
    cases he : d.entries.get? (here ++ [name]) with
    | none => exact Or.inr rfl
    | some e =>
      cases e with
      | file bytes =>
        exact absurd he (hclear [name] (List.prefix_append [name] names) (List.cons_ne_nil _ _) bytes)
      | dir =>
        refine ih (fun name' hname' => hnames name' (List.mem_cons_of_mem _ hname')) fun q hq _ bytes => ?_
        rw [List.append_assoc, List.singleton_append]
        exact hclear (name :: q) (List.cons_prefix_cons.mpr ⟨rfl, hq⟩) (List.cons_ne_nil _ _) bytes

lemma look_of_clear (hfits : Fits p) (hclear : d.Clear p) :
    d.look p = .ok .dir ∨ d.look p = .error .notFound := by
  rw [look, if_neg (Nat.not_lt.mpr hfits.path)]
  exact lookFrom_of_clear hfits.names (by simpa [Clear] using hclear)

/-! ## Creating directories -/

/-- A tree in which nothing is different but that there are directories where nothing has been, on the way to a
place. -/
structure Grown (p : Place) (d d' : Disk) : Prop where
  root : d'.root = d.root
  entries : ∀ q, d'.entries.get? q = d.entries.get? q ∨
    q <+: p ∧ d.entries.get? q = none ∧ d'.entries.get? q = some .dir

namespace Grown

lemma refl (p : Place) (d : Disk) : Grown p d d := ⟨rfl, fun _ => Or.inl rfl⟩

lemma get?_of_not_prefix (h : Grown p d d') (hq : ¬ q <+: p) : d'.entries.get? q = d.entries.get? q :=
  (h.entries q).resolve_right fun hnew => hq hnew.1

lemma fileAt_iff (h : Grown p d d') : d'.FileAt q bytes ↔ d.FileAt q bytes := by
  unfold FileAt
  rcases h.entries q with hsame | ⟨-, hnone, hdir⟩
  · rw [hsame]
  · rw [hnone, hdir]
    exact ⟨nofun, nofun⟩

lemma clear (h : Grown p d d') (hclear : d.Clear q) : d'.Clear q := fun q' hq' hne bytes hfile =>
  hclear q' hq' hne bytes (h.fileAt_iff.mp hfile)

lemma mono {p' : Place} (h : Grown p d d') (hp : p <+: p') : Grown p' d d' where
  root := h.root
  entries q := (h.entries q).imp_right fun ⟨hq, hnone, hdir⟩ => ⟨hq.trans hp, hnone, hdir⟩

lemma trans {d'' : Disk} (h : Grown p d d') (h' : Grown p d' d'') : Grown p d d'' where
  root := h'.root.trans h.root
  entries q := by
    rcases h'.entries q with hsame | ⟨hq, hnone, hdir⟩
    · rw [hsame]
      exact h.entries q
    · rcases h.entries q with hsame | ⟨-, -, hdir'⟩
      · exact Or.inr ⟨hq, hsame ▸ hnone, hdir⟩
      · exact absurd (hnone.symm.trans hdir') nofun

end Grown

/-- Where a directory is entered below a directory, there is one. -/
lemma isDirectory_insert (hp : d.isDirectory p = true) (hfits : Fits (p ++ [name])) :
    ({ d with entries := d.entries.insert (p ++ [name]) .dir } : Disk).isDirectory (p ++ [name]) = true := by
  have habove : ({ d with entries := d.entries.insert (p ++ [name]) .dir } : Disk).isDirectory p = true := by
    rw [isDirectory_iff] at hp ⊢
    rw [← hp]
    refine look_congr fun q hq => Table.get?_insert_ne _ ?_ _
    rintro rfl
    have hlength := hq.length_le
    rw [List.length_append, List.length_singleton] at hlength
    omega
  obtain ⟨-, hpath, hname⟩ := fits_concat_iff.mp hfits
  rw [isDirectory_iff, look_concat habove, if_pos ⟨hpath, hname⟩, Table.get?_insert_self]

/-- A directory is created below a directory, where nothing is. -/
lemma grown_make (h : d.make p = .ok d') : Grown p d d' ∧ d'.isDirectory p = true := by
  obtain ⟨hlook, rfl⟩ := make_eq_ok h
  have habove : d.isDirectory p.dropLast = true := by
    rw [make, hlook] at h
    by_contra hno
    simp [hno] at h
  have hne : p ≠ [] := by
    rintro rfl
    rw [isDirectory_iff.mp (isDirectory_nil d)] at hlook
    cases hlook
  rw [← List.dropLast_concat_getLast hne] at hlook ⊢
  generalize p.dropLast = above at *
  generalize p.getLast hne = name at *
  have hfits : Fits (above ++ [name]) := by
    rw [look_concat habove] at hlook
    split at hlook
    · next hshort => exact fits_concat_iff.mpr ⟨fits_of_isDirectory habove, hshort⟩
    · cases hlook
  refine ⟨⟨rfl, fun q => ?_⟩, isDirectory_insert habove hfits⟩
  by_cases hq : above ++ [name] = q
  · subst hq
    exact Or.inr ⟨List.prefix_rfl, get?_of_look_notFound habove hlook, Table.get?_insert_self _ _ _⟩
  · exact Or.inl (Table.get?_insert_ne _ hq _)

lemma grown_makeNew (h : d.makeNew p = .ok d') : Grown p d d' ∧ d'.isDirectory p = true := by
  rw [makeNew] at h
  split at h
  · next d₁ hmake =>
    obtain rfl := Except.ok.inj h
    exact grown_make hmake
  · split at h
    · next hdir =>
      obtain rfl := Except.ok.inj h
      exact ⟨.refl p d, hdir⟩
    · cases h

/-- Whatever comes of it, nothing but directories arises. -/
lemma grown_makeAllRev (d : Disk) (names : List String) :
    Grown names.reverse d (d.makeAllRev names).2 ∧
      ((d.makeAllRev names).1 = .ok () → (d.makeAllRev names).2.isDirectory names.reverse = true) := by
  induction names with
  | nil => exact ⟨.refl _ d, fun _ => isDirectory_nil d⟩
  | cons name above ih =>
    have habove : above.reverse <+: (name :: above).reverse := by
      rw [List.reverse_cons]
      exact List.prefix_append _ _
    rw [makeAllRev]
    split
    · next d₁ hmake => exact ⟨(grown_make hmake).1, fun _ => (grown_make hmake).2⟩
    · split
      · next r d₁ hall =>
        rw [hall] at ih
        refine ⟨ih.1.mono habove, fun h => ?_⟩
        cases h
      · next d₁ hall =>
        rw [hall] at ih
        split
        · next d₂ hnew =>
          exact ⟨(ih.1.mono habove).trans (grown_makeNew hnew).1, fun _ => (grown_makeNew hnew).2⟩
        · refine ⟨ih.1.mono habove, fun h => ?_⟩
          cases h
    · split
      · next hdir => exact ⟨.refl _ d, fun _ => hdir⟩
      · refine ⟨.refl _ d, fun h => ?_⟩
        cases h

lemma makeNew_of_clear (hp : d.isDirectory p = true) (hfits : Fits (p ++ [name]))
    (hclear : d.Clear (p ++ [name])) : ∃ d', d.makeNew (p ++ [name]) = .ok d' := by
  rw [makeNew, make]
  rcases look_of_clear hfits hclear with hlook | hlook
  · rw [hlook, isDirectory_iff.mpr hlook]
    exact ⟨d, rfl⟩
  · rw [hlook, List.dropLast_concat, hp]
    exact ⟨_, rfl⟩

lemma makeAllRev_of_clear (hfits : Fits names.reverse) (hclear : d.Clear names.reverse) :
    (d.makeAllRev names).1 = .ok () := by
  induction names with
  | nil => rfl
  | cons name above ih =>
    have habove : above.reverse <+: (name :: above).reverse := by
      rw [List.reverse_cons]
      exact List.prefix_append _ _
    -- when those above it are there, only a directory can be in the way of the new one, and that does no harm
    have hih := ih (hfits.of_prefix habove) fun q hq => hclear q (hq.trans habove)
    obtain ⟨hgrown, hdir⟩ := grown_makeAllRev d above
    have hnew : ∃ d', (d.makeAllRev above).2.makeNew (name :: above).reverse = .ok d' := by
      rw [List.reverse_cons] at hfits hclear ⊢
      exact makeNew_of_clear (hdir hih) hfits (hgrown.clear hclear)
    obtain ⟨d', hnew⟩ := hnew
    rw [makeAllRev, make]
    rcases look_of_clear hfits hclear with hlook | hlook
    · rw [hlook, isDirectory_iff.mpr hlook]
      rfl
    · rw [hlook]
      dsimp only
      cases hall : d.makeAllRev above with
      | mk result d₁ =>
        rw [hall] at hih hnew
        dsimp only at hih hnew
        subst hih
        by_cases hparent : d.isDirectory (name :: above).reverse.dropLast = true
        · rw [if_pos hparent]
        · rw [if_neg hparent]
          dsimp only
          rw [hnew]

/-- **Directories.**  A directory is created, with those above it, exactly if no name on the way is too long and
no file stands there; nothing but directories arises, also when it fails halfway. -/
theorem makeAll_exact (d : Disk) (p : Place) :
    ((d.makeAll p).1 = .ok () ↔ Fits p ∧ d.Clear p) ∧ Grown p d (d.makeAll p).2 ∧
      ((d.makeAll p).1 = .ok () → (d.makeAll p).2.isDirectory p = true) := by
  have hgrown := grown_makeAllRev d p.reverse
  rw [List.reverse_reverse] at hgrown
  refine ⟨⟨fun h => ?_, fun ⟨hfits, hclear⟩ => ?_⟩, hgrown⟩
  · have hdir := hgrown.2 h
    refine ⟨fits_of_isDirectory hdir, fun q hq hne bytes hfile => ?_⟩
    exact clear_of_isDirectory hdir q hq hne bytes (hgrown.1.fileAt_iff.mpr hfile)
  · refine makeAllRev_of_clear ?_ ?_
    · rwa [List.reverse_reverse]
    · rwa [List.reverse_reverse]

end SourceBundle.Workspace.Disk
