/-
# What a commit replaces

A commit visits the files that its run has scanned or has records of, in no particular order, and puts the
records of the run in the place of those that the index has.  Nothing else of the index changes, and it is
marked as changed exactly if the records of some file have become others.  A run that is not current
commits nothing.
-/
import SourceBundle.Proofs.Bundle.Records
import SourceBundle.Proofs.Routine.Alone
import SourceBundle.Proofs.Service.Current

namespace SourceBundle

/-! ## The records of one file -/

namespace Index

variable {i : Index} {file f : String} {records : Table String String}

lemma get?_data_record_ne (i : Index) (hf : file ≠ f) (literal path : String) :
    (i.record file literal path).data.get? f = i.data.get? f := by
  unfold record
  split
  · rfl
  · dsimp only
    split
    · rfl
    · exact Table.get?_insert_ne _ hf _

lemma get?_data_clear_ne (i : Index) (hf : file ≠ f) : (i.clear file).data.get? f = i.data.get? f := by
  unfold clear
  split
  · exact Table.get?_erase_ne _ hf
  · rfl

/-- To replace the records of a file leaves those of other files as they are. -/
lemma get?_data_replace_ne (i : Index) (hf : file ≠ f) (records : Table String String) :
    (i.replace file records).data.get? f = i.data.get? f := by
  have hfold : ∀ (es : List (String × String)) (i : Index),
      (es.foldl (fun i e => i.record file e.1 e.2) i).data.get? f = i.data.get? f := by
    intro es
    induction es with
    | nil => exact fun i => rfl
    | cons e es ih => exact fun i => (ih _).trans (i.get?_data_record_ne hf e.1 e.2)
  unfold replace
  split
  · rfl
  · rw [hfold, i.get?_data_clear_ne hf]

lemma dirty_record (h : i.dirty = true) (file literal path : String) :
    (i.record file literal path).dirty = true := by
  unfold record
  split
  · exact h
  · dsimp only
    split
    · exact h
    · rfl

lemma dirty_foldl_record (h : i.dirty = true) (file : String) (es : List (String × String)) :
    (es.foldl (fun i e => i.record file e.1 e.2) i).dirty = true := by
  induction es generalizing i with
  | nil => exact h
  | cons e es ih => exact ih (dirty_record h file e.1 e.2)

/-- To record an import that the index has no path for marks it as changed. -/
lemma dirty_record_of_lookup {literal path : String} (hid : literal ≠ path)
    (h : i.lookup file literal = none) : (i.record file literal path).dirty = true := by
  have hnew : (i.recordsOf file).get? literal ≠ some path := by
    rw [← lookup_eq, h]
    exact Option.some_ne_none path |>.symm
  rw [record, if_neg hid]
  dsimp only
  rw [if_neg hnew]

/-- To replace the records of a file marks the index as changed exactly if it had others. -/
lemma dirty_replace (hp : ∀ l p, records.get? l = some p → l ≠ p) (i : Index) (file : String) :
    (i.replace file records).dirty = true ↔
      i.dirty = true ∨ ∃ l, i.lookup file l ≠ records.get? l := by
  unfold replace
  split
  · next hsame =>
    have hnone : ¬ ∃ l, i.lookup file l ≠ records.get? l := by
      rintro ⟨l, hl⟩
      exact hl ((lookup_eq i file l).trans (sameRecords_iff.mp hsame l))
    rw [or_iff_left hnone]
  · next hother =>
    have hdiffers : ∃ l, i.lookup file l ≠ records.get? l := by
      by_contra hall
      refine hother (sameRecords_iff.mpr fun l => ?_)
      rw [← lookup_eq]
      exact not_not.mp fun hl => hall ⟨l, hl⟩
    refine iff_of_true ?_ (Or.inr hdiffers)
    cases hthere : i.data.contains file with
    | true =>
      have hclear : (i.clear file).dirty = true := by simp [clear, hthere]
      exact dirty_foldl_record hclear file _
    | false =>
      -- there is nothing to drop, so there is something to record
      have hclear : i.clear file = i := by simp [clear, hthere]
      have hno : ∀ l, i.lookup file l = none := by
        intro l
        have hget : i.data.get? file = none := by simpa [Table.contains] using hthere
        rw [lookup, hget, Option.bind_none]
      obtain ⟨l, hl⟩ := hdiffers
      rw [hno l] at hl
      obtain ⟨path, hpath⟩ := Option.ne_none_iff_exists'.mp hl.symm
      have hentry : (l, path) ∈ records.entries := Table.get?_eq_some_iff.mp hpath
      rw [hclear]
      cases hes : records.entries with
      | nil => exact absurd (hes ▸ hentry) List.not_mem_nil
      | cons e es =>
        have he : e.1 ≠ e.2 := hp _ _ (Table.get?_eq_some_iff.mpr (hes ▸ List.mem_cons_self))
        exact dirty_foldl_record (dirty_record_of_lookup he (hno e.1)) file es

end Index

/-! ## The records of a run -/

namespace Context

variable {c : Context} {files : List String} {i : Index}

/-- All records of the run have been made by noting what imports resolved to. -/
def Recorded (c : Context) : Prop :=
  ∃ (c₀ : Context) (es : List (String × String × String)), c₀.records = ∅ ∧
    c.records = (es.foldl (fun c e => c.record e.1 e.2.1 e.2.2) c₀).records

lemma Proper.record (h : c.Proper) (file literal path : String) : (c.record file literal path).Proper := by
  intro f l p hp
  rw [recordOf_record] at hp
  split at hp
  · next hnew =>
    obtain ⟨-, rfl, hne⟩ := hnew
    exact Option.some.inj hp ▸ hne
  · exact h f l p hp

/-- What has been noted so is no import that resolved to itself. -/
lemma Recorded.proper (h : c.Recorded) : c.Proper := by
  obtain ⟨c₀, es, hempty, hrecords⟩ := h
  have hstart : c₀.Proper := by
    intro file literal path hpath
    rw [recordOf, hempty] at hpath
    cases hpath
  have hall : (es.foldl (fun c e => c.record e.1 e.2.1 e.2.2) c₀).Proper := by
    clear hrecords hempty
    induction es generalizing c₀ with
    | nil => exact hstart
    | cons e es ih => exact ih _ (hstart.record e.1 e.2.1 e.2.2)
  intro file literal path hpath
  rw [recordOf, hrecords] at hpath
  exact hall file literal path hpath

/-- The index when the records of some files have been replaced by those of the run, one file after the
other. -/
def commitIn (c : Context) (files : List String) (i : Index) : Index :=
  files.foldl (fun i f => i.replace f ((c.records.get? f).getD ∅)) i

lemma commit_eq (c : Context) (i : Index) : c.commit i = c.commitIn c.committedFiles i := rfl

lemma lookup_commitIn (hc : c.Proper) (files : List String) (i : Index) (file literal : String) :
    (c.commitIn files i).lookup file literal =
      if file ∈ files then c.recordOf file literal else i.lookup file literal :=
  lookup_foldl_replace hc files i file literal

lemma get?_data_commitIn {file : String} (hf : file ∉ files) (i : Index) :
    (c.commitIn files i).data.get? file = i.data.get? file := by
  induction files generalizing i with
  | nil => rfl
  | cons f files ih =>
    rw [List.mem_cons, not_or] at hf
    exact (ih hf.2 _).trans (i.get?_data_replace_ne (Ne.symm hf.1) _)

lemma dirty_commitIn (hc : c.Proper) (files : List String) (i : Index) :
    (c.commitIn files i).dirty = true ↔
      i.dirty = true ∨ ∃ file ∈ files, ∃ l, i.lookup file l ≠ c.recordOf file l := by
  induction files generalizing i with
  | nil => simp [commitIn]
  | cons f files ih =>
    have hfirst : ∀ file l, (i.replace f ((c.records.get? f).getD ∅)).lookup file l =
        if f = file then c.recordOf f l else i.lookup file l := Index.lookup_replace (hc f) i f
    have hdirty := Index.dirty_replace (hc f) i f
    show (c.commitIn files (i.replace f ((c.records.get? f).getD ∅))).dirty = true ↔ _
    rw [ih, hdirty]
    constructor
    · rintro ((h | ⟨l, hl⟩) | ⟨file, hfile, l, hl⟩)
      · exact Or.inl h
      · exact Or.inr ⟨f, List.mem_cons_self, l, hl⟩
      · by_cases hff : f = file
        · subst hff
          rw [hfirst, if_pos rfl] at hl
          exact absurd rfl hl
        · rw [hfirst, if_neg hff] at hl
          exact Or.inr ⟨file, List.mem_cons_of_mem f hfile, l, hl⟩
    · rintro (h | ⟨file, hfile, l, hl⟩)
      · exact Or.inl (Or.inl h)
      · by_cases hff : f = file
        · exact Or.inl (Or.inr ⟨l, hff ▸ hl⟩)
        · refine Or.inr ⟨file, (List.mem_cons.mp hfile).resolve_left (Ne.symm hff), l, ?_⟩
          rwa [hfirst, if_neg hff]

/-- An index has the records of the run for the files that it has scanned or has records of, and is
otherwise as it was; it is marked as changed if the records of some file are others. -/
structure Replaces (c : Context) (i j : Index) : Prop where
  committed : ∀ file, file ∈ c.scanned ∨ file ∈ c.records.keys →
    ∀ literal, (j.recordsOf file).get? literal = ((c.records.get? file).getD ∅).get? literal
  others : ∀ file, ¬ (file ∈ c.scanned ∨ file ∈ c.records.keys) → j.data.get? file = i.data.get? file
  dirty : j.dirty = true ↔ i.dirty = true ∨
    ∃ file literal, (j.recordsOf file).get? literal ≠ (i.recordsOf file).get? literal
  rest : i.Rewritten j

lemma replaces_commitIn (hc : c.Proper) (hf : files.Perm c.committedFiles) (i : Index) :
    c.Replaces i (c.commitIn files i) := by
  have hmem : ∀ file, file ∈ files ↔ file ∈ c.scanned ∨ file ∈ c.records.keys := fun file =>
    hf.mem_iff.trans mem_committedFiles
  refine ⟨fun file hfile literal => ?_, fun file hfile => ?_, ?_, ?_⟩
  · rw [← Index.lookup_eq, lookup_commitIn hc, if_pos ((hmem file).mpr hfile)]
    rfl
  · exact get?_data_commitIn (fun h => hfile ((hmem file).mp h)) i
  · rw [dirty_commitIn hc]
    refine or_congr_right ⟨?_, ?_⟩
    · rintro ⟨file, hfile, l, hl⟩
      refine ⟨file, l, ?_⟩
      rw [← Index.lookup_eq, ← Index.lookup_eq, lookup_commitIn hc, if_pos hfile]
      exact Ne.symm hl
    · rintro ⟨file, l, hl⟩
      rw [← Index.lookup_eq, ← Index.lookup_eq, lookup_commitIn hc] at hl
      split at hl
      · next hfile => exact ⟨file, hfile, l, Ne.symm hl⟩
      · exact absurd rfl hl
  · exact Index.rewritten_foldl (fun i f => i.rewritten_replace f _) files i

/-- In whatever order the files are visited, the records are the same and the index is marked alike. -/
lemma commitIn_perm (hc : c.Proper) {files' : List String} (hf : files.Perm files') (i : Index) :
    (∀ file literal,
        (c.commitIn files i).lookup file literal = (c.commitIn files' i).lookup file literal) ∧
      (c.commitIn files i).dirty = (c.commitIn files' i).dirty := by
  refine ⟨fun file literal => ?_, ?_⟩
  · rw [lookup_commitIn hc, lookup_commitIn hc]
    exact if_congr hf.mem_iff rfl rfl
  · rw [Bool.eq_iff_iff, dirty_commitIn hc, dirty_commitIn hc]
    simp only [hf.mem_iff]

lemma commitIn_eq_self (hi : ∀ file ∈ files, ∀ l, i.lookup file l = c.recordOf file l) :
    c.commitIn files i = i := by
  induction files with
  | nil => rfl
  | cons f files ih =>
    have hsame : i.replace f ((c.records.get? f).getD ∅) = i :=
      Index.replace_eq_self (hi f List.mem_cons_self)
    show c.commitIn files (i.replace f ((c.records.get? f).getD ∅)) = i
    rw [hsame]
    exact ih fun file hfile => hi file (List.mem_cons_of_mem f hfile)

/-- To commit again changes nothing, in whatever order the files are visited now. -/
lemma commitIn_again (hc : c.Proper) {files' : List String} (hf : files'.Perm files) (i : Index) :
    c.commitIn files' (c.commitIn files i) = c.commitIn files i :=
  commitIn_eq_self fun file hfile l => by rw [lookup_commitIn hc, if_pos (hf.mem_iff.mp hfile)]

end Context

/-! ## The commit of a run -/

namespace Bundle

/-- To ask whether a run is current tells whether it is, and leaves the index alone. -/
lemma alone_contextIsCurrent (c : Context) (s : Service) (reply : (q : Question) → q.Answer) :
    ∃ b t, (Work.contextIsCurrent c).alone reply s = some (b, t) ∧ (b = true ↔ c.CurrentIn s) ∧
      t.index = s.index := by
  unfold Work.contextIsCurrent Work.isCurrent Context.CurrentIn
  cases c.standing with
  | always => exact ⟨true, s, rfl, by simp, rfl⟩
  | permitted => exact ⟨s.permit.show.1, _, rfl, Iff.rfl, rfl⟩
  | generation n epoch => exact ⟨_, s, rfl, by simp, rfl⟩

/-- **A commit replaces the records of its files.**  The commit of a run tells whether the run is
current, and only then does anything to the index.  In whatever order it visits the files that the run has
scanned or has records of, the index then has the records of the run for these files and what it had
for all others, and is marked as changed exactly if it was before or if the records of some file are
others; no order gives other records than another, and to commit again changes nothing. -/
theorem commit_replaces {c : Context} (hc : c.Recorded) (s : Service)
    (reply : (q : Question) → q.Answer) :
    (∃ done t, (commit c).alone reply s = some (done, t) ∧ (done = true ↔ c.CurrentIn s) ∧
        t.index = if done then c.commit s.index else s.index) ∧
      ∀ files files' : List String, files.Perm c.committedFiles → files'.Perm c.committedFiles →
        c.Replaces s.index (c.commitIn files s.index) ∧
        (∀ file literal, (c.commitIn files s.index).lookup file literal =
          (c.commit s.index).lookup file literal) ∧
        (c.commitIn files s.index).dirty = (c.commit s.index).dirty ∧
        c.commitIn files' (c.commitIn files s.index) = c.commitIn files s.index := by
  refine ⟨?_, fun files files' hf hf' => ?_⟩
  · obtain ⟨current, t, hcheck, hcurrent, hindex⟩ := alone_contextIsCurrent c s reply
    rw [commit, Routine.bind_eq, Routine.alone_bind hcheck]
    cases current with
    | true => exact ⟨true, _, rfl, hcurrent, congrArg c.commit hindex⟩
    | false => exact ⟨false, _, rfl, hcurrent, hindex⟩
  · obtain ⟨hlookup, hdirty⟩ := Context.commitIn_perm hc.proper hf s.index
    exact ⟨Context.replaces_commitIn hc.proper hf s.index, hlookup, hdirty,
      Context.commitIn_again hc.proper (hf'.trans hf.symm) s.index⟩

/-- A run that has scanned a file and noted one of its imports. -/
def noteRun : Context :=
  Context.record { target := "m.sol", standing := .generation 1 0, scanned := ["m.sol"] }
    "m.sol" "./a.sol" "a.sol"

/-- A service whose index has an old record of the file, and one of another file. -/
def noteService : Service where
  settings := {}
  index := {
    path := "i"
    data := Table.ofList [("m.sol", Table.ofList [("./old.sol", "old.sol")]),
      ("z.sol", Table.ofList [("x", "y")])] }
  generations := Table.ofList [("m.sol", 1)]

/-- The old record is gone and the noted one is there, that of the other file has stayed, and the index is
marked as changed. -/
theorem commit_replaces_old : noteRun.Recorded ∧
    ∃ t, (commit noteRun).alone (fun _ => .error .exhausted) noteService = some (true, t) ∧
      t.index.lookup "m.sol" "./old.sol" = none ∧ t.index.lookup "m.sol" "./a.sol" = some "a.sol" ∧
      t.index.lookup "z.sol" "x" = some "y" ∧ t.index.dirty = true := by
  have hrecorded : noteRun.Recorded := ⟨_, [("m.sol", "./a.sol", "a.sol")], rfl, rfl⟩
  obtain ⟨⟨done, t, hrun, hdone, hindex⟩, horder⟩ := commit_replaces hrecorded noteService
    fun _ => .error .exhausted
  obtain rfl : done = true := hdone.mpr ⟨rfl, rfl⟩
  obtain ⟨hreplaces, -⟩ := horder _ _ (List.Perm.refl _) (List.reverse_perm _)
  have hscanned := hreplaces.committed "m.sol" (Or.inl List.mem_cons_self)
  refine ⟨hrecorded, t, hrun, ?_⟩
  rw [hindex, if_pos rfl, Context.commit_eq]
  refine ⟨?_, ?_, ?_, hreplaces.dirty.mpr (Or.inr ⟨"m.sol", "./a.sol", ?_⟩)⟩
  · rw [Index.lookup_eq, hscanned]
    rfl
  · rw [Index.lookup_eq, hscanned]
    rfl
  · rw [Index.lookup, hreplaces.others "z.sol" (by decide)]
    rfl
  · rw [hscanned]
    decide

end Bundle

end SourceBundle
