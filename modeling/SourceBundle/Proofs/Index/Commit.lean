/-
# What a load and a commit do to the index

A load adds the records of the file for what has no record yet.  A commit replaces the records of
the files that its run has scanned by those of the run, and leaves those of all other files alone.
To commit once more changes nothing.
-/
import Mathlib.Data.List.Perm.Basic
import SourceBundle.Bundle.Context
import SourceBundle.Proofs.Table

namespace SourceBundle

/-! ## Tables of records -/

lemma Table.perm_keys {α β : Type} [DecidableEq α] {s t : Table α β}
    (h : ∀ k, s.get? k = t.get? k) : s.keys.Perm t.keys := by
  refine (List.perm_ext_iff_of_nodup s.distinct t.distinct).mpr fun k => ?_
  show k ∈ s.keys ↔ k ∈ t.keys
  rw [← Table.contains_iff, ← Table.contains_iff, Table.contains, Table.contains, h]

namespace Index

lemma get?_eq_of_sameRecords {s t : Table String String} (h : sameRecords s t = true) (k : String) :
    s.get? k = t.get? k := by
  simp only [sameRecords, Bool.and_eq_true, beq_iff_eq, List.all_eq_true] at h
  obtain ⟨hsize, hall⟩ := h
  have hvalue : ∀ {k v}, s.get? k = some v → t.get? k = some v := fun hv =>
    hall _ (Table.get?_eq_some_iff.mp hv)
  -- the keys of `s` are among those of `t` and as many, so they are the same
  have hsub : s.keys ⊆ t.keys := fun k hk => by
    obtain ⟨v, hv⟩ := Table.get?_isSome_iff.mpr hk
    exact Table.get?_isSome_iff.mp ⟨v, hvalue hv⟩
  have hlength : t.keys.length ≤ s.keys.length := by
    simpa [Table.keys, Table.size] using Nat.le_of_eq hsize.symm
  have hperm := (List.subperm_of_subset s.distinct hsub).perm_of_length_le hlength
  cases hs : s.get? k with
  | some v => exact (hvalue hs).symm
  | none =>
    have hk : k ∉ s.keys := fun hk => by
      obtain ⟨v, hv⟩ := Table.get?_isSome_iff.mpr hk
      rw [hs] at hv
      cases hv
    cases ht : t.get? k with
    | none => rfl
    | some v => exact absurd (hperm.mem_iff.mpr (Table.get?_isSome_iff.mp ⟨v, ht⟩)) hk

/-- Two tables hold the same records if they have the same values. -/
theorem sameRecords_iff {s t : Table String String} :
    sameRecords s t = true ↔ ∀ k, s.get? k = t.get? k := by
  refine ⟨get?_eq_of_sameRecords, fun h => ?_⟩
  have hlength := (Table.perm_keys h).length_eq
  simp only [Table.keys, List.length_map] at hlength
  simp only [sameRecords, Bool.and_eq_true, beq_iff_eq, List.all_eq_true]
  exact ⟨hlength, fun e he => (h e.1).symm.trans (Table.get?_eq_some_iff.mpr he)⟩

/-! ## Changes of the index -/

variable {i : Index} {file literal path : String}

lemma lookup_eq (i : Index) (file literal : String) :
    i.lookup file literal = (i.recordsOf file).get? literal := by
  unfold lookup recordsOf
  cases i.data.get? file <;> rfl

lemma lookup_record (i : Index) (file literal path f l : String) :
    (i.record file literal path).lookup f l =
      if file = f ∧ literal = l ∧ literal ≠ path then some path else i.lookup f l := by
  unfold record
  by_cases hid : literal = path
  · simp [hid]
  · rw [if_neg hid]
    dsimp only
    split
    · next hsame =>
      split
      · next h =>
        obtain ⟨rfl, rfl, -⟩ := h
        rw [lookup_eq, hsame]
      · rfl
    · by_cases hf : file = f
      · subst hf
        by_cases hl : literal = l
        · subst hl
          simp [lookup, hid]
        · have hne := Table.get?_insert_ne (i.recordsOf file) hl path
          simp only [lookup, Table.get?_insert_self, Option.bind_some, hne, hl, false_and, and_false,
            if_false]
          exact (lookup_eq i file l).symm
      · simp [lookup, Table.get?_insert_ne _ hf, hf]

lemma lookup_clear (i : Index) (file f l : String) :
    (i.clear file).lookup f l = if file = f then none else i.lookup f l := by
  unfold clear
  by_cases hf : file = f
  · subst hf
    rw [if_pos rfl]
    split
    · simp [lookup]
    · next h =>
      have hnone : i.data.get? file = none := by simpa [Table.contains] using h
      simp [lookup, hnone]
  · rw [if_neg hf]
    split
    · simp [lookup, Table.get?_erase_ne _ hf]
    · rfl

/-- To record some imports of a file adds their paths; of imports that resolved to themselves
nothing is recorded. -/
lemma lookup_foldl_record {es : List (String × String)} (hd : (es.map Prod.fst).Nodup)
    (hp : ∀ e ∈ es, e.1 ≠ e.2) (i : Index) (file f l : String) :
    (es.foldl (fun i e => i.record file e.1 e.2) i).lookup f l =
      if file = f then (Table.look l es).or (i.lookup f l) else i.lookup f l := by
  induction es generalizing i with
  | nil => simp [Table.look]
  | cons e es ih =>
    rw [List.map_cons, List.nodup_cons] at hd
    have hne : e.1 ≠ e.2 := hp e List.mem_cons_self
    rw [List.foldl_cons, ih hd.2 (fun e he => hp e (List.mem_cons_of_mem _ he)), lookup_record]
    by_cases hf : file = f
    · by_cases hl : e.1 = l
      · have hnot : Table.look l es = none := by
          rw [← Option.not_isSome_iff_eq_none, Table.isSome_look, ← hl]
          exact hd.1
        simp [Table.look, hf, hl ▸ hne, hl, hnot]
      · simp [Table.look, hf, hl]
    · simp [hf]

/-- Nothing but the records has changed. -/
def Rewritten (i j : Index) : Prop := j = { i with data := j.data, dirty := j.dirty }

instance : IsPreorder Index Rewritten where
  refl _ := rfl
  trans i j k h h' := by
    rw [Rewritten] at h h' ⊢
    rw [h', h]

lemma rewritten_foldl {α : Type} {f : Index → α → Index} (hf : ∀ i a, (i : Index).Rewritten (f i a))
    (as : List α) (i : Index) : i.Rewritten (as.foldl f i) := by
  induction as generalizing i with
  | nil => exact refl_of Rewritten i
  | cons a as ih => exact trans_of Rewritten (hf i a) (ih (f i a))

lemma rewritten_record (i : Index) (file literal path : String) :
    i.Rewritten (i.record file literal path) := by
  unfold record
  split
  · exact refl_of Rewritten i
  · dsimp only
    split
    · exact refl_of Rewritten i
    · rfl

lemma rewritten_clear (i : Index) (file : String) : i.Rewritten (i.clear file) := by
  unfold clear
  split
  · rfl
  · exact refl_of Rewritten i

lemma rewritten_replace (i : Index) (file : String) (records : Table String String) :
    i.Rewritten (i.replace file records) := by
  unfold replace
  split
  · exact refl_of Rewritten i
  · exact trans_of Rewritten (i.rewritten_clear file)
      (rewritten_foldl (fun i (e : String × String) => i.rewritten_record file e.1 e.2) _ _)

/-- To replace the records of a file makes them those that are given. -/
theorem lookup_replace {records : Table String String}
    (hp : ∀ l p, records.get? l = some p → l ≠ p) (i : Index) (file f l : String) :
    (i.replace file records).lookup f l =
      if file = f then records.get? l else i.lookup f l := by
  unfold replace
  split
  · next hsame =>
    split
    · next hf =>
      subst hf
      rw [lookup_eq]
      exact sameRecords_iff.mp hsame l
    · rfl
  · have hp' : ∀ e ∈ records.entries, e.1 ≠ e.2 := fun e he => hp _ _ (Table.get?_eq_some_iff.mpr he)
    rw [lookup_foldl_record records.distinct hp', lookup_clear]
    by_cases hf : file = f
    · simp [hf, Table.get?]
    · simp [hf]

/-- Nothing is replaced by records that are there. -/
lemma replace_eq_self {records : Table String String}
    (h : ∀ l, i.lookup file l = records.get? l) : i.replace file records = i :=
  if_pos (sameRecords_iff.mpr fun l => by rw [← lookup_eq, h])

end Index

/-! ## Loads -/

/-- The path that some records have for an import of a file. -/
def IndexData.find? (d : IndexData) (file literal : String) : Option String :=
  (d.get? file).bind (·.get? literal)

/-- To enter the records of one file into some records: those that are entered win. -/
lemma IndexData.find?_update (d : IndexData) (file : String) (t : Table String String)
    (f l : String) : (IndexData.find? (d.update file ∅ fun u => u.merge t) f l) =
      if file = f then (t.get? l).or (d.find? f l) else d.find? f l := by
  by_cases hf : file = f
  · subst hf
    rw [if_pos rfl, find?, Table.get?_update_self, Option.bind_some, Table.get?_merge, find?]
    cases d.get? file <;> rfl
  · rw [if_neg hf, find?, Table.get?_update_ne _ hf, find?]

/-- After a load, the index has for every import what it had, and else what the file has. -/
theorem Index.find?_overlay (persisted current : IndexData) (file literal : String) :
    (overlay persisted current).find? file literal =
      (current.find? file literal).or (persisted.find? file literal) := by
  have hfold : ∀ (es : List (String × Table String String)), (es.map Prod.fst).Nodup →
      ∀ d : IndexData, IndexData.find?
        (es.foldl (fun d e => d.update e.1 ∅ fun t => t.merge e.2) d) file literal =
          ((Table.look file es).bind (·.get? literal)).or (d.find? file literal) := by
    intro es hd
    induction es with
    | nil => exact fun d => rfl
    | cons e es ih =>
      intro d
      rw [List.map_cons, List.nodup_cons] at hd
      rw [List.foldl_cons, ih hd.2, IndexData.find?_update]
      by_cases hf : e.1 = file
      · have hnot : Table.look file es = none := by
          rw [← Option.not_isSome_iff_eq_none, Table.isSome_look, ← hf]
          exact hd.1
        simp [Table.look, hf, hnot]
      · simp [Table.look, hf]
  exact hfold current.entries current.distinct persisted

/-! ## Commits -/

namespace Context

variable {c : Context}

/-- What a run has recorded for an import of a file. -/
def recordOf (c : Context) (file literal : String) : Option String :=
  ((c.records.get? file).getD ∅).get? literal

/-- No import is recorded as resolved to itself. -/
def Proper (c : Context) : Prop := ∀ file literal path, c.recordOf file literal = some path →
  literal ≠ path

lemma mem_committedFiles {file : String} :
    file ∈ c.committedFiles ↔ file ∈ c.scanned ∨ file ∈ c.records.keys := by
  simp only [committedFiles, List.mem_append, List.mem_filter, Bool.not_eq_true',
    List.contains_eq_mem, decide_eq_false_iff_not]
  tauto

lemma lookup_foldl_replace (hc : c.Proper) (files : List String) (i : Index) (f l : String) :
    (files.foldl (fun i f => i.replace f ((c.records.get? f).getD ∅)) i).lookup f l =
      if f ∈ files then c.recordOf f l else i.lookup f l := by
  induction files generalizing i with
  | nil => simp
  | cons file files ih =>
    rw [List.foldl_cons, ih, Index.lookup_replace (hc file)]
    by_cases hf : file = f
    · subst hf
      simp [recordOf]
    · have hf' : f ≠ file := fun e => hf e.symm
      simp [hf, hf']

/-- After a commit, the index has what the run recorded for the files that it committed, and what
was there for all others. -/
theorem lookup_commit (hc : c.Proper) (i : Index) (file literal : String) :
    (c.commit i).lookup file literal =
      if file ∈ c.committedFiles then c.recordOf file literal else i.lookup file literal :=
  lookup_foldl_replace hc _ i file literal

lemma rewritten_commit (c : Context) (i : Index) : i.Rewritten (c.commit i) :=
  Index.rewritten_foldl (fun i f => i.rewritten_replace f _) _ i

/-- A commit changes nothing where all that it commits is there. -/
theorem commit_eq_self {i : Index}
    (hi : ∀ file ∈ c.committedFiles, ∀ l, i.lookup file l = c.recordOf file l) : c.commit i = i := by
  have hfold : ∀ files ⊆ c.committedFiles,
      files.foldl (fun i f => i.replace f ((c.records.get? f).getD ∅)) i = i := by
    intro files hfiles
    induction files with
    | nil => rfl
    | cons file files ih =>
      rw [List.foldl_cons, Index.replace_eq_self (hi file (hfiles List.mem_cons_self))]
      exact ih fun f hf => hfiles (List.mem_cons_of_mem _ hf)
  exact hfold _ (List.Subset.refl _)

/-- To commit once more changes nothing, whatever has become of the rest of the index. -/
theorem commit_again (hc : c.Proper) {i j : Index} (hj : j.data = (c.commit i).data) :
    c.commit j = j := by
  refine commit_eq_self fun file hfile l => ?_
  have hlookup : j.lookup file l = (c.commit i).lookup file l := by
    rw [Index.lookup, hj, Index.lookup]
  rw [hlookup, lookup_commit hc, if_pos hfile]

end Context

end SourceBundle
