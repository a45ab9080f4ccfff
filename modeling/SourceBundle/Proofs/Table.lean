/-
# Laws of tables

What entering a value does to the values, the keys and the order of a table.
-/
import Mathlib.Tactic.Common
import SourceBundle.Table

namespace SourceBundle.Table

variable {α β γ : Type} [DecidableEq α]

lemma look_put_self (k : α) (v : β) (es : List (α × β)) : look k (put k v es) = some v := by
  induction es with
  | nil => simp [put, look]
  | cons e es ih =>
    obtain ⟨k', v'⟩ := e
    by_cases h : k' = k
    · simp [put, look, h]
    · simp [put, look, h, ih]

lemma look_put_ne {k k' : α} (h : k ≠ k') (v : β) (es : List (α × β)) :
    look k' (put k v es) = look k' es := by
  induction es with
  | nil => simp [put, look, h]
  | cons e es ih =>
    obtain ⟨k'', v''⟩ := e
    by_cases hk : k'' = k
    · subst hk
      simp [put, look, h]
    · simp [put, look, hk, ih]

lemma look_append {k : α} {v : β} {es : List (α × β)} (h : look k es = some v)
    (fs : List (α × β)) : look k (es ++ fs) = some v := by
  induction es with
  | nil => simp [look] at h
  | cons e es ih =>
    obtain ⟨k', v'⟩ := e
    by_cases hk : k' = k
    · simpa [look, hk] using h
    · simp only [look, hk, if_false, List.cons_append] at h ⊢
      exact ih h

lemma put_of_not_mem {k : α} {es : List (α × β)} (h : k ∉ es.map Prod.fst) (v : β) :
    put k v es = es ++ [(k, v)] := by
  induction es with
  | nil => rfl
  | cons e es ih =>
    obtain ⟨k', v'⟩ := e
    rw [List.map_cons, List.mem_cons, not_or] at h
    have hk : ¬ k' = k := fun e => h.1 e.symm
    simp [put, hk, ih h.2]

lemma isSome_look {k : α} {es : List (α × β)} : (look k es).isSome = true ↔ k ∈ es.map Prod.fst := by
  induction es with
  | nil => simp [look]
  | cons e es ih =>
    obtain ⟨k', v'⟩ := e
    by_cases h : k' = k
    · simp [look, h]
    · have h' : ¬ k = k' := fun e => h e.symm
      simp [look, h, h', ih]

lemma look_eq_some_iff {k : α} {v : β} {es : List (α × β)} (hd : (es.map Prod.fst).Nodup) :
    look k es = some v ↔ (k, v) ∈ es := by
  induction es with
  | nil => simp [look]
  | cons e es ih =>
    obtain ⟨k', v'⟩ := e
    rw [List.map_cons, List.nodup_cons] at hd
    by_cases h : k' = k
    · subst h
      have hnot : (k', v) ∉ es := fun hm => hd.1 (List.mem_map.mpr ⟨_, hm, rfl⟩)
      simp [look, hnot, eq_comm]
    · have h' : ¬ k = k' := fun e => h e.symm
      simp [look, h, h', ih hd.2]

/-- A key has the same value in two lists that hold the same entries. -/
lemma look_perm {es fs : List (α × β)} (h : es.Perm fs) (hd : (fs.map Prod.fst).Nodup) (k : α) :
    look k es = look k fs := by
  have hd' : (es.map Prod.fst).Nodup := (h.map Prod.fst).nodup_iff.mpr hd
  refine Option.ext fun v => ?_
  rw [look_eq_some_iff hd', look_eq_some_iff hd, h.mem_iff]

lemma look_map (f : β → γ) (k : α) (es : List (α × β)) :
    look k (es.map fun e => (e.1, f e.2)) = (look k es).map f := by
  induction es with
  | nil => rfl
  | cons e es ih =>
    simp only [List.map_cons, look, ih]
    split <;> rfl

@[simp] theorem get?_empty (k : α) : (∅ : Table α β).get? k = none := rfl

@[simp] theorem get?_insert_self (t : Table α β) (k : α) (v : β) :
    (t.insert k v).get? k = some v :=
  look_put_self k v t.entries

theorem get?_insert_ne (t : Table α β) {k k' : α} (h : k ≠ k') (v : β) :
    (t.insert k v).get? k' = t.get? k' :=
  look_put_ne h v t.entries

@[simp] theorem get?_update_self (t : Table α β) (k : α) (init : β) (f : β → β) :
    (t.update k init f).get? k = some (f ((t.get? k).getD init)) :=
  get?_insert_self t k _

theorem get?_update_ne (t : Table α β) {k k' : α} (h : k ≠ k') (init : β) (f : β → β) :
    (t.update k init f).get? k' = t.get? k' :=
  get?_insert_ne t h _

/-- The values of a table are those of its entries. -/
theorem get?_eq_some_iff {t : Table α β} {k : α} {v : β} : t.get? k = some v ↔ (k, v) ∈ t.entries :=
  look_eq_some_iff t.distinct

@[simp] theorem get?_erase_self (t : Table α β) (k : α) : (t.erase k).get? k = none := by
  rw [Option.eq_none_iff_forall_ne_some]
  intro v hv
  simpa [erase] using get?_eq_some_iff.mp hv

theorem get?_erase_ne (t : Table α β) {k k' : α} (h : k ≠ k') : (t.erase k).get? k' = t.get? k' := by
  refine Option.ext fun v => ?_
  have h' : k' ≠ k := fun e => h e.symm
  simp [get?_eq_some_iff, erase, h']

/-- A value that is there stays when entries are added at the end. -/
theorem get?_of_prefix {t t' : Table α β} (h : t.entries <+: t'.entries) {k : α} {v : β}
    (hv : t.get? k = some v) : t'.get? k = some v := by
  obtain ⟨more, hm⟩ := h
  unfold get?
  rw [← hm]
  exact look_append hv more

/-- Entering a list of entries one after the other gives their keys their values. -/
lemma get?_foldl_insert {es : List (α × β)} (hd : (es.map Prod.fst).Nodup) (t : Table α β) (k : α) :
    (es.foldl (fun t e => t.insert e.1 e.2) t).get? k = (look k es).or (t.get? k) := by
  induction es generalizing t with
  | nil => rfl
  | cons e es ih =>
    rw [List.map_cons, List.nodup_cons] at hd
    rw [List.foldl_cons, ih hd.2]
    by_cases hk : e.1 = k
    · have hnot : look k es = none := by
        rw [← Option.not_isSome_iff_eq_none, isSome_look, ← hk]
        exact hd.1
      simp [look, hk, hnot]
    · simp [look, hk, get?_insert_ne t hk]

theorem get?_merge (t u : Table α β) (k : α) : (t.merge u).get? k = (u.get? k).or (t.get? k) :=
  get?_foldl_insert u.distinct t k

theorem contains_iff {t : Table α β} {k : α} : t.contains k = true ↔ k ∈ t.keys := isSome_look

theorem get?_isSome_iff {t : Table α β} {k : α} : (∃ v, t.get? k = some v) ↔ k ∈ t.keys := by
  rw [← contains_iff, contains, Option.isSome_iff_exists]

@[simp] theorem get?_insertNew_self (t : Table α β) (k : α) (v : β) :
    (t.insertNew k v).get? k = some ((t.get? k).getD v) := by
  unfold insertNew contains
  cases h : t.get? k with
  | none => simp
  | some w => simpa using h

theorem get?_insertNew_ne (t : Table α β) {k k' : α} (h : k ≠ k') (v : β) :
    (t.insertNew k v).get? k' = t.get? k' := by
  unfold insertNew
  split
  · rfl
  · exact get?_insert_ne t h v

/-- A new key is added at the end. -/
theorem entries_insert_new {t : Table α β} {k : α} (h : ¬ t.contains k = true) (v : β) :
    (t.insert k v).entries = t.entries ++ [(k, v)] :=
  put_of_not_mem (fun hk => h (contains_iff.mpr hk)) v

end SourceBundle.Table
