/-
# Keys in their order

The packages that a level needs come without repetition and in the order of their keys.
-/
import Mathlib.Data.List.Sort
import Mathlib.Data.String.Basic
import SourceBundle.PackageKey
import SourceBundle.Table

namespace SourceBundle

lemma insertSorted_eq_orderedInsert {α : Type} (le : α → α → Bool) (a : α) (l : List α) :
    insertSorted le a l = l.orderedInsert (fun a b => le a b = true) a := by
  induction l with
  | nil => rfl
  | cons b l ih =>
    simp only [insertSorted, List.orderedInsert_cons]
    rw [ih]

lemma sortBy_eq_insertionSort {α : Type} (le : α → α → Bool) (l : List α) :
    sortBy le l = l.insertionSort fun a b => le a b = true := by
  induction l with
  | nil => rfl
  | cons a l ih =>
    rw [sortBy, ih, List.insertionSort_cons]
    exact insertSorted_eq_orderedInsert le a _

lemma perm_sortBy {α : Type} (le : α → α → Bool) (l : List α) : (sortBy le l).Perm l := by
  rw [sortBy_eq_insertionSort]
  exact List.perm_insertionSort _ l

/-- A table in the order of its keys has the same entries. -/
lemma Table.mem_sorted {β : Type} {t : Table String β} {e : String × β} :
    e ∈ t.sorted ↔ e ∈ t.entries :=
  (perm_sortBy _ t.entries).mem_iff

lemma nodup_eraseDups {α : Type} [DecidableEq α] (l : List α) : l.eraseDups.Nodup := by
  induction hn : l.length using Nat.strongRecOn generalizing l with
  | _ n ih =>
    cases l with
    | nil => exact List.nodup_nil
    | cons a l =>
      rw [List.eraseDups_cons, List.nodup_cons]
      subst hn
      refine ⟨fun hmem => ?_, ih _ ?_ _ rfl⟩
      · have h := (List.mem_filter.mp (List.mem_eraseDups.mp hmem)).2
        simp at h
      · exact Nat.lt_succ_of_le (List.length_filter_le _ l)

namespace PackageKey

lemma le_iff {a b : PackageKey} :
    a.le b = true ↔ a.name < b.name ∨ a.name = b.name ∧ a.version ≤ b.version := by
  simp [le]

lemma le_self (a : PackageKey) : a.le a = true := le_iff.mpr (Or.inr ⟨rfl, le_refl a.version⟩)

instance : Std.Total fun a b : PackageKey => a.le b = true where
  total a b := by
    rw [le_iff, le_iff]
    rcases lt_trichotomy a.name b.name with h | h | h
    · exact Or.inl (Or.inl h)
    · exact (le_total a.version b.version).imp (fun hv => Or.inr ⟨h, hv⟩) fun hv =>
        Or.inr ⟨h.symm, hv⟩
    · exact Or.inr (Or.inl h)

instance : IsTrans PackageKey fun a b => a.le b = true where
  trans a b c hab hbc := by
    rw [le_iff] at hab hbc ⊢
    rcases hab with hab | ⟨hab, hv⟩
    · left
      rcases hbc with hbc | ⟨hbc, -⟩
      · exact hab.trans hbc
      · exact hbc ▸ hab
    · rcases hbc with hbc | ⟨hbc, hv'⟩
      · exact Or.inl (hab ▸ hbc)
      · exact Or.inr ⟨hab.trans hbc, hv.trans hv'⟩

lemma perm_sort (keys : List PackageKey) : (sort keys).Perm keys := perm_sortBy le keys

/-- Sorted keys stand in their order. -/
lemma pairwise_sort (keys : List PackageKey) : (sort keys).Pairwise fun a b => a.le b = true := by
  rw [sort, sortBy_eq_insertionSort]
  exact List.pairwise_insertionSort _ keys

end PackageKey

end SourceBundle
