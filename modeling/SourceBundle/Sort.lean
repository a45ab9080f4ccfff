/-
# Sorting

A list is sorted by inserting its elements one after the other.  Elements that the order does not
tell apart stay in the order in which they came.
-/

namespace SourceBundle

variable {α : Type}

/-- Insert an element into a sorted list, before all elements that it may stand before. -/
def insertSorted (le : α → α → Bool) (a : α) : List α → List α
  | [] => [a]
  | b :: bs => if le a b then a :: b :: bs else b :: insertSorted le a bs

/-- The elements of a list in an order. -/
def sortBy (le : α → α → Bool) : List α → List α
  | [] => []
  | a :: as => insertSorted le a (sortBy le as)

@[simp] theorem sortBy_nil (le : α → α → Bool) : sortBy le [] = [] := rfl

end SourceBundle
