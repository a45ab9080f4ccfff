/-
# Finite maps in insertion order

A table is a list of entries with distinct keys.  Replacing a value keeps the position of its key,
and a new key is added at the end, so that walking a table visits the keys in the order in which
they first came.
-/
import SourceBundle.Sort

namespace SourceBundle

/-- A finite map that remembers the order in which its keys were added. -/
structure Table (α β : Type) where
  /-- The entries, oldest key first. -/
  entries : List (α × β)
  /-- No key is entered twice. -/
  distinct : (entries.map Prod.fst).Nodup

namespace Table

variable {α β γ : Type}

/-- The table without entries. -/
def empty : Table α β := ⟨[], List.nodup_nil⟩

instance : EmptyCollection (Table α β) := ⟨empty⟩

instance : Inhabited (Table α β) := ⟨empty⟩

/-- Two tables are equal when they hold the same entries in the same order. -/
theorem ext_entries {s t : Table α β} (h : s.entries = t.entries) : s = t := by
  cases s; cases t; cases h; rfl

instance [DecidableEq α] [DecidableEq β] : DecidableEq (Table α β) := fun s t =>
  if h : s.entries = t.entries then isTrue (ext_entries h) else isFalse fun e => h (e ▸ rfl)

/-- The keys, oldest first. -/
def keys (t : Table α β) : List α := t.entries.map Prod.fst

/-- The values, in the order of their keys. -/
def values (t : Table α β) : List β := t.entries.map Prod.snd

/-- The number of entries. -/
def size (t : Table α β) : Nat := t.entries.length

/-- The entries of a table with texts as keys, in the order of the keys. -/
def sorted (t : Table String β) : List (String × β) :=
  sortBy (fun a b => decide (a.1 ≤ b.1)) t.entries

/-- Whether there is no entry. -/
def isEmpty (t : Table α β) : Bool := t.entries.isEmpty

variable [DecidableEq α]

/-- The value of a key in a list of entries. -/
def look (k : α) : List (α × β) → Option β
  | [] => none
  | (k', v) :: rest => if k' = k then some v else look k rest

/-- Enter a value into a list of entries, replacing the one that the key has. -/
def put (k : α) (v : β) : List (α × β) → List (α × β)
  | [] => [(k, v)]
  | (k', v') :: rest => if k' = k then (k', v) :: rest else (k', v') :: put k v rest

theorem map_fst_put (k : α) (v : β) (es : List (α × β)) :
    (put k v es).map Prod.fst = if k ∈ es.map Prod.fst then es.map Prod.fst
      else es.map Prod.fst ++ [k] := by
  induction es with
  | nil => simp [put]
  | cons e rest ih =>
    obtain ⟨k', v'⟩ := e
    by_cases h : k' = k
    · simp [put, h]
    · have h' : ¬ k = k' := fun e => h e.symm
      simp only [put, h, if_false, List.map_cons, ih, List.mem_cons, h', false_or]
      split <;> simp

theorem nodup_put {k : α} {v : β} {es : List (α × β)} (h : (es.map Prod.fst).Nodup) :
    ((put k v es).map Prod.fst).Nodup := by
  rw [map_fst_put]
  split
  · exact h
  · next hk =>
    rw [List.nodup_append]
    refine ⟨h, by simp, ?_⟩
    intro a ha b hb
    rw [List.mem_singleton] at hb
    rintro rfl
    exact hk (hb ▸ ha)

/-- The value of a key. -/
def get? (t : Table α β) (k : α) : Option β := look k t.entries

/-- Whether a key is entered. -/
def contains (t : Table α β) (k : α) : Bool := (t.get? k).isSome

/-- The table with a value entered; a key that is there already keeps its position. -/
def insert (t : Table α β) (k : α) (v : β) : Table α β :=
  ⟨put k v t.entries, nodup_put t.distinct⟩

/-- The table with a value entered unless the key has one already. -/
def insertNew (t : Table α β) (k : α) (v : β) : Table α β :=
  if t.contains k then t else t.insert k v

/-- The table without a key. -/
def erase (t : Table α β) (k : α) : Table α β :=
  ⟨t.entries.filter fun e => decide (e.1 ≠ k),
    t.distinct.sublist ((List.filter_sublist).map Prod.fst)⟩

/-- The table with the value of a key changed; a key that has none starts from `init`. -/
def update (t : Table α β) (k : α) (init : β) (f : β → β) : Table α β :=
  t.insert k (f ((t.get? k).getD init))

/-- The table that arises by entering a list of entries one after the other. -/
def ofList (es : List (α × β)) : Table α β := es.foldl (fun t e => t.insert e.1 e.2) empty

/-- The table of the images of the values. -/
def map (f : β → γ) (t : Table α β) : Table α γ :=
  ⟨t.entries.map fun e => (e.1, f e.2), by
    rw [List.map_map]; exact t.distinct⟩

/-- Enter all entries of a second table into the first. -/
def merge (t u : Table α β) : Table α β := u.entries.foldl (fun t e => t.insert e.1 e.2) t

end Table

end SourceBundle
