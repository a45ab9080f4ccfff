/-
# The document of the records

The document that is written for some records is read back as the same records.  It lists them in the
order of the names, and so the records that are read come in this order, in whichever they came before.
-/
import SourceBundle.Index.Data
import SourceBundle.Proofs.Json.RoundTrip
import SourceBundle.Proofs.Sort

namespace SourceBundle

/-! ## Tables in the order of their keys -/

namespace Table

variable {β : Type}

/-- A table in the order of its keys. -/
def ordered (t : Table String β) : Table String β :=
  ⟨t.sorted, ((perm_sortBy _ t.entries).map Prod.fst).nodup_iff.mpr t.distinct⟩

@[simp] lemma get?_ordered (t : Table String β) (k : String) : t.ordered.get? k = t.get? k :=
  look_perm (perm_sortBy _ t.entries) t.distinct k

/-- The keys of an ordered table ascend. -/
lemma pairwise_ordered (t : Table String β) :
    t.ordered.entries.Pairwise fun a b => a.1 < b.1 := by
  let le (a b : String × β) : Bool := decide (a.1 ≤ b.1)
  have htotal : Std.Total fun a b => le a b = true := ⟨fun a b => by
    simpa [le] using le_total a.1 b.1⟩
  have htrans : IsTrans (String × β) fun a b => le a b = true := ⟨fun a b c hab hbc => by
    simp only [le, decide_eq_true_eq] at hab hbc ⊢
    exact hab.trans hbc⟩
  have hle : t.sorted.Pairwise fun a b => le a b = true := by
    rw [sorted, sortBy_eq_insertionSort]
    exact List.pairwise_insertionSort _ _
  have hne : t.sorted.Pairwise fun a b => a.1 ≠ b.1 := List.pairwise_map.mp t.ordered.distinct
  refine hle.imp₂ (fun a b hab hne => ?_) hne
  exact lt_of_le_of_ne (of_decide_eq_true hab) hne

variable {α γ : Type} [DecidableEq α]

@[simp] lemma get?_map (f : β → γ) (t : Table α β) (k : α) : (t.map f).get? k = (t.get? k).map f :=
  look_map f k t.entries

lemma foldl_insert_of_nodup {es : List (α × β)} {t : Table α β}
    (hd : ((t.entries ++ es).map Prod.fst).Nodup) :
    (es.foldl (fun t e => t.insert e.1 e.2) t).entries = t.entries ++ es := by
  induction es generalizing t with
  | nil => simp
  | cons e es ih =>
    have hnew : e.1 ∉ t.entries.map Prod.fst := by
      rw [List.map_append, List.nodup_append] at hd
      exact fun h => hd.2.2 _ h _ (List.mem_cons_self ..) rfl
    have hentries : (t.insert e.1 e.2).entries = t.entries ++ [e] := put_of_not_mem hnew e.2
    rw [List.foldl_cons, ih (by simpa [hentries] using hd), hentries, List.append_assoc,
      List.singleton_append]

/-- Entries with distinct keys are entered as they are. -/
lemma ofList_of_nodup {es : List (α × β)} (hd : (es.map Prod.fst).Nodup) : ofList es = ⟨es, hd⟩ :=
  ext_entries (foldl_insert_of_nodup (t := empty) hd)

end Table

namespace IndexData

open Json

/-- The records in the order of the names. -/
def ordered (d : IndexData) : IndexData := (Table.ordered d).map Table.ordered

/-- Two records are the same maps: they have the same source files, and for each of them the same imports
with the same paths. -/
def Same (d d' : IndexData) : Prop :=
  ∀ source, Option.Rel (fun t t' => ∀ literal, t.get? literal = t'.get? literal) (d.get? source)
    (d'.get? source)

/-- The value that is written for the imports of a file. -/
def valueOf (t : Table String String) : Json := .object (t.sorted.map fun e => (e.1, .text e.2))

lemma readsValue_imports (depth : Nat) (t : Table String String) :
    ReadsValue (writeObject depth (t.sorted.map fun e => (e.1, writeText e.2))) (valueOf t) := by
  have hd : ((t.sorted.map fun e => (e.1, writeText e.2, Json.text e.2)).map Prod.fst).Nodup := by
    rw [List.map_map]
    exact t.ordered.distinct
  have hv : ∀ m ∈ t.sorted.map fun e => (e.1, writeText e.2, Json.text e.2),
      ReadsValue m.2.1 m.2.2 := by
    intro m hm
    obtain ⟨e, -, rfl⟩ := List.mem_map.mp hm
    exact readsValue_writeText e.2
  simpa [valueOf, Function.comp_def] using readsValue_writeObject depth hv hd

lemma read_render (d : IndexData) :
    Json.read d.render = .ok (.object (d.sorted.map fun e => (e.1, valueOf e.2))) := by
  let write (t : Table String String) := writeObject 1 (t.sorted.map fun e => (e.1, writeText e.2))
  have hd : ((d.sorted.map fun e => (e.1, write e.2, valueOf e.2)).map Prod.fst).Nodup := by
    rw [List.map_map]
    exact (Table.ordered d).distinct
  have hv : ∀ m ∈ d.sorted.map fun e => (e.1, write e.2, valueOf e.2), ReadsValue m.2.1 m.2.2 := by
    intro m hm
    obtain ⟨e, -, rfl⟩ := List.mem_map.mp hm
    exact readsValue_imports 1 e.2
  have h := readsValue_writeObject 0 hv hd
  rw [List.map_map, List.map_map] at h
  exact h.read_eq (by cases d.sorted <;> simp [writeObject])

lemma mapping?_valueOf (t : Table String String) : mapping? (valueOf t) = some t.ordered := by
  have hms : (t.sorted.map fun e => (e.1, Json.text e.2)).mapM
      (fun m => m.2.text?.map fun v => (m.1, v)) = some t.sorted := by
    rw [List.mapM_map]
    exact List.mapM_pure.trans (congrArg some (List.map_id _))
  simp only [mapping?, valueOf, members?, Option.bind_eq_bind, Option.bind_some, hms]
  exact congrArg some (Table.ofList_of_nodup t.ordered.distinct)

lemma ofMembers_values (d : IndexData) :
    ofMembers (d.sorted.map fun e => (e.1, valueOf e.2)) = .ok d.ordered := by
  have hd : ((d.sorted.map fun e => (e.1, e.2.ordered)).map Prod.fst).Nodup := by
    rw [List.map_map]
    exact (Table.ordered d).distinct
  rw [ofMembers, List.mapM_map]
  simp only [Function.comp_def, mapping?_valueOf]
  rw [show List.mapM (fun e : String × Table String String => Except.ok (e.1, e.2.ordered)) d.sorted =
    Except.ok (d.sorted.map fun e => (e.1, e.2.ordered)) from List.mapM_pure]
  exact congrArg Except.ok (Table.ofList_of_nodup hd)

/-- The document of some records denotes the records in the order of their names. -/
theorem parse_render (d : IndexData) : parse d.render = .ok d.ordered := by
  rw [parse, read_render]
  exact ofMembers_values d

@[refl] lemma Same.refl (d : IndexData) : d.Same d := by
  intro source
  cases d.get? source with
  | none => exact .none
  | some t => exact .some fun _ => rfl

/-- In another order records are the same maps. -/
theorem same_ordered (d : IndexData) : d.ordered.Same d := by
  intro source
  have hget : d.ordered.get? source = (d.get? source).map Table.ordered := by
    rw [ordered, Table.get?_map, Table.get?_ordered]
  rw [hget]
  cases d.get? source with
  | none => exact .none
  | some t => exact .some fun literal => t.get?_ordered literal

/-- Whatever texts some records consist of, their document is read back, and as the same maps. -/
theorem exists_parse_render (d : IndexData) : ∃ d', parse d.render = .ok d' ∧ d'.Same d :=
  ⟨d.ordered, parse_render d, same_ordered d⟩

end IndexData

end SourceBundle
