/-
# Laws of cutting

A text is the part before its first separator, the separator, and the part after it.  So a cut is undone
by putting the parts together, and parts of which the first has no separator are found again.
-/
import Mathlib.Tactic.Common
import SourceBundle.Text.Cut

namespace SourceBundle.Text

variable {sep : Char} {cs front rest w : List Char}

/-! ## The first separator -/

/-- The parts of a cut, put together again. -/
lemma append_cutFirst (sep : Char) (cs : List Char) :
    (cutFirst sep cs).1 ++ (cutFirst sep cs).2.elim [] (sep :: ·) = cs := by
  induction cs with
  | nil => rfl
  | cons c cs ih =>
    by_cases hc : c = sep
    · simp [cutFirst, hc]
    · simpa [cutFirst, hc] using ih

/-- Nothing follows on the cut only if there is no separator. -/
lemma snd_cutFirst_eq_none : (cutFirst sep cs).2 = none ↔ sep ∉ cs := by
  induction cs with
  | nil => simp [cutFirst]
  | cons c cs ih =>
    by_cases hc : c = sep
    · simp [cutFirst, hc]
    · have hc' : ¬ sep = c := fun h => hc h.symm
      simpa [cutFirst, hc, hc'] using ih

/-- The first part has no separator. -/
lemma notMem_cutFirst (sep : Char) (cs : List Char) : sep ∉ (cutFirst sep cs).1 := by
  induction cs with
  | nil => exact List.not_mem_nil
  | cons c cs ih =>
    by_cases hc : c = sep
    · simp [cutFirst, hc]
    · simpa [cutFirst, hc, Ne.symm hc] using ih

lemma cutFirst_append (h : sep ∉ front) (rest : List Char) :
    cutFirst sep (front ++ sep :: rest) = (front, some rest) := by
  induction front with
  | nil => simp [cutFirst]
  | cons c front ih =>
    have hc : c ≠ sep := fun hc => h (hc ▸ List.mem_cons_self)
    have hfront : sep ∉ front := fun hm => h (List.mem_cons_of_mem c hm)
    rw [List.cons_append, cutFirst, if_neg hc, ih hfront]

lemma cutFirst_of_not_mem (h : sep ∉ cs) : cutFirst sep cs = (cs, none) := by
  induction cs with
  | nil => rfl
  | cons c cs ih =>
    have hc : c ≠ sep := fun hc => h (hc ▸ List.mem_cons_self)
    have hcs : sep ∉ cs := fun hm => h (List.mem_cons_of_mem c hm)
    rw [cutFirst, if_neg hc, ih hcs]

/-- Parts are found again if the second has no separator. -/
lemma append_cons_inj {front' rest' : List Char} (h : sep ∉ rest) (h' : sep ∉ rest')
    (heq : front ++ sep :: rest = front' ++ sep :: rest') : front = front' ∧ rest = rest' := by
  have hcut : ∀ front rest : List Char, sep ∉ rest →
      cutFirst sep (front ++ sep :: rest).reverse = (rest.reverse, some front.reverse) := by
    intro front rest hrest
    rw [List.reverse_append, List.reverse_cons, List.append_assoc, List.singleton_append]
    exact cutFirst_append (by simpa using hrest) front.reverse
  have hsame := hcut front rest h
  rw [heq, hcut front' rest' h', Prod.mk.injEq, Option.some.injEq, List.reverse_inj,
    List.reverse_inj] at hsame
  exact ⟨hsame.2.symm, hsame.1.symm⟩

/-! ## All separators -/

lemma pieces_of_not_mem (h : sep ∉ cs) : pieces sep cs = [cs] := by
  induction cs with
  | nil => rfl
  | cons c cs ih =>
    have hc : c ≠ sep := fun hc => h (hc ▸ List.mem_cons_self)
    have hcs : sep ∉ cs := fun hm => h (List.mem_cons_of_mem c hm)
    rw [pieces, if_neg hc, ih hcs]

lemma pieces_append (h : sep ∉ front) (rest : List Char) :
    pieces sep (front ++ sep :: rest) = front :: pieces sep rest := by
  induction front with
  | nil => simp [pieces]
  | cons c front ih =>
    have hc : c ≠ sep := fun hc => h (hc ▸ List.mem_cons_self)
    have hfront : sep ∉ front := fun hm => h (List.mem_cons_of_mem c hm)
    rw [List.cons_append, pieces, if_neg hc, ih hfront]

lemma pieces_ne_nil (sep : Char) (cs : List Char) : pieces sep cs ≠ [] := by
  cases cs with
  | nil => exact List.cons_ne_nil _ _
  | cons c cs =>
    rw [pieces]
    split
    · exact List.cons_ne_nil _ _
    · split <;> exact List.cons_ne_nil _ _

/-- The pieces of two texts with a separator between them. -/
lemma pieces_append_cons (sep : Char) (cs rest : List Char) :
    pieces sep (cs ++ sep :: rest) = pieces sep cs ++ pieces sep rest := by
  induction cs with
  | nil => simp [pieces]
  | cons c cs ih =>
    rw [List.cons_append, pieces, pieces, ih]
    split
    · rfl
    · obtain ⟨p, ps, hps⟩ := List.exists_cons_of_ne_nil (pieces_ne_nil sep cs)
      rw [hps]
      rfl

/-- What stands at the end of a text without a separator stands at the end of its last piece. -/
lemma exists_pieces_append (h : sep ∉ rest) (cs : List Char) :
    ∃ ps p, pieces sep (cs ++ rest) = ps ++ [p ++ rest] := by
  induction cs with
  | nil => exact ⟨[], [], pieces_of_not_mem h⟩
  | cons c cs ih =>
    obtain ⟨ps, p, hps⟩ := ih
    rw [List.cons_append, pieces, hps]
    split
    · exact ⟨[] :: ps, p, rfl⟩
    · cases ps with
      | nil => exact ⟨[], c :: p, rfl⟩
      | cons q qs => exact ⟨(c :: q) :: qs, p, rfl⟩

lemma pieces_eq_splitOn (sep : Char) (cs : List Char) : pieces sep cs = cs.splitOn sep := by
  induction cs with
  | nil => rfl
  | cons c cs ih =>
    rw [List.splitOn_cons_eq_if_modifyHead, pieces, ih]
    simp only [beq_iff_eq]
    split
    · rfl
    · obtain ⟨p, ps, hps⟩ := List.exists_cons_of_ne_nil (List.splitOn_ne_nil sep cs)
      rw [hps]
      rfl

/-- No piece has a separator. -/
lemma not_mem_pieces {sep : Char} {cs p : List Char} (hp : p ∈ pieces sep cs) : sep ∉ p := by
  induction cs generalizing p with
  | nil =>
    obtain rfl := List.mem_singleton.mp hp
    exact List.not_mem_nil
  | cons c cs ih =>
    rw [pieces] at hp
    split at hp
    · rcases List.mem_cons.mp hp with rfl | hp
      · exact List.not_mem_nil
      · exact ih hp
    · next hc =>
      cases hps : pieces sep cs with
      | nil =>
        rw [hps] at hp
        obtain rfl := List.mem_singleton.mp hp
        simpa using Ne.symm hc
      | cons q qs =>
        rw [hps] at hp
        rcases List.mem_cons.mp hp with rfl | hp
        · have hq := ih (hps ▸ List.mem_cons_self)
          simpa [hq] using Ne.symm hc
        · exact ih (hps ▸ List.mem_cons_of_mem q hp)

/-- The characters of a piece are characters of the text. -/
lemma subset_of_mem_pieces {sep : Char} {cs p : List Char} (hp : p ∈ pieces sep cs) : p ⊆ cs := by
  induction cs generalizing p with
  | nil => simp [List.mem_singleton.mp hp]
  | cons c cs ih =>
    rw [pieces] at hp
    split at hp
    · rcases List.mem_cons.mp hp with rfl | hp
      · exact List.nil_subset _
      · exact List.subset_cons_of_subset c (ih hp)
    · obtain ⟨q, qs, hqs⟩ := List.exists_cons_of_ne_nil (pieces_ne_nil sep cs)
      rw [hqs] at hp ih
      rcases List.mem_cons.mp hp with rfl | hp
      · exact List.cons_subset_cons c (ih List.mem_cons_self)
      · exact List.subset_cons_of_subset c (ih (List.mem_cons_of_mem q hp))

/-! ## The last separator -/

/-- A text that is cut is what stands before the separator and behind it. -/
lemma eq_of_cutLast? {sep : Char} {cs head tail : List Char} (h : cutLast? sep cs = some (head, tail)) :
    cs = head ++ sep :: tail := by
  induction cs generalizing head tail with
  | nil => exact nomatch h
  | cons c cs ih =>
    rw [cutLast?] at h
    split at h
    · next head' tail' hrest =>
      obtain ⟨rfl, rfl⟩ := Prod.mk.inj (Option.some.inj h)
      rw [List.cons_append, ← ih hrest]
    · split at h
      · next hc =>
        obtain ⟨rfl, rfl⟩ := Prod.mk.inj (Option.some.inj h)
        rw [hc, List.nil_append]
      · exact nomatch h

lemma cutLast?_of_not_mem (h : sep ∉ cs) : cutLast? sep cs = none := by
  induction cs with
  | nil => rfl
  | cons c cs ih =>
    have hc : c ≠ sep := fun hc => h (hc ▸ List.mem_cons_self)
    have hcs : sep ∉ cs := fun hm => h (List.mem_cons_of_mem c hm)
    simp [cutLast?, ih hcs, hc]

lemma not_mem_of_cutLast?_eq_none (h : cutLast? sep cs = none) : sep ∉ cs := by
  induction cs with
  | nil => exact List.not_mem_nil
  | cons c cs ih =>
    rw [cutLast?] at h
    split at h
    · exact nomatch h
    · next hrest =>
      split at h
      · exact nomatch h
      · next hc => simp [Ne.symm hc, ih hrest]

/-- The last part has no separator. -/
lemma not_mem_of_cutLast? {head tail : List Char} (h : cutLast? sep cs = some (head, tail)) :
    sep ∉ tail := by
  induction cs generalizing head with
  | nil => exact nomatch h
  | cons c cs ih =>
    rw [cutLast?] at h
    split at h
    · next head' tail' hrest =>
      obtain ⟨-, rfl⟩ := Prod.mk.inj (Option.some.inj h)
      exact ih hrest
    · next hrest =>
      split at h
      · obtain ⟨-, rfl⟩ := Prod.mk.inj (Option.some.inj h)
        exact not_mem_of_cutLast?_eq_none hrest
      · exact nomatch h

lemma cutLast?_append (h : sep ∉ rest) : cutLast? sep (front ++ sep :: rest) = some (front, rest) := by
  induction front with
  | nil => simp [cutLast?, cutLast?_of_not_mem h]
  | cons c front ih => rw [List.cons_append, cutLast?, ih]

/-! ## A first word -/

lemma dropPrefix?_append (w rest : List Char) : dropPrefix? w (w ++ rest) = some rest := by
  induction w with
  | nil => rfl
  | cons a w ih => rw [List.cons_append, dropPrefix?, if_pos rfl, ih]

lemma dropPrefix?_eq_some (h : dropPrefix? w cs = some rest) : cs = w ++ rest := by
  induction w generalizing cs with
  | nil => exact Option.some.inj h
  | cons a w ih =>
    cases cs with
    | nil => exact absurd h (by simp [dropPrefix?])
    | cons c cs =>
      rw [dropPrefix?] at h
      split at h
      · next hac => rw [hac, ih h, List.cons_append]
      · exact absurd h (by simp)

lemma isSome_dropPrefix? : (dropPrefix? w cs).isSome ↔ w <+: cs := by
  constructor
  · intro h
    obtain ⟨rest, hrest⟩ := Option.isSome_iff_exists.mp h
    exact ⟨rest, (dropPrefix?_eq_some hrest).symm⟩
  · rintro ⟨rest, rfl⟩
    rw [dropPrefix?_append]
    rfl

/-- A text is split at a word exactly if the word stands in it. -/
lemma isSome_splitFirst? : (splitFirst? w cs).isSome ↔ w <:+: cs := by
  induction cs with
  | nil =>
    rw [splitFirst?, List.infix_nil]
    split
    · next hw => simpa using hw
    · next hw => simpa using hw
  | cons c cs ih =>
    rw [splitFirst?, List.infix_cons_iff, ← isSome_dropPrefix?, ← ih]
    split
    · next hdrop => simp [hdrop]
    · next hdrop => simp [hdrop]

lemma beginsWith_iff : beginsWith w cs = true ↔ w <+: cs := isSome_dropPrefix?

lemma endsWith_iff : endsWith w cs = true ↔ w <:+ cs := by
  rw [endsWith, beginsWith_iff, List.reverse_prefix]

end SourceBundle.Text
