/-
# Laws of trimming and of lines

What is dropped at the ends of a text are the characters of a class that stand there.  A text that has
none at its ends stays as it is, and is found again when some are put around it.  Lines that are written
one after the other, each with a line feed behind it, are found again too.
-/
import Mathlib.Data.List.TakeWhile
import SourceBundle.Text.Blank

namespace SourceBundle.Text

variable {p : Char → Bool} {cs l r core rest : List Char} {c : Char}

/-! ## Trimming -/

/-- The text has no character of a class at its ends. -/
structure Trimmed (p : Char → Bool) (cs : List Char) : Prop where
  first : ∀ c ∈ cs.head?, p c = false
  last : ∀ c ∈ cs.getLast?, p c = false

instance (p : Char → Bool) (cs : List Char) : Decidable (Trimmed p cs) :=
  decidable_of_iff (cs.head?.all (fun c => !p c) = true ∧ cs.getLast?.all (fun c => !p c) = true)
    ⟨fun ⟨hfirst, hlast⟩ =>
        ⟨by simpa [Option.all_eq_true] using hfirst, by simpa [Option.all_eq_true] using hlast⟩,
      fun ⟨hfirst, hlast⟩ =>
        ⟨by simpa [Option.all_eq_true] using hfirst, by simpa [Option.all_eq_true] using hlast⟩⟩

lemma Trimmed.of_forall (h : ∀ c ∈ cs, p c = false) : Trimmed p cs where
  first _ hc := h _ (List.mem_of_mem_head? hc)
  last _ hc := h _ (List.mem_of_mem_getLast? hc)

/-- Other characters around a text put none of the class at its ends. -/
lemma Trimmed.around (hcore : Trimmed p core) (hne : core ≠ []) (hl : ∀ c ∈ l, p c = false)
    (hr : ∀ c ∈ r, p c = false) : Trimmed p (l ++ (core ++ r)) where
  first := by
    intro c hc
    cases l with
    | nil =>
      obtain ⟨d, core, rfl⟩ := List.exists_cons_of_ne_nil hne
      exact hcore.first c hc
    | cons d l =>
      obtain rfl := Option.some.inj hc
      exact hl d List.mem_cons_self
  last := by
    intro c hc
    rw [List.getLast?_append, List.getLast?_append] at hc
    cases hlast : r.getLast? with
    | some d =>
      rw [hlast] at hc
      obtain rfl := Option.some.inj hc
      exact hr d (List.mem_of_mem_getLast? hlast)
    | none =>
      obtain ⟨d, hd⟩ := Option.ne_none_iff_exists'.mp (List.getLast?_eq_none_iff.not.mpr hne)
      rw [hlast, hd] at hc
      exact hcore.last c (hd.trans hc)

/-- Between its ends a text may be changed. -/
lemma Trimmed.swap {mid : List Char} (h : Trimmed p (l ++ (mid ++ r))) (hl : l ≠ []) (hr : r ≠ [])
    (mid' : List Char) : Trimmed p (l ++ (mid' ++ r)) := by
  obtain ⟨c, l, rfl⟩ := List.exists_cons_of_ne_nil hl
  have hlast : ∀ mid, (c :: l ++ (mid ++ r)).getLast? = r.getLast? := by
    intro mid
    rw [← List.append_assoc, List.getLast?_append, Option.or_of_isSome (by simpa using hr)]
  refine ⟨h.first, ?_⟩
  rw [hlast, ← hlast mid]
  exact h.last

lemma dropWhile_of_head? (h : ∀ c ∈ cs.head?, p c = false) : cs.dropWhile p = cs := by
  cases cs with
  | nil => rfl
  | cons c cs =>
    have hc := h c rfl
    simp [hc]

lemma not_of_head?_dropWhile (h : c ∈ (cs.dropWhile p).head?) : p c = false := by
  have hnot := List.head?_dropWhile_not p cs
  rw [Option.mem_def.mp h] at hnot
  exact hnot

/-- A text without characters of the class at its ends stays as it is. -/
lemma Trimmed.dropAround_eq (h : Trimmed p cs) : dropAround p cs = cs := by
  have hback : cs.reverse.dropWhile p = cs.reverse := by
    refine dropWhile_of_head? ?_
    simpa using h.last
  rw [dropAround, dropRight, dropWhile_of_head? h.first, hback, List.reverse_reverse]

lemma trimChars_of_forall (h : ∀ c ∈ cs, isBlank c = false) : trimChars cs = cs :=
  (Trimmed.of_forall h).dropAround_eq

/-- Characters of the class around a text that has none at its ends are dropped. -/
lemma Trimmed.dropAround_append (hcore : Trimmed p core) (hne : core ≠ [])
    (hl : ∀ c ∈ l, p c = true) (hr : ∀ c ∈ r, p c = true) : dropAround p (l ++ (core ++ r)) = core := by
  have hfront : (core ++ r).dropWhile p = core ++ r := by
    obtain ⟨c, cs, rfl⟩ := List.exists_cons_of_ne_nil hne
    exact dropWhile_of_head? hcore.first
  have hback : core.reverse.dropWhile p = core.reverse := by
    refine dropWhile_of_head? ?_
    simpa using hcore.last
  have hr' : ∀ c ∈ r.reverse, p c = true := fun c hc => hr c (List.mem_reverse.mp hc)
  rw [dropAround, dropRight, List.dropWhile_append_of_pos hl, hfront, List.reverse_append,
    List.dropWhile_append_of_pos hr', hback, List.reverse_reverse]

/-- A text is what is left of it between characters of the class, which has none at its ends. -/
lemma exists_dropAround (p : Char → Bool) (cs : List Char) : ∃ l r, (∀ c ∈ l, p c = true) ∧
    (∀ c ∈ r, p c = true) ∧ cs = l ++ (dropAround p cs ++ r) ∧ Trimmed p (dropAround p cs) := by
  have hmid : cs.dropWhile p =
      dropAround p cs ++ ((cs.dropWhile p).reverse.takeWhile p).reverse := by
    rw [dropAround, dropRight, ← List.reverse_append, List.takeWhile_append_dropWhile,
      List.reverse_reverse]
  refine ⟨cs.takeWhile p, ((cs.dropWhile p).reverse.takeWhile p).reverse,
    fun c hc => List.mem_takeWhile_imp hc, fun c hc => List.mem_takeWhile_imp (List.mem_reverse.mp hc),
    ?_, ?_, ?_⟩
  · rw [← hmid, List.takeWhile_append_dropWhile]
  · intro c hc
    refine not_of_head?_dropWhile (?_ : c ∈ (cs.dropWhile p).head?)
    rw [hmid, List.head?_append, Option.mem_def.mp hc]
    rfl
  · intro c hc
    rw [dropAround, dropRight, List.getLast?_reverse] at hc
    exact not_of_head?_dropWhile hc

/-- Only a text without characters of the class at its ends stays as it is. -/
lemma dropAround_eq_self_iff : dropAround p cs = cs ↔ Trimmed p cs := by
  refine ⟨fun h => ?_, Trimmed.dropAround_eq⟩
  obtain ⟨-, -, -, -, -, htrimmed⟩ := exists_dropAround p cs
  rwa [h] at htrimmed

/-! ## Lines -/

/-- A line of its own: no character in it ends a line. -/
def IsLine (l : List Char) : Prop := ∀ c ∈ l, isLineEnd c = false

instance (l : List Char) : Decidable (IsLine l) :=
  decidable_of_iff (l.all (fun c => !isLineEnd c) = true) (by simp [IsLine])

lemma isLine_append (hl : IsLine l) (hcs : IsLine cs) : IsLine (l ++ cs) :=
  List.forall_mem_append.mpr ⟨hl, hcs⟩

lemma not_isLineEnd_of_not_isBlank (h : isBlank c = false) : isLineEnd c = false := by
  simp only [isBlank, isLineEnd, Bool.or_eq_false_iff, Bool.and_eq_false_iff, decide_eq_false_iff_not,
    beq_eq_false_iff_ne] at *
  omega

lemma linesOf_append (hl : IsLine l) (acc : Option (List Char)) (rest : List Char) :
    linesOf acc (l ++ '\n' :: rest) = ((acc.getD []).reverse ++ l) :: linesOf none rest := by
  induction l generalizing acc with
  | nil => simp [linesOf, isLineEnd]
  | cons c l ih =>
    have hc : isLineEnd c = false := hl c List.mem_cons_self
    have hcr : c ≠ '\r' := by
      rintro rfl
      exact absurd hc (by decide)
    have hrest : IsLine l := fun d hd => hl d (List.mem_cons_of_mem c hd)
    rw [List.cons_append, linesOf, hc]
    · simpa using ih hrest (some (c :: acc.getD []))
    · exact fun _ h _ => hcr h

/-- Written lines are found again. -/
lemma linesOf_flatMap {ls : List (List Char)} (hls : ∀ l ∈ ls, IsLine l) :
    linesOf none (ls.flatMap (· ++ ['\n'])) = ls := by
  induction ls with
  | nil => rfl
  | cons l ls ih =>
    have hrest := ih fun l' hl' => hls l' (List.mem_cons_of_mem l hl')
    have hl := linesOf_append (hls l List.mem_cons_self) none (ls.flatMap (· ++ ['\n']))
    rw [List.flatMap_cons, List.append_assoc, List.singleton_append, hl, hrest]
    rfl

end SourceBundle.Text
