/-
# Numbers that are too long to be read

An integer of more digits than are turned into a number ends the reading, wherever it stands in a document.
-/
import SourceBundle.Proofs.Json.RoundTrip

namespace SourceBundle.Json

open SourceBundle.Text

variable {n : Nat} {tail : List Char}

/-- With such a rest of the document an integer ends here. -/
def EndsNumber (tail : List Char) : Prop :=
  ∀ c ∈ tail.head?, c.isDigit = false ∧ c ≠ '.' ∧ c ≠ 'e' ∧ c ≠ 'E'

lemma numberPrefix?_ones (n : Nat) (h : EndsNumber tail) :
    numberPrefix? (List.replicate (n + 1) '1' ++ tail) = some (List.replicate (n + 1) '1', true) := by
  rw [List.replicate_succ, List.cons_append]
  cases tail with
  | nil => simp [numberPrefix?]
  | cons c tail =>
    obtain ⟨hdigit, hdot, he, he'⟩ := h c rfl
    have hstop : (c :: tail).takeWhile Char.isDigit = [] := by simp [hdigit]
    simp [numberPrefix?, hstop, hdot, he, he']

/-- A number of many digits is too long, if it is what comes next. -/
lemma readValue_ones (hn : longestNumeral ≤ n) (h : EndsNumber tail) (fuel pos : Nat) :
    readValue (fuel + 1) ⟨List.replicate (n + 1) '1' ++ tail, pos⟩ = .error .numberTooLong := by
  have hword : (wordValues.find? fun w => beginsWith w.1 (List.replicate (n + 1) '1' ++ tail)) = none := by
    rw [List.replicate_succ]
    rfl
  have hdigits : ((List.replicate (n + 1) '1').filter Char.isDigit).length = n + 1 := by
    rw [List.filter_replicate_of_pos (by decide), List.length_replicate]
  have hatom : readAtom ⟨List.replicate (n + 1) '1' ++ tail, pos⟩ = .error .numberTooLong := by
    simp only [readAtom, hword, numberPrefix?_ones n h, hdigits, Bool.true_and, decide_eq_true_eq]
    exact if_pos (Nat.lt_succ_of_le hn)
  rw [← hatom, List.replicate_succ, List.cons_append, readValue]
  rfl

/-! ## Faults in documents -/

variable {c : Char} {cs rest name : List Char} {f : ReadFault} {pos stop fuel : Nat}

/-- A fault in the value that comes first ends the reading of a document. -/
lemma readChars_error (hmark : c ≠ '\ufeff') (hgap : isGap c = false)
    (h : ∀ fuel, readValue (fuel + 3) ⟨c :: cs, 0⟩ = .error f) : readChars (c :: cs) = .error f := by
  have hfuel : 2 * (c :: cs).length + 2 = 2 * cs.length + 1 + 3 := by
    rw [List.length_cons]
    omega
  rw [readChars, if_neg (by simpa using hmark), readUnmarked, skipGaps_of_head hgap, hfuel, h]
  rfl

/-- A fault in a value ends the reading of the object of which it is a member. -/
lemma readMembers_error (members : List (String × Json))
    (hname : readText pos cs (pos + 1) = .ok (name, ⟨':' :: rest, stop⟩))
    (hvalue : readValue fuel (skipGaps ⟨rest, stop + 1⟩) = .error f) :
    readMembers (fuel + 1) members ⟨'"' :: cs, pos⟩ = .error f := by
  rw [readMembers]
  simp only [hname, bind, Except.bind, skipGaps_of_head (c := ':') rfl, hvalue]

/-- A fault in the first value of an object ends its reading. -/
lemma readValue_object_error
    (hname : readText (pos + 1) cs (pos + 2) = .ok (name, ⟨':' :: rest, stop⟩))
    (hvalue : readValue fuel (skipGaps ⟨rest, stop + 1⟩) = .error f) :
    readValue (fuel + 2) ⟨'{' :: '"' :: cs, pos⟩ = .error f := by
  rw [readValue]
  simp only [skipGaps_of_head (c := '"') rfl]
  exact readMembers_error [] hname hvalue

/-! ## Documents with a long number -/

/-- The document of a number with so many digits, each of them a one. -/
lemma readChars_ones (hn : longestNumeral ≤ n) :
    readChars (List.replicate (n + 1) '1') = .error .numberTooLong := by
  refine readChars_error (by decide) rfl fun fuel => ?_
  rw [← List.replicate_succ, ← List.append_nil (List.replicate (n + 1) '1')]
  exact readValue_ones hn (by simp [EndsNumber]) _ _

/-- The document of an object that has such a number as its version. -/
lemma readChars_version_ones (hn : longestNumeral ≤ n) :
    readChars ("\x7b\"version\":".toList ++ (List.replicate (n + 1) '1' ++ ['}'])) =
      .error .numberTooLong := by
  have hname : readText 1 ("version\":".toList ++ (List.replicate (n + 1) '1' ++ ['}'])) 2 =
      .ok ("version".toList, ⟨':' :: (List.replicate (n + 1) '1' ++ ['}']), 10⟩) := by
    simp [readText]
  have hgaps : ∀ pos, skipGaps ⟨List.replicate (n + 1) '1' ++ ['}'], pos⟩ =
      ⟨List.replicate (n + 1) '1' ++ ['}'], pos⟩ := by
    intro pos
    rw [List.replicate_succ, List.cons_append, skipGaps_of_head rfl]
  refine readChars_error (by decide) rfl fun fuel => readValue_object_error hname ?_
  rw [hgaps]
  exact readValue_ones hn (by simp [EndsNumber]) _ _

end SourceBundle.Json
