/-
# What redaction keeps

Redaction changes nothing in front of the first sensitive word.  Behind the word and its equals sign stands the
mark, and then what follows on the next ampersand.
-/
import SourceBundle.Proofs.Text.Class
import SourceBundle.Url.Redact

namespace SourceBundle.Url

open SourceBundle.Text

variable {w cs pre rest front : List Char} {n : Nat}

/-! ## Sensitive words -/

/-- A text that begins with a word is a spelling of the word and the rest. -/
lemma dropWord?_eq_some (h : dropWord? w cs = some rest) :
    ∃ pre, cs = pre ++ rest ∧ pre.map foldLetter = w := by
  induction w generalizing cs with
  | nil => exact ⟨[], by simpa [dropWord?] using h, rfl⟩
  | cons a w ih =>
    cases cs with
    | nil => simp [dropWord?] at h
    | cons c cs =>
      simp only [dropWord?] at h
      split at h
      · next ha =>
        obtain ⟨pre, rfl, hpre⟩ := ih h
        exact ⟨c :: pre, rfl, by simp [ha, hpre]⟩
      · contradiction

/-- A spelling of a sensitive word with its equals sign. -/
def Spells (pre : List Char) : Prop := ∃ w ∈ sensitiveWords, pre.map foldLetter = w ++ ['=']

lemma exists_spells (h : sensitiveAt? cs = some n) :
    ∃ pre rest, cs = pre ++ rest ∧ pre.length = n ∧ Spells pre := by
  rw [sensitiveAt?, List.findSome?_eq_some_iff] at h
  obtain ⟨_, w, _, hwords, hw, -⟩ := h
  obtain ⟨rest, hrest, rfl⟩ := Option.map_eq_some_iff.mp hw
  obtain ⟨pre, hcs, hpre⟩ := dropWord?_eq_some hrest
  refine ⟨pre, rest, hcs, ?_, w, by simp [hwords], hpre⟩
  simpa using congrArg List.length hpre

/-- The characters that a letter of a sensitive word, or the equals sign, is no form of. -/
def isApart (c : Char) : Bool :=
  sensitiveWords.all fun w => (w ++ ['=']).all (· != foldLetter c)

lemma Spells.not_apart (h : Spells pre) {c : Char} (hc : c ∈ pre) : isApart c = false := by
  obtain ⟨w, hw, hpre⟩ := h
  by_contra hapart
  simp only [isApart, Bool.not_eq_false, List.all_eq_true] at hapart
  have hmem : foldLetter c ∈ w ++ ['='] := by
    rw [← hpre]
    exact List.mem_map_of_mem hc
  simpa using hapart w hw _ hmem

lemma eq_of_foldLetter {c : Char} (h : foldLetter c = '=') : c = '=' := by
  unfold foldLetter at h
  split at h
  · contradiction
  · split at h
    · contradiction
    · rw [← toLower_eq_self (c := c) (by rw [h]; decide), h]

lemma Spells.equals_mem (h : Spells pre) : '=' ∈ pre := by
  obtain ⟨w, -, hpre⟩ := h
  have hmem : '=' ∈ pre.map foldLetter := by simp [hpre]
  obtain ⟨c, hc, hfold⟩ := List.mem_map.mp hmem
  rwa [← eq_of_foldLetter hfold]

/-! ## Redacted texts -/

/-- The characters to be kept are kept, and then comes the mark. -/
lemma redactFrom_keep (pre rest : List Char) :
    redactFrom (.keep pre.length) (pre ++ rest) = pre ++ (mark ++ redactFrom .omit rest) := by
  induction pre with
  | nil => cases rest <;> simp [redactFrom]
  | cons c pre ih => simp [redactFrom, ih]

/-- Behind a sensitive word stands the mark. -/
lemma redactFrom_of_sensitive (h : sensitiveAt? cs = some n) :
    ∃ pre rest, cs = pre ++ rest ∧ Spells pre ∧
      redactFrom .search cs = pre ++ (mark ++ redactFrom .omit rest) := by
  obtain ⟨pre, rest, rfl, rfl, hpre⟩ := exists_spells h
  refine ⟨pre, rest, rfl, hpre, ?_⟩
  cases pre with
  | nil => exact absurd hpre.equals_mem List.not_mem_nil
  | cons c pre =>
    rw [← redactFrom_keep]
    simp only [List.cons_append] at h ⊢
    simp [redactFrom, h]

/-- No sensitive word reaches over a character that stands in none. -/
lemma sensitiveAt?_append {c : Char} (hc : isApart c = true) (hfront : '=' ∉ front) (rest : List Char) :
    sensitiveAt? (front ++ c :: rest) = none := by
  by_contra hsome
  obtain ⟨n, hn⟩ := Option.ne_none_iff_exists'.mp hsome
  obtain ⟨pre, tail, heq, -, hpre⟩ := exists_spells hn
  rcases List.append_eq_append_iff.mp heq with ⟨more, hmore, htail⟩ | ⟨more, hmore, -⟩
  · cases more with
    | nil => exact hfront (by simpa [hmore] using hpre.equals_mem)
    | cons d more =>
      -- the word holds the character
      obtain ⟨rfl, -⟩ := List.cons.inj htail
      have hapart := hpre.not_apart (c := c) (by simp [hmore])
      simp [hc] at hapart
  · exact hfront (by simp [hmore, hpre.equals_mem])

/-- Nothing changes in front of a character that stands in no sensitive word, if there is no equals sign. -/
lemma redactFrom_append {c : Char} (hc : isApart c = true) (hfront : '=' ∉ front) (rest : List Char) :
    redactFrom .search (front ++ c :: rest) = front ++ c :: redactFrom .search rest := by
  induction front with
  | nil =>
    have hnone := sensitiveAt?_append hc hfront rest
    simp only [List.nil_append] at hnone ⊢
    simp [redactFrom, hnone]
  | cons d front ih =>
    have hnone := sensitiveAt?_append hc hfront rest
    simp only [List.cons_append] at hnone ⊢
    rw [redactFrom, hnone]
    simp only [ih fun h => hfront (List.mem_cons_of_mem d h)]

end SourceBundle.Url
