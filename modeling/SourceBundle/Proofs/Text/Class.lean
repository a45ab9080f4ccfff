/-
# Classes of characters

Letters and digits by their code points, and how the classes lie to each other: letters and digits
are word characters, and no blank is one.
-/
import SourceBundle.Text.Blank
import SourceBundle.Text.Word
import Mathlib.Tactic.Common

namespace SourceBundle.Text

variable {c : Char}

lemma toNat_of_isAlphanum (h : c.isAlphanum = true) :
    (48 ≤ c.toNat ∧ c.toNat ≤ 57) ∨ (65 ≤ c.toNat ∧ c.toNat ≤ 90) ∨
      (97 ≤ c.toNat ∧ c.toNat ≤ 122) := by
  have hcases : (decide (65 ≤ c.toNat ∧ c.toNat ≤ 90) ||
      (decide (97 ≤ c.toNat) && decide (c.toNat ≤ 122)) ||
      (decide (48 ≤ c.toNat) && decide (c.toNat ≤ 57))) = true := h
  simp only [Bool.or_eq_true, Bool.and_eq_true, decide_eq_true_eq] at hcases
  omega

/-- A letter does not become a character in front of the small letters. -/
lemma toLower_eq_self (h : c.toLower.toNat < 97) : c.toLower = c := by
  by_cases hupper : c.val ≥ 'A'.val ∧ c.val ≤ 'Z'.val
  · have hlower : c.toLower.val = c.val + ('a'.val - 'A'.val) := congrArg Char.val (dif_pos hupper)
    have hval : (c.val + ('a'.val - 'A'.val)).toNat < 97 := hlower ▸ h
    have hlow : 65 ≤ c.toNat := hupper.1
    have hhigh : c.toNat ≤ 90 := hupper.2
    rw [UInt32.toNat_add] at hval
    have hsum : (c.toNat + 32) % 2 ^ 32 < 97 := hval
    omega
  · exact dif_neg hupper

lemma isWord_of_isAlphanum (h : c.isAlphanum = true) : isWord c = true := by
  have hascii : c.toNat < 128 := by
    have := toNat_of_isAlphanum h
    omega
  rw [isWord, if_pos hascii, h, Bool.true_or]

lemma not_isBlank_of_isAlphanum (h : c.isAlphanum = true) : isBlank c = false := by
  have := toNat_of_isAlphanum h
  simp only [isBlank, Bool.or_eq_false_iff, Bool.and_eq_false_iff, decide_eq_false_iff_not,
    beq_eq_false_iff_ne]
  omega

/-- The blanks beyond ASCII. -/
def wideBlanks : List Nat :=
  [0x85, 0xA0, 0x1680, 0x2000, 0x2001, 0x2002, 0x2003, 0x2004, 0x2005, 0x2006, 0x2007, 0x2008,
    0x2009, 0x200A, 0x2028, 0x2029, 0x202F, 0x205F, 0x3000]

lemma mem_wideBlanks (h : isBlank c = true) (hwide : 128 ≤ c.toNat) : c.toNat ∈ wideBlanks := by
  simp only [isBlank, Bool.or_eq_true, Bool.and_eq_true, decide_eq_true_eq, beq_iff_eq] at h
  simp only [wideBlanks, List.mem_cons, List.not_mem_nil, or_false]
  omega

lemma not_isWord_of_isBlank (h : isBlank c = true) : isWord c = false := by
  rw [isWord]
  split
  · next hascii =>
    have hnot : c.isAlphanum ≠ true := by
      intro halnum
      rw [not_isBlank_of_isAlphanum halnum] at h
      exact absurd h Bool.false_ne_true
    have hunderscore : c ≠ '_' := by
      rintro rfl
      exact absurd h (by decide)
    rw [Bool.eq_false_iff.mpr hnot, Bool.false_or, beq_eq_false_iff_ne]
    exact hunderscore
  · next hascii =>
    have hall : ∀ n ∈ wideBlanks, inRanges n wordRanges = false := by decide +kernel
    exact hall _ (mem_wideBlanks h (Nat.le_of_not_lt hascii))

lemma not_isBlank_of_isWord (h : isWord c = true) : isBlank c = false := by
  refine Bool.eq_false_iff.mpr fun hblank => ?_
  rw [not_isWord_of_isBlank hblank] at h
  exact absurd h Bool.false_ne_true

end SourceBundle.Text
