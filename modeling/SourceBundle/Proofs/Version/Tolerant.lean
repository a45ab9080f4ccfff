/-
# The tolerant reading of versions

A version is read from a text where it stands behind blanks, marks and blanks again, and in front of
blanks.  Its numbers may be in the digits of any script.  In a text without blanks and of ASCII characters
only, nothing but the marks is passed over: what follows on them is the printed form of the version.
-/
import SourceBundle.Proofs.Text.Blank
import SourceBundle.Proofs.Version.Order

namespace SourceBundle

namespace Version

open Text

variable {v : Version} {pre bld cs rest ids : List Char} {n : Nat} {text : String} {mark c : Char}

/-! ## The text of a version that has been read -/

/-- A text without blanks and without characters beyond ASCII. -/
def Solid (text : String) : Prop := ∀ c ∈ text.toList, isBlank c = false ∧ c.toNat < 128

instance (text : String) : Decidable (Solid text) :=
  decidable_of_iff (text.toList.all fun c => !isBlank c && decide (c.toNat < 128)) (by simp [Solid])

lemma isDigit_of_isDecimal (hc : isDecimal c = true) (hlow : c.toNat < 128) : c.isDigit = true := by
  rw [isDecimal, digitValue?, if_pos hlow] at hc
  by_contra hnot
  rw [if_neg hnot] at hc
  contradiction

lemma eq_of_readNumber? (h : readNumber? cs = some (n, rest)) (hlow : ∀ c ∈ cs, c.toNat < 128) :
    cs = Nat.toDigits 10 n ++ rest := by
  simp only [readNumber?] at h
  split at h
  · contradiction
  · next hgood =>
    simp only [Bool.or_eq_true, Bool.and_eq_true, decide_eq_true_eq, not_or, not_and,
      List.isEmpty_iff] at hgood
    obtain ⟨⟨hne, hzero⟩, -⟩ := hgood
    obtain ⟨rfl, rfl⟩ := Prod.mk.inj (Option.some.inj h)
    have hdigits : ∀ c ∈ cs.takeWhile isDecimal, c.isDigit = true := fun c hc =>
      isDigit_of_isDecimal (List.mem_takeWhile_imp hc) (hlow c (List.takeWhile_subset _ hc))
    rw [toDigits_numberOf hdigits hne hzero, List.takeWhile_append_dropWhile]

lemma eq_of_readDot? (h : readDot? cs = some rest) : cs = '.' :: rest := by
  unfold readDot? at h
  split at h
  · rw [Option.some.inj h]
  · contradiction

lemma eq_of_readIdentifiers? (h : readIdentifiers? mark cs = some (ids, rest)) :
    cs = marked mark ids ++ rest := by
  rw [readIdentifiers?.eq_def] at h
  split at h
  · obtain ⟨rfl, rfl⟩ := Prod.mk.inj (Option.some.inj h)
    rfl
  · split at h
    · next hmark =>
      simp only at h
      split at h
      · contradiction
      · next hne =>
        obtain ⟨rfl, rfl⟩ := Prod.mk.inj (Option.some.inj h)
        rw [marked, if_neg hne, hmark, List.cons_append, List.takeWhile_append_dropWhile]
    · obtain ⟨rfl, rfl⟩ := Prod.mk.inj (Option.some.inj h)
      rfl

/-- A text of ASCII characters that is read as a version is its printed form. -/
lemma Parts.eq_spelled (h : Parts v pre bld cs) (hlow : ∀ c ∈ cs, c.toNat < 128) :
    cs = spelled v.major v.minor v.patch pre bld := by
  obtain ⟨c₁, c₂, c₃, c₄, c₅, c₆, hmajor, hdot, hminor, hdot', hpatch, hpre, hbld⟩ := h.read
  have h₁ := eq_of_readNumber? hmajor hlow
  obtain rfl := eq_of_readDot? hdot
  have hlow₂ : ∀ c ∈ c₂, c.toNat < 128 := fun c hc => hlow c (by simp [h₁, hc])
  have h₃ := eq_of_readNumber? hminor hlow₂
  obtain rfl := eq_of_readDot? hdot'
  have hlow₄ : ∀ c ∈ c₄, c.toNat < 128 := fun c hc => hlow₂ c (by simp [h₃, hc])
  have h₅ := eq_of_readNumber? hpatch hlow₄
  have hids := eq_of_readIdentifiers? hbld
  rw [h₁, h₃, h₅, eq_of_readIdentifiers? hpre, hids, List.append_nil]
  rfl

lemma toNat_lt_of_isIdentifierChar (h : isIdentifierChar c = true) : c.toNat < 128 := by
  rw [isIdentifierChar, Bool.or_eq_true, Bool.or_eq_true, beq_iff_eq, beq_iff_eq] at h
  rcases h with (halnum | rfl) | rfl
  · have := toNat_of_isAlphanum halnum
    omega
  · decide
  · decide

/-- A printed version is solid. -/
lemma solid_render (h : parse? text = some v) : Solid v.render := by
  obtain ⟨pre, bld, hw⟩ := written_of_readChars? h
  intro c hc
  rw [toList_render hw] at hc
  refine ⟨not_isBlank_of_mem_spelled hw hc, ?_⟩
  rcases mem_spelled hw.inPre hw.inBuild hc with hid | rfl
  · exact toNat_lt_of_isIdentifierChar hid
  · decide

/-! ## Where a version stands in a text -/

lemma isDecimal_of_readChars? (h : readChars? (c :: cs) = some v) : isDecimal c = true := by
  obtain ⟨pre, bld, hparts⟩ := parts_of_readChars? h
  obtain ⟨_, _, _, _, _, _, hmajor, -⟩ := hparts.read
  by_contra hc
  simp [readNumber?, hc] at hmajor

/-- A mark is an ASCII character, and neither a blank nor a digit. -/
lemma isMark_facts (h : isMark c = true) :
    c.toNat < 128 ∧ isBlank c = false ∧ isDecimal c = false := by
  rw [isMark, Bool.or_eq_true, beq_iff_eq, beq_iff_eq] at h
  rcases h with rfl | rfl
  · decide
  · decide

lemma not_isMark (h : isBlank c = true ∨ isDecimal c = true) : isMark c = false := by
  cases hmark : isMark c with
  | false => rfl
  | true => simp [isMark_facts hmark] at h

/-- How a version stands in a text: behind blanks, marks and blanks again, and in front of blanks. -/
structure StandsIn (v : Version) (cs before marks between core behind : List Char) : Prop where
  text : cs = before ++ (marks ++ (between ++ (core ++ behind)))
  before : ∀ c ∈ before, isBlank c = true
  marks : ∀ c ∈ marks, isMark c = true
  between : ∀ c ∈ between, isBlank c = true
  behind : ∀ c ∈ behind, isBlank c = true
  first : ∀ c ∈ core.head?, isBlank c = false
  last : ∀ c ∈ core.getLast?, isBlank c = false
  read : readChars? core = some v

lemma exists_standsIn (h : parse? text = some v) :
    ∃ before marks between core behind, StandsIn v text.toList before marks between core behind := by
  obtain ⟨before, behind, hbefore, hbehind, htext, -⟩ := exists_dropAround isBlank text.toList
  obtain ⟨between, behind', hbetween, hbehind', hinner, htrimmed⟩ :=
    exists_dropAround isBlank ((trimChars text.toList).dropWhile isMark)
  rw [← trimChars] at htext
  refine ⟨before, (trimChars text.toList).takeWhile isMark, between, _, behind' ++ behind, ?_, hbefore,
    fun c hc => List.mem_takeWhile_imp hc, hbetween, ?_, htrimmed.first, htrimmed.last, h⟩
  · have hmarks : trimChars text.toList = (trimChars text.toList).takeWhile isMark ++
        (trimChars text.toList).dropWhile isMark := List.takeWhile_append_dropWhile.symm
    conv_lhs => rw [htext, hmarks, hinner]
    simp only [List.append_assoc]
  · simp only [List.mem_append]
    rintro c (hc | hc)
    · exact hbehind' c hc
    · exact hbehind c hc

namespace StandsIn

variable {before marks between core behind blanks : List Char}

lemma core_ne_nil (h : StandsIn v cs before marks between core behind) : core ≠ [] := by
  rintro rfl
  exact nomatch h.read

/-- What stands behind the marks, begins with none. -/
lemma dropWhile_isMark (h : StandsIn v cs before marks between core behind)
    (hblanks : ∀ c ∈ blanks, isBlank c = true) (rest : List Char) :
    (blanks ++ (core ++ rest)).dropWhile isMark = blanks ++ (core ++ rest) := by
  apply dropWhile_of_head?
  cases blanks with
  | nil =>
    obtain ⟨c, cs, rfl⟩ := List.exists_cons_of_ne_nil h.core_ne_nil
    simpa using not_isMark (.inr (isDecimal_of_readChars? h.read))
  | cons b blanks => simpa using not_isMark (.inl (hblanks b List.mem_cons_self))

lemma trimmed_core (h : StandsIn v cs before marks between core behind) : Trimmed isBlank core :=
  ⟨h.first, h.last⟩

lemma trimChars_core (h : StandsIn v cs before marks between core behind)
    (hblanks : ∀ c ∈ blanks, isBlank c = true) : trimChars (blanks ++ core) = core := by
  have htrim := h.trimmed_core.dropAround_append h.core_ne_nil hblanks (r := []) nofun
  rwa [List.append_nil] at htrim

/-- A version is read wherever it stands so. -/
theorem parse? (h : StandsIn v text.toList before marks between core behind) :
    parse? text = some v := by
  rw [Version.parse?, h.text]
  cases hmarks : marks with
  | nil =>
    have hblank : ∀ c ∈ before ++ between, isBlank c = true := by
      simpa [or_imp, forall_and] using ⟨h.before, h.between⟩
    have hinner : core.dropWhile isMark = core := by
      have hmarkless := h.dropWhile_isMark (List.forall_mem_nil _) []
      rwa [List.nil_append, List.append_nil] at hmarkless
    have hagain : trimChars core = core := h.trimmed_core.dropAround_eq
    have htrim : trimChars (before ++ between ++ (core ++ behind)) = core :=
      h.trimmed_core.dropAround_append h.core_ne_nil hblank h.behind
    rw [List.nil_append, ← List.append_assoc, htrim, hinner, hagain]
    exact h.read
  | cons m ms =>
    have hm : isBlank m = false := (isMark_facts (h.marks m (hmarks ▸ List.mem_cons_self))).2.1
    have htext : before ++ (m :: ms ++ (between ++ (core ++ behind))) =
        before ++ ((m :: ms ++ (between ++ core)) ++ behind) := by simp
    have hlast : ∀ c ∈ (m :: ms ++ (between ++ core)).getLast?, isBlank c = false := by
      have hend := List.getLast?_eq_some_getLast h.core_ne_nil
      rw [← List.append_assoc, List.getLast?_append, hend, Option.some_or, ← hend]
      exact h.last
    have hinner := h.dropWhile_isMark h.between []
    rw [List.append_nil] at hinner
    have hmiddle : Trimmed isBlank (m :: ms ++ (between ++ core)) := ⟨by simpa using hm, hlast⟩
    have htrim : trimChars (before ++ ((m :: ms ++ (between ++ core)) ++ behind)) =
        m :: ms ++ (between ++ core) := hmiddle.dropAround_append (by simp) h.before h.behind
    rw [htext, htrim, List.dropWhile_append_of_pos (hmarks ▸ h.marks), hinner,
      h.trimChars_core h.between]
    exact h.read

end StandsIn

/-! ## The characters of a version -/

lemma mem_of_readNumber? (h : readNumber? cs = some (n, rest)) (hc : c ∈ cs) :
    isDecimal c = true ∨ c ∈ rest := by
  simp only [readNumber?] at h
  split at h
  · contradiction
  · obtain ⟨-, rfl⟩ := Prod.mk.inj (Option.some.inj h)
    rw [← List.takeWhile_append_dropWhile (p := isDecimal) (l := cs)] at hc
    exact (List.mem_append.mp hc).imp_left List.mem_takeWhile_imp

lemma mem_of_readChars? (h : readChars? cs = some v) (hc : c ∈ cs) :
    isDecimal c = true ∨ isIdentifierChar c = true ∨ c = '+' := by
  obtain ⟨pre, bld, hparts⟩ := parts_of_readChars? h
  obtain ⟨c₁, c₂, c₃, c₄, c₅, c₆, hmajor, hdot, hminor, hdot', hpatch, hpre, hbld⟩ := hparts.read
  have hpoint : isIdentifierChar '.' = true := by decide
  have hdash : isIdentifierChar '-' = true := by decide
  rcases mem_of_readNumber? hmajor hc with hc | hc
  · exact .inl hc
  rw [eq_of_readDot? hdot, List.mem_cons] at hc
  rcases hc with rfl | hc
  · exact .inr (.inl hpoint)
  rcases mem_of_readNumber? hminor hc with hc | hc
  · exact .inl hc
  rw [eq_of_readDot? hdot', List.mem_cons] at hc
  rcases hc with rfl | hc
  · exact .inr (.inl hpoint)
  rcases mem_of_readNumber? hpatch hc with hc | hc
  · exact .inl hc
  rw [eq_of_readIdentifiers? hpre, eq_of_readIdentifiers? hbld, List.append_nil, List.mem_append] at hc
  rcases hc with hc | hc
  · rcases mem_marked hc with rfl | hc
    · exact .inr (.inl hdash)
    · exact .inr (.inl (forall_of_readIdentifiers? hpre c hc))
  · rcases mem_marked hc with rfl | hc
    · exact .inr (.inr rfl)
    · exact .inr (.inl (forall_of_readIdentifiers? hbld c hc))

/-- A text that is read as a version has only the characters of versions, marks and blanks. -/
lemma mem_of_parse? (h : parse? text = some v) (hc : c ∈ text.toList) :
    isBlank c = true ∨ isMark c = true ∨ isDecimal c = true ∨ isIdentifierChar c = true ∨ c = '+' := by
  obtain ⟨before, marks, between, core, behind, hstands⟩ := exists_standsIn h
  rw [hstands.text, List.mem_append, List.mem_append, List.mem_append, List.mem_append] at hc
  rcases hc with hc | hc | hc | hc | hc
  · exact .inl (hstands.before c hc)
  · exact .inr (.inl (hstands.marks c hc))
  · exact .inl (hstands.between c hc)
  · exact .inr (.inr (mem_of_readChars? hstands.read hc))
  · exact .inl (hstands.behind c hc)

end Version

end SourceBundle
