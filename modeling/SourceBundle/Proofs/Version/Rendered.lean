/-
# Printed versions

A version that has been read is printed in ASCII digits, without blanks and marks.  The printed form is
read as the same version, whatever the text was from which it came: its numbers have no more digits
than those of the text, and its identifiers are those of the text.
-/
import SourceBundle.Proofs.Path
import SourceBundle.Proofs.Text.Blank
import SourceBundle.Proofs.Text.Class
import SourceBundle.Version.Select
import Mathlib.Data.List.Induction
import Mathlib.Data.List.TakeWhile

namespace SourceBundle

namespace Text

variable {p : Char → Bool} {body rest ds : List Char} {c : Char} {n : Nat}

/-- What stands before the first character that is not of a class. -/
lemma span_append (hbody : ∀ c ∈ body, p c = true) (hrest : ∀ c ∈ rest.head?, p c = false) :
    (body ++ rest).takeWhile p = body ∧ (body ++ rest).dropWhile p = rest := by
  rw [List.takeWhile_append_of_pos hbody, List.dropWhile_append_of_pos hbody]
  cases rest with
  | nil => simp
  | cons c rest =>
    have hc : p c = false := hrest c rfl
    simp [hc]

/-! ## Digits -/

lemma digitValue?_digitChar {d : Nat} (hd : d < 10) : digitValue? d.digitChar = some d := by
  have hall : ∀ d : Fin 10, digitValue? (d : Nat).digitChar = some (d : Nat) := by decide
  exact hall ⟨d, hd⟩

lemma digitValue?_lt (c : Char) : (digitValue? c).getD 0 < 10 := by
  rw [digitValue?]
  split
  · split
    · next h =>
      simp only [Char.isDigit, Bool.and_eq_true, decide_eq_true_eq] at h
      have hle : c.toNat ≤ 57 := h.2
      simp only [Option.getD_some]
      omega
    · simp
  · cases hz : digitZeros.find? fun z => decide (z ≤ c.toNat ∧ c.toNat < z + 10) with
    | none => simp
    | some z =>
      have hfound := List.find?_some hz
      rw [decide_eq_true_eq] at hfound
      simp only [Option.map_some, Option.getD_some]
      omega

lemma isDecimal_of_isDigit (hc : c.isDigit = true) : isDecimal c = true := by
  have hlow : c.toNat < 128 := by
    simp only [Char.isDigit, Bool.and_eq_true, decide_eq_true_eq] at hc
    have hle : c.toNat ≤ 57 := hc.2
    omega
  rw [isDecimal, digitValue?, if_pos hlow, if_pos hc]
  rfl

lemma numberOf_concat (ds : List Char) (c : Char) :
    numberOf (ds ++ [c]) = 10 * numberOf ds + (digitValue? c).getD 0 := by
  simp [numberOf, List.foldl_append]

lemma numberOf_lt (ds : List Char) : numberOf ds < 10 ^ ds.length := by
  induction ds using List.reverseRecOn with
  | nil => simp [numberOf]
  | append_singleton ds c ih =>
    have hc := digitValue?_lt c
    rw [numberOf_concat, List.length_append, List.length_singleton, Nat.pow_succ]
    omega

lemma numberOf_toDigits (n : Nat) : numberOf (Nat.toDigits 10 n) = n := by
  induction n using Nat.strongRecOn with
  | ind n ih =>
    rw [Nat.toDigits_eq_if (by decide)]
    split
    · next h => simp [numberOf, digitValue?_digitChar h]
    · next h =>
      have hless : n / 10 < n := by omega
      rw [numberOf_concat, ih _ hless, digitValue?_digitChar (by omega), Option.getD_some]
      omega

/-- A number has no more digits than the text that denotes it. -/
lemma length_toDigits_numberOf (hds : ds ≠ []) :
    (Nat.toDigits 10 (numberOf ds)).length ≤ ds.length :=
  (Nat.length_toDigits_le_iff (by decide) (List.length_pos_iff.mpr hds)).mpr (numberOf_lt ds)

/-- The digits of a number do not begin with a zero. -/
lemma head?_toDigits (hn : 0 < n) : (Nat.toDigits 10 n).head? ≠ some '0' := by
  induction n using Nat.strongRecOn with
  | ind n ih =>
    rw [Nat.toDigits_eq_if (by decide)]
    split
    · next h =>
      have hall : ∀ d : Fin 10, 0 < (d : Nat) → (d : Nat).digitChar ≠ '0' := by decide
      simpa using hall ⟨n, h⟩ hn
    · next h =>
      have hhead := ih (n / 10) (by omega) (by omega)
      obtain ⟨c, ds, hds⟩ := List.exists_cons_of_ne_nil (Nat.toDigits_ne_nil (n := n / 10) (b := 10))
      rw [hds] at hhead ⊢
      exact hhead

/-- The pieces of a text, joined again, are the text. -/
lemma intercalate_pieces (cs : List Char) :
    ".".intercalate ((pieces '.' cs).map String.ofList) = String.ofList cs := by
  apply String.toList_injective
  rw [String.toList_intercalate, List.map_map, pieces_eq_splitOn]
  simp [Function.comp_def, List.intercalate_splitOn]

end Text

namespace Version

open Text

variable {v : Version} {pre bld cs rest ids : List Char} {n : Nat} {text : String} {mark : Char}

/-! ## The parts of a printed version -/

/-- Identifiers behind their mark; nothing if there are none. -/
def marked (mark : Char) (ids : List Char) : List Char := if ids.isEmpty then [] else mark :: ids

/-- The text of a version. -/
def spelled (major minor patch : Nat) (pre bld : List Char) : List Char :=
  Nat.toDigits 10 major ++ '.' :: (Nat.toDigits 10 minor ++ '.' :: (Nat.toDigits 10 patch ++
    (marked '-' pre ++ marked '+' bld)))

/-- A version can be written with given identifiers. -/
structure Written (v : Version) (pre bld : List Char) : Prop where
  major : (Nat.toDigits 10 v.major).length ≤ longestNumeral
  minor : (Nat.toDigits 10 v.minor).length ≤ longestNumeral
  patch : (Nat.toDigits 10 v.patch).length ≤ longestNumeral
  inPre : ∀ c ∈ pre, isIdentifierChar c = true
  inBuild : ∀ c ∈ bld, isIdentifierChar c = true
  made : make v.major v.minor v.patch pre bld = .ok v

lemma readNumber?_toDigits (hlength : (Nat.toDigits 10 n).length ≤ longestNumeral)
    (hrest : ∀ c ∈ rest.head?, isDecimal c = false) :
    readNumber? (Nat.toDigits 10 n ++ rest) = some (n, rest) := by
  have hdigits : ∀ c ∈ Nat.toDigits 10 n, isDecimal c = true := by
    intro c hc
    exact isDecimal_of_isDigit (Nat.isDigit_of_mem_toDigits (by decide) (by decide) hc)
  obtain ⟨htake, hdrop⟩ := span_append hdigits hrest
  have hzero : ¬ (1 < (Nat.toDigits 10 n).length ∧ (Nat.toDigits 10 n).head? = some '0') := by
    rintro ⟨hlong, hhead⟩
    have hn : 0 < n := by
      rw [← not_le, Nat.length_toDigits_le_iff (by decide) (by decide)] at hlong
      omega
    exact head?_toDigits hn hhead
  simp only [readNumber?, htake, hdrop, numberOf_toDigits]
  rw [if_neg]
  simp only [Bool.or_eq_true, Bool.and_eq_true, decide_eq_true_eq, not_or, List.isEmpty_iff]
  exact ⟨⟨Nat.toDigits_ne_nil, hzero⟩, by omega⟩

lemma readIdentifiers?_marked (hids : ∀ c ∈ ids, isIdentifierChar c = true)
    (hrest : ∀ c ∈ rest.head?, isIdentifierChar c = false ∧ c ≠ mark) :
    readIdentifiers? mark (marked mark ids ++ rest) = some (ids, rest) := by
  cases ids with
  | nil =>
    cases rest with
    | nil => rfl
    | cons c rest =>
      have hc : c ≠ mark := (hrest c rfl).2
      simp [marked, readIdentifiers?, hc]
  | cons i ids =>
    obtain ⟨htake, hdrop⟩ := span_append hids fun c hc => (hrest c hc).1
    simp only [marked, List.isEmpty_cons, readIdentifiers?, List.cons_append] at htake hdrop ⊢
    simp [htake, hdrop]

lemma readChars?_spelled (h : Written v pre bld) :
    readChars? (spelled v.major v.minor v.patch pre bld) = some v := by
  have hdot : ∀ cs : List Char, ∀ c ∈ ('.' :: cs).head?, isDecimal c = false := by
    rintro cs c ⟨⟩
    decide
  have htail : ∀ c ∈ (marked '-' pre ++ marked '+' bld).head?, isDecimal c = false := by
    intro c hc
    cases pre with
    | nil =>
      cases bld with
      | nil => simp [marked] at hc
      | cons b bld =>
        obtain rfl : '+' = c := by simpa [marked] using hc
        decide
    | cons a pre =>
      obtain rfl : '-' = c := by simpa [marked] using hc
      decide
  have hbld : ∀ c ∈ (marked '+' bld).head?, isIdentifierChar c = false ∧ c ≠ '-' := by
    intro c hc
    cases bld with
    | nil => simp [marked] at hc
    | cons b bld =>
      obtain rfl : '+' = c := by simpa [marked] using hc
      decide
  have hlast : readIdentifiers? '+' (marked '+' bld) = some (bld, []) := by
    have hread : readIdentifiers? '+' (marked '+' bld ++ []) = some (bld, []) :=
      readIdentifiers?_marked h.inBuild (by simp)
    rwa [List.append_nil] at hread
  simp only [readChars?, spelled, readNumber?_toDigits h.major (hdot _), readDot?,
    readNumber?_toDigits h.minor (hdot _), readNumber?_toDigits h.patch htail,
    readIdentifiers?_marked h.inPre hbld, hlast, Option.bind_eq_bind, Option.bind_some,
    List.isEmpty_nil, if_true]
  rw [h.made]
  rfl

/-! ## The printed form -/

/-- The identifiers that a text is split into. -/
def identifiers (cs : List Char) : List String :=
  if cs.isEmpty then [] else (pieces '.' cs).map String.ofList

lemma make_eq_ok {major minor patch : Nat} (h : make major minor patch pre bld = .ok v) :
    v = ⟨major, minor, patch, identifiers pre, identifiers bld⟩ := by
  simp only [make, bind, Except.bind] at h
  split at h
  · contradiction
  · split at h
    · contradiction
    · split at h
      · contradiction
      · exact (Except.ok.inj h).symm

/-- What is printed behind the numbers. -/
lemma marked_identifiers (mark : Char) (cs : List Char) :
    (if (identifiers cs).isEmpty then ""
      else String.singleton mark ++ ".".intercalate (identifiers cs)).toList =
      marked mark cs := by
  cases cs with
  | nil => rfl
  | cons c cs =>
    have hne : (pieces '.' (c :: cs)).map String.ofList ≠ [] := by
      intro hnil
      have hjoin := intercalate_pieces (c :: cs)
      rw [hnil] at hjoin
      simpa using congrArg String.toList hjoin
    have hids : identifiers (c :: cs) = (pieces '.' (c :: cs)).map String.ofList := rfl
    rw [hids, if_neg (by simpa using hne), intercalate_pieces]
    simp [marked]

lemma toList_render (h : Written v pre bld) :
    v.render.toList = spelled v.major v.minor v.patch pre bld := by
  have hv := make_eq_ok h.made
  have hpre := marked_identifiers '-' pre
  have hbld := marked_identifiers '+' bld
  rw [hv]
  simp only [render, spelled, String.toList_append, ← hpre, ← hbld]
  simp [toString, Nat.toList_repr]

/-! ## What has been read can be written -/

lemma length_of_readNumber? (h : readNumber? cs = some (n, rest)) :
    (Nat.toDigits 10 n).length ≤ longestNumeral := by
  simp only [readNumber?] at h
  split at h
  · contradiction
  · next hgood =>
    simp only [Bool.or_eq_true, Bool.and_eq_true, decide_eq_true_eq, not_or, List.isEmpty_iff] at hgood
    obtain ⟨⟨hne, -⟩, hshort⟩ := hgood
    obtain ⟨rfl, -⟩ := Prod.mk.inj (Option.some.inj h)
    exact (length_toDigits_numberOf hne).trans (Nat.le_of_not_lt hshort)

lemma forall_of_readIdentifiers? (h : readIdentifiers? mark cs = some (ids, rest)) :
    ∀ c ∈ ids, isIdentifierChar c = true := by
  intro c hc
  rw [readIdentifiers?.eq_def] at h
  split at h
  · obtain ⟨rfl, -⟩ := Prod.mk.inj (Option.some.inj h)
    exact nomatch hc
  · split at h
    · simp only at h
      split at h
      · contradiction
      · obtain ⟨rfl, -⟩ := Prod.mk.inj (Option.some.inj h)
        exact List.mem_takeWhile_imp hc
    · obtain ⟨rfl, -⟩ := Prod.mk.inj (Option.some.inj h)
      exact nomatch hc

/-- The parts that are read of a version, with the texts that they leave. -/
structure Parts (v : Version) (pre bld cs : List Char) : Prop where
  read : ∃ c₁ c₂ c₃ c₄ c₅ c₆, readNumber? cs = some (v.major, c₁) ∧ readDot? c₁ = some c₂ ∧
    readNumber? c₂ = some (v.minor, c₃) ∧ readDot? c₃ = some c₄ ∧
    readNumber? c₄ = some (v.patch, c₅) ∧ readIdentifiers? '-' c₅ = some (pre, c₆) ∧
    readIdentifiers? '+' c₆ = some (bld, [])
  made : make v.major v.minor v.patch pre bld = .ok v

lemma parts_of_readChars? (h : readChars? cs = some v) : ∃ pre bld, Parts v pre bld cs := by
  simp only [readChars?, Option.bind_eq_bind, Option.bind_eq_some_iff, Prod.exists] at h
  obtain ⟨major, c₁, hmajor, c₂, hdot, minor, c₃, hminor, c₄, hdot', patch, c₅, hpatch, pre, c₆, hpre,
    bld, c₇, hbld, h⟩ := h
  split at h
  · next hend =>
    obtain rfl := List.isEmpty_iff.mp hend
    cases hmake : make major minor patch pre bld with
    | error f =>
      rw [hmake] at h
      exact nomatch h
    | ok w =>
      rw [hmake] at h
      obtain rfl := Option.some.inj h
      have hw := make_eq_ok hmake
      rw [hw] at hmake ⊢
      exact ⟨pre, bld, ⟨c₁, c₂, c₃, c₄, c₅, c₆, hmajor, hdot, hminor, hdot', hpatch, hpre, hbld⟩, hmake⟩
  · contradiction

lemma Parts.written (h : Parts v pre bld cs) : Written v pre bld := by
  obtain ⟨_, _, _, _, _, _, hmajor, -, hminor, -, hpatch, hpre, hbld⟩ := h.read
  exact ⟨length_of_readNumber? hmajor, length_of_readNumber? hminor, length_of_readNumber? hpatch,
    forall_of_readIdentifiers? hpre, forall_of_readIdentifiers? hbld, h.made⟩

lemma written_of_readChars? (h : readChars? cs = some v) : ∃ pre bld, Written v pre bld := by
  obtain ⟨pre, bld, hparts⟩ := parts_of_readChars? h
  exact ⟨pre, bld, hparts.written⟩

/-! ## Blanks and marks -/

lemma not_isBlank_of_isIdentifierChar {c : Char} (h : isIdentifierChar c = true) :
    isBlank c = false := by
  rw [isIdentifierChar, Bool.or_eq_true, Bool.or_eq_true, beq_iff_eq, beq_iff_eq] at h
  rcases h with (halnum | rfl) | rfl
  · exact not_isBlank_of_isAlphanum halnum
  · decide
  · decide

lemma isIdentifierChar_of_mem_toDigits {c : Char} (h : c ∈ Nat.toDigits 10 n) :
    isIdentifierChar c = true := by
  have hdigit := Nat.isDigit_of_mem_toDigits (by decide) (by decide) h
  simp [isIdentifierChar, Char.isAlphanum, hdigit]

lemma mem_marked {c : Char} (hc : c ∈ marked mark ids) : c = mark ∨ c ∈ ids := by
  rw [marked] at hc
  split at hc
  · exact nomatch hc
  · exact List.mem_cons.mp hc

/-- The characters of a printed version. -/
lemma mem_spelled {major minor patch : Nat} {c : Char} (hpre : ∀ c ∈ pre, isIdentifierChar c = true)
    (hbld : ∀ c ∈ bld, isIdentifierChar c = true) (hc : c ∈ spelled major minor patch pre bld) :
    isIdentifierChar c = true ∨ c = '+' := by
  have hnumber : ∀ {n}, c ∈ Nat.toDigits 10 n → isIdentifierChar c = true :=
    isIdentifierChar_of_mem_toDigits
  simp only [spelled, List.mem_append, List.mem_cons] at hc
  rcases hc with hc | rfl | hc | rfl | hc | hc | hc
  · exact .inl (hnumber hc)
  · exact .inl (by decide)
  · exact .inl (hnumber hc)
  · exact .inl (by decide)
  · exact .inl (hnumber hc)
  · rcases mem_marked hc with rfl | hc
    · exact .inl (by decide)
    · exact .inl (hpre c hc)
  · rcases mem_marked hc with rfl | hc
    · exact .inr rfl
    · exact .inl (hbld c hc)

/-- There are no blanks in a printed version. -/
lemma not_isBlank_of_mem_spelled {c : Char} (h : Written v pre bld)
    (hc : c ∈ spelled v.major v.minor v.patch pre bld) : isBlank c = false := by
  rcases mem_spelled h.inPre h.inBuild hc with hid | rfl
  · exact not_isBlank_of_isIdentifierChar hid
  · decide

/-- A printed version does not begin with a mark. -/
lemma dropWhile_isMark_spelled (major minor patch : Nat) (pre bld : List Char) :
    (spelled major minor patch pre bld).dropWhile isMark = spelled major minor patch pre bld := by
  obtain ⟨c, ds, hds⟩ := List.exists_cons_of_ne_nil (Nat.toDigits_ne_nil (n := major) (b := 10))
  have hc : c.isDigit = true :=
    Nat.isDigit_of_mem_toDigits (by decide) (by decide) (hds ▸ List.mem_cons_self)
  have hmark : isMark c = false := by
    rw [isMark, Bool.or_eq_false_iff, beq_eq_false_iff_ne, beq_eq_false_iff_ne]
    constructor <;> rintro rfl <;> exact nomatch hc
  rw [spelled, hds, List.cons_append, List.dropWhile_cons_of_neg (by simp [hmark])]

/-- The printed form of a version that has been read is read as the same version. -/
theorem parse?_render (h : parse? text = some v) : parse? v.render = some v := by
  obtain ⟨pre, bld, hw⟩ := written_of_readChars? h
  have hblank := trimChars_of_forall fun c hc => not_isBlank_of_mem_spelled hw hc
  rw [parse?, toList_render hw, hblank, dropWhile_isMark_spelled, hblank, readChars?_spelled hw]

/-! ## Selected versions -/

/-- Among some texts there is a version that a range admits; a prerelease counts only for a range that
names one. -/
def Satisfiable (range : String) (candidates : List String) : Prop :=
  ∃ r, Range.ofText range = .ok r ∧
    ∃ v ∈ eligible (includesPrerelease range) candidates, r.contains v = true

variable {range version : String} {candidates : List String} {vs : List Version}

lemma highest_mem (best : Version) (vs : List Version) : highest best vs ∈ best :: vs := by
  induction vs generalizing best with
  | nil => exact List.mem_cons_self
  | cons v vs ih =>
    rw [highest]
    have hmem := ih (if best.before v then v else best)
    rcases List.mem_cons.mp hmem with heq | hmem
    · rw [heq]
      split
      · exact List.mem_cons_of_mem _ List.mem_cons_self
      · exact List.mem_cons_self
    · exact List.mem_cons_of_mem _ (List.mem_cons_of_mem _ hmem)

lemma mem_of_choose {reason : NoChoice} (h : choose reason vs = .ok version) :
    ∃ v ∈ vs, version = v.render := by
  cases vs with
  | nil => exact nomatch h
  | cons v vs => exact ⟨_, highest_mem v vs, (Except.ok.inj h).symm⟩

lemma choose_isOk_iff (reason : NoChoice) :
    (∃ version, choose reason vs = .ok version) ↔ vs ≠ [] := by
  cases vs with
  | nil => simp [choose]
  | cons v vs => simp [choose]

/-- A version is picked exactly if there is one that the range admits. -/
lemma pickRange_isOk_iff :
    (∃ version, pickRange range candidates = .ok (.ok version)) ↔ Satisfiable range candidates := by
  rw [pickRange, Satisfiable]
  cases Range.ofText range with
  | error f => cases f <;> simp
  | ok r =>
    simp only [Except.ok.injEq, choose_isOk_iff, exists_eq_left', ne_eq, List.filter_eq_nil_iff]
    push Not
    rfl

lemma exists_of_eligible {prereleases : Bool} (h : v ∈ eligible prereleases candidates) :
    ∃ c ∈ candidates, parse? c = some v := by
  obtain ⟨c, hc, hv⟩ := List.mem_filterMap.mp h
  exact ⟨c, hc, (Option.filter_eq_some_iff.mp hv).1⟩

/-- What is picked for a range is the printed form of a candidate in the range. -/
lemma exists_of_pickRange (h : pickRange range candidates = .ok (.ok version)) :
    ∃ r v, Range.ofText range = .ok r ∧ r.contains v = true ∧ (∃ c ∈ candidates, parse? c = some v) ∧
      version = v.render := by
  rw [pickRange] at h
  cases hr : Range.ofText range with
  | error f => cases f <;> simp [hr] at h
  | ok r =>
    simp only [hr, Except.ok.injEq] at h
    obtain ⟨v, hv, rfl⟩ := mem_of_choose h
    obtain ⟨heligible, hcontains⟩ := List.mem_filter.mp hv
    exact ⟨r, v, rfl, hcontains, exists_of_eligible heligible, rfl⟩

lemma exists_of_pickLatest (h : pickLatest candidates = .ok version) :
    ∃ v, (∃ c ∈ candidates, parse? c = some v) ∧ version = v.render := by
  rw [pickLatest] at h
  split at h
  · exact nomatch h
  · obtain ⟨v, hv, rfl⟩ := mem_of_choose h
    exact ⟨v, exists_of_eligible hv, rfl⟩

/-- The version that is picked for a range satisfies it. -/
theorem satisfies_of_pickRange (h : pickRange range candidates = .ok (.ok version)) :
    satisfies version range = .ok true := by
  obtain ⟨r, v, hr, hcontains, ⟨c, -, hc⟩, rfl⟩ := exists_of_pickRange h
  rw [satisfies, parse?_render hc, hr]
  simp only [hcontains]

end Version

end SourceBundle
