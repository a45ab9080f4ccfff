/-
# The order of precedence

Versions are compared part by part, and each part is ordered totally, so precedence is a total order up
to what it leaves out of account.  For versions that have been read this is the build alone: an
identifier that is a number is written without zeros in front, so no two of them have the same value.
-/
import SourceBundle.Proofs.Version.Rendered

namespace SourceBundle

namespace Text

variable {ds : List Char} {c : Char}

lemma digitValue?_of_isDigit (hc : c.isDigit = true) : digitValue? c = some (c.toNat - 48) := by
  have hlow : c.toNat < 128 := by
    simp only [Char.isDigit, Bool.and_eq_true, decide_eq_true_eq] at hc
    have hle : c.toNat ≤ 57 := hc.2
    omega
  rw [digitValue?, if_pos hlow, if_pos hc]

lemma digitChar_of_isDigit (hc : c.isDigit = true) : (c.toNat - 48).digitChar = c := by
  simp only [Char.isDigit, Bool.and_eq_true, decide_eq_true_eq] at hc
  have hge : 48 ≤ c.toNat := hc.1
  have hle : c.toNat ≤ 57 := hc.2
  apply Char.toNat_inj.mp
  rw [Nat.toNat_digitChar_of_lt_ten (by omega)]
  omega

/-- A number that is written in ASCII digits, without zeros in front, is printed as it is written. -/
lemma toDigits_numberOf (hdigits : ∀ c ∈ ds, c.isDigit = true) (hne : ds ≠ [])
    (hzero : 1 < ds.length → ds.head? ≠ some '0') : Nat.toDigits 10 (numberOf ds) = ds := by
  induction ds using List.reverseRecOn with
  | nil => exact absurd rfl hne
  | append_singleton ds c ih =>
    have hc : c.isDigit = true := hdigits c (List.mem_append_right _ (List.mem_singleton_self c))
    have hvalue := digitValue?_of_isDigit hc
    have hlt : c.toNat - 48 < 10 := by
      have h := digitValue?_lt c
      rwa [hvalue] at h
    have hlast : Nat.toDigits 10 (c.toNat - 48) = [c] := by
      rw [Nat.toDigits_of_lt_base hlt, digitChar_of_isDigit hc]
    rw [numberOf_concat, hvalue, Option.getD_some]
    cases ds with
    | nil => simpa [numberOf] using hlast
    | cons d ds =>
      have hhead : d ≠ '0' := by simpa using hzero
      have hfront := ih (fun e he => hdigits e (List.mem_append_left _ he)) (List.cons_ne_nil d ds)
        fun _ => by simpa using hhead
      have hpos : 0 < numberOf (d :: ds) := by
        rw [Nat.pos_iff_ne_zero]
        intro hnone
        rw [hnone] at hfront
        obtain ⟨rfl, -⟩ := List.cons.inj hfront
        exact hhead rfl
      rw [← Nat.toDigits_append_toDigits (by decide) hpos hlt, hfront, hlast]

end Text

namespace Version

open Text

variable {v w best : Version} {a b text : String} {as bs ids : List String} {vs ws : List Version}

/-! ## A total order -/

/-- Orders of values are orders of what the values belong to. -/
lemma transCmp_comap {α β : Type} {cmp : β → β → Ordering} [Std.TransCmp cmp] (f : α → β) :
    Std.TransCmp fun x y => cmp (f x) (f y) where
  eq_swap := Std.OrientedCmp.eq_swap
  isLE_trans := Std.TransCmp.isLE_trans

/-- The number that an identifier is; zero for a word. -/
def numberIn (i : String) : Nat := if isNumeric i then numberOf i.toList else 0

/-- The word that an identifier is; nothing for a number. -/
def wordIn (i : String) : String := if isNumeric i then "" else i

lemma compareIdentifiers_eq : compareIdentifiers =
    compareLex (compareOn fun i => !isNumeric i) (compareLex (compareOn numberIn) (compareOn wordIn)) := by
  funext a b
  simp only [compareIdentifiers, compareLex, compareOn, numberIn, wordIn]
  cases isNumeric a with
  | true =>
    cases isNumeric b with
    | true => simp
    | false => rfl
  | false =>
    cases isNumeric b with
    | true => rfl
    | false => rfl

instance : Std.TransCmp compareIdentifiers := by
  rw [compareIdentifiers_eq]
  infer_instance

lemma compareLists_eq : compareLists = List.compareLex compareIdentifiers := by
  funext as bs
  induction as generalizing bs with
  | nil => cases bs <;> rfl
  | cons a as ih =>
    cases bs with
    | nil => rfl
    | cons b bs => rw [compareLists, ih, List.compareLex_cons_cons]

lemma comparePrereleases_eq :
    comparePrereleases = compareLex (compareOn List.isEmpty) compareLists := by
  funext as bs
  cases as <;> cases bs <;> rfl

instance : Std.TransCmp comparePrereleases := by
  rw [comparePrereleases_eq, compareLists_eq]
  infer_instance

lemma order_eq : order = compareLex (compareOn major) (compareLex (compareOn minor)
    (compareLex (compareOn patch) fun v w => comparePrereleases v.prerelease w.prerelease)) := rfl

instance : Std.TransCmp order := by
  have : Std.TransCmp fun v w : Version => comparePrereleases v.prerelease w.prerelease :=
    transCmp_comap prerelease
  rw [order_eq]
  infer_instance

/-! ## Versions of the same precedence -/

/-- An identifier as it stands in a prerelease: it is not empty, and a number has no zeros in front. -/
structure ProperIdentifier (i : String) : Prop where
  nonempty : i.toList ≠ []
  noZero : isNumeric i = true → 1 < i.toList.length → i.toList.head? ≠ some '0'

lemma proper_of_checkIdentifiers {all : String} (h : checkIdentifiers false all ids = .ok ()) :
    ∀ i ∈ ids, ProperIdentifier i := by
  induction ids with
  | nil => exact nofun
  | cons i ids ih =>
    unfold checkIdentifiers at h
    split at h
    · exact nomatch h
    · next hne =>
      split at h
      · exact nomatch h
      · next hzero =>
        refine List.forall_mem_cons.mpr ⟨⟨?_, fun hnumeric hlong hhead => hzero ?_⟩, ih h⟩
        · simpa using hne
        · simpa [hnumeric, hhead, String.length_toList] using hlong

/-- The identifiers of the prerelease of a version that has been read are proper. -/
lemma proper_of_parse? (h : parse? text = some v) : ∀ i ∈ v.prerelease, ProperIdentifier i := by
  obtain ⟨pre, bld, hw⟩ := written_of_readChars? h
  have hmade := hw.made
  have hv := make_eq_ok hmade
  simp only [make, bind, Except.bind] at hmade
  split at hmade
  · contradiction
  · next hcheck =>
    rw [hv]
    exact proper_of_checkIdentifiers hcheck

lemma eq_of_compareIdentifiers (ha : ProperIdentifier a) (hb : ProperIdentifier b)
    (h : compareIdentifiers a b = .eq) : a = b := by
  rw [compareIdentifiers_eq, compareLex_eq_eq, compareLex_eq_eq] at h
  obtain ⟨hkind, hnumber, hword⟩ := h
  have hkind : isNumeric a = isNumeric b := Bool.not_inj (Std.LawfulEqOrd.eq_of_compare hkind)
  have hnumber : numberIn a = numberIn b := Std.LawfulEqOrd.eq_of_compare hnumber
  have hword : wordIn a = wordIn b := Std.LawfulEqOrd.eq_of_compare hword
  unfold numberIn at hnumber
  unfold wordIn at hword
  rw [← hkind] at hnumber hword
  cases hnumeric : isNumeric a with
  | false => simpa [hnumeric] using hword
  | true =>
    rw [hnumeric, if_pos rfl, if_pos rfl] at hnumber
    have hprinted : ∀ i, ProperIdentifier i → isNumeric i = true →
        Nat.toDigits 10 (numberOf i.toList) = i.toList := fun i hi hn =>
      toDigits_numberOf (List.all_eq_true.mp hn) hi.nonempty (hi.noZero hn)
    apply String.toList_injective
    calc a.toList = Nat.toDigits 10 (numberOf a.toList) := (hprinted a ha hnumeric).symm
      _ = Nat.toDigits 10 (numberOf b.toList) := by rw [hnumber]
      _ = b.toList := hprinted b hb (hkind ▸ hnumeric)

lemma eq_of_compareLists (has : ∀ i ∈ as, ProperIdentifier i) (hbs : ∀ i ∈ bs, ProperIdentifier i)
    (h : compareLists as bs = .eq) : as = bs := by
  induction as generalizing bs with
  | nil =>
    cases bs with
    | nil => rfl
    | cons b bs => exact nomatch h
  | cons a as ih =>
    cases bs with
    | nil => exact nomatch h
    | cons b bs =>
      obtain ⟨ha, has⟩ := List.forall_mem_cons.mp has
      obtain ⟨hb, hbs⟩ := List.forall_mem_cons.mp hbs
      rw [compareLists, Ordering.then_eq_eq] at h
      rw [eq_of_compareIdentifiers ha hb h.1, ih has hbs h.2]

/-- Two versions that have been read are of the same precedence exactly if they differ in nothing but
their builds. -/
theorem order_eq_eq_iff (hv : ∀ i ∈ v.prerelease, ProperIdentifier i)
    (hw : ∀ i ∈ w.prerelease, ProperIdentifier i) :
    v.order w = .eq ↔ v.withoutBuild = w.withoutBuild := by
  constructor
  · intro h
    rw [order_eq, compareLex_eq_eq, compareLex_eq_eq, compareLex_eq_eq, comparePrereleases_eq,
      compareLex_eq_eq] at h
    obtain ⟨hmajor, hminor, hpatch, -, hpre⟩ := h
    have hmajor : v.major = w.major := Std.LawfulEqOrd.eq_of_compare hmajor
    have hminor : v.minor = w.minor := Std.LawfulEqOrd.eq_of_compare hminor
    have hpatch : v.patch = w.patch := Std.LawfulEqOrd.eq_of_compare hpatch
    rw [withoutBuild, withoutBuild, hmajor, hminor, hpatch, eq_of_compareLists hv hw hpre]
  · intro h
    have hsame : v.withoutBuild.order w.withoutBuild = .eq := by
      rw [h]
      exact Std.ReflCmp.compare_self
    exact hsame

/-! ## The highest version -/

/-- No version comes after the highest one. -/
lemma isLE_order_highest (h : v ∈ best :: vs) : (v.order (highest best vs)).isLE = true := by
  induction vs generalizing best v with
  | nil =>
    obtain rfl := List.mem_singleton.mp h
    simp [highest, Std.ReflCmp.compare_self]
  | cons w vs ih =>
    rw [highest]
    -- the one that is kept of the first two does not come before either of them
    have hkept : (best.order (if best.before w then w else best)).isLE = true ∧
        (w.order (if best.before w then w else best)).isLE = true := by
      unfold before
      by_cases hlt : best.order w = .lt
      · simp [hlt, Std.ReflCmp.compare_self]
      · have hswap : w.order best = (best.order w).swap := Std.OrientedCmp.eq_swap
        have hle : (w.order best).isLE = true := by
          rw [hswap]
          cases ho : best.order w with
          | lt => exact absurd ho hlt
          | eq => rfl
          | gt => rfl
        simp [hlt, hle, Std.ReflCmp.compare_self]
    have hbest := ih (List.mem_cons_self (a := if best.before w then w else best) (l := vs))
    rcases List.mem_cons.mp h with rfl | h
    · exact Std.TransCmp.isLE_trans hkept.1 hbest
    · rcases List.mem_cons.mp h with rfl | h
      · exact Std.TransCmp.isLE_trans hkept.2 hbest
      · exact ih (List.mem_cons_of_mem _ h)

/-- The highest of some versions has the same precedence in whatever order they come. -/
lemma order_highest_of_perm {best' : Version} (h : (best :: vs).Perm (best' :: ws)) :
    (highest best vs).order (highest best' ws) = .eq :=
  Std.OrientedCmp.isLE_antisymm (isLE_order_highest (h.subset (highest_mem best vs)))
    (isLE_order_highest (h.symm.subset (highest_mem best' ws)))

end Version

end SourceBundle
