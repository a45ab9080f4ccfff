/-
# What redaction hides

Redaction goes by equals signs.  In front of the first one nothing changes; if a sensitive word stands
directly in front of it, the mark takes the place of all up to the next ampersand, and otherwise the rest is
redacted on its own.  So a value behind a sensitive word never shows, whatever stands in front of the word:
a value that began earlier has ended at an ampersand by then, or it takes in the word and its value.

The mark holds neither an equals sign nor an ampersand, so a redacted text is its own redaction.
-/
import Mathlib.Data.List.TakeWhile
import SourceBundle.Proofs.Text.Cut
import SourceBundle.Proofs.Url.Redact

namespace SourceBundle.Url

open SourceBundle.Text

variable {word pre front rest p k v t : List Char}

/-! ## Words in front of an equals sign -/

/-- A sensitive word, in any case. -/
def IsSensitive (word : List Char) : Prop := word.map foldLetter ∈ sensitiveWords

instance (word : List Char) : Decidable (IsSensitive word) := inferInstanceAs (Decidable (_ ∈ _))

/-- A text ends in a sensitive word. -/
def EndsSensitive (front : List Char) : Prop := ∃ word, word <:+ front ∧ IsSensitive word

lemma foldLetter_eq_toLower {c : Char} (h : c.toLower.toNat < 128) : foldLetter c = c.toLower := by
  unfold foldLetter
  split
  · next hc =>
    obtain rfl : c = '\u212a' := Char.toNat_inj.mp hc
    exact absurd h (by decide)
  · split
    · next hc =>
      obtain rfl : c = '\u017f' := Char.toNat_inj.mp hc
      exact absurd h (by decide)
    · rfl

/-- The letters of a sensitive word may be small or capital. -/
lemma isSensitive_of_toLower (h : word.map Char.toLower ∈ sensitiveWords) : IsSensitive word := by
  have hascii : ∀ w ∈ sensitiveWords, ∀ c ∈ w, c.toNat < 128 := by simp [sensitiveWords]
  have hfold : word.map foldLetter = word.map Char.toLower :=
    List.map_congr_left fun c hc => foldLetter_eq_toLower (hascii _ h _ (List.mem_map_of_mem hc))
  rwa [IsSensitive, hfold]

lemma IsSensitive.not_mem (h : IsSensitive word) : '=' ∉ word ∧ '&' ∉ word := by
  have hwords : ∀ w ∈ sensitiveWords, foldLetter '=' ∉ w ∧ foldLetter '&' ∉ w := by decide
  obtain ⟨hequals, hampersand⟩ := hwords _ h
  exact ⟨fun hmem => hequals (List.mem_map_of_mem hmem), fun hmem => hampersand (List.mem_map_of_mem hmem)⟩

lemma spells_iff : Spells pre ↔ ∃ word, pre = word ++ ['='] ∧ IsSensitive word := by
  constructor
  · rintro ⟨w, hw, hpre⟩
    obtain ⟨word, last, rfl, hword, hlast⟩ := List.map_eq_append_iff.mp hpre
    obtain ⟨c, rfl, hc⟩ := List.map_eq_singleton_iff.mp hlast
    exact ⟨word, by rw [eq_of_foldLetter hc], by rwa [IsSensitive, hword]⟩
  · rintro ⟨word, rfl, hword⟩
    exact ⟨_, hword, by rw [List.map_append]; rfl⟩

lemma dropWord?_append (pre rest : List Char) : dropWord? (pre.map foldLetter) (pre ++ rest) = some rest := by
  induction pre with
  | nil => rfl
  | cons c pre ih => rw [List.map_cons, List.cons_append, dropWord?, if_pos rfl, ih]

/-- A sensitive word is found where it stands in front of an equals sign. -/
lemma exists_sensitiveAt? (h : IsSensitive word) (rest : List Char) :
    ∃ n, sensitiveAt? (word ++ '=' :: rest) = some n := by
  have hfold : (word ++ ['=']).map foldLetter = word.map foldLetter ++ ['='] := by
    rw [List.map_append]
    rfl
  have hdrop := dropWord?_append (word ++ ['=']) rest
  rw [hfold, List.append_assoc, List.singleton_append] at hdrop
  rw [← Option.isSome_iff_exists, sensitiveAt?, List.findSome?_isSome_iff]
  exact ⟨_, h, by rw [hdrop]; rfl⟩

/-- What is found in front of the first equals sign is all that stands there. -/
lemma sensitiveAt?_eq_none (hfront : '=' ∉ front) (h : ¬ IsSensitive front) (rest : List Char) :
    sensitiveAt? (front ++ '=' :: rest) = none := by
  by_contra hsome
  obtain ⟨n, hn⟩ := Option.ne_none_iff_exists'.mp hsome
  obtain ⟨pre, tail, heq, -, hpre⟩ := exists_spells hn
  obtain ⟨word, rfl, hword⟩ := spells_iff.mp hpre
  have hcut := congrArg (cutFirst '=') heq
  rw [List.append_assoc, List.singleton_append, cutFirst_append hfront, cutFirst_append hword.not_mem.1] at hcut
  exact h ((Prod.mk.inj hcut).1 ▸ hword)

lemma sensitiveAt?_of_not_mem (h : '=' ∉ p) : sensitiveAt? p = none := by
  by_contra hsome
  obtain ⟨n, hn⟩ := Option.ne_none_iff_exists'.mp hsome
  obtain ⟨pre, tail, rfl, -, hpre⟩ := exists_spells hn
  exact h (List.mem_append_left tail hpre.equals_mem)

/-! ## Redaction by equals signs -/

/-- Without an equals sign nothing changes. -/
lemma redactFrom_of_not_mem (h : '=' ∉ p) : redactFrom .search p = p := by
  induction p with
  | nil => rfl
  | cons c p ih =>
    have hp : '=' ∉ p := fun hmem => h (List.mem_cons_of_mem c hmem)
    rw [redactFrom, sensitiveAt?_of_not_mem h, ih hp]

/-- An equals sign without a sensitive word in front changes nothing. -/
lemma redactFrom_of_not_endsSensitive (hfront : '=' ∉ front) (h : ¬ EndsSensitive front) (rest : List Char) :
    redactFrom .search (front ++ '=' :: rest) = front ++ '=' :: redactFrom .search rest := by
  have hnone := sensitiveAt?_eq_none hfront (fun hword => h ⟨front, List.suffix_rfl, hword⟩) rest
  induction front with
  | nil =>
    rw [List.nil_append] at hnone ⊢
    rw [redactFrom, hnone, List.nil_append]
  | cons c front ih =>
    have hfront' : '=' ∉ front := fun hmem => hfront (List.mem_cons_of_mem c hmem)
    have h' : ¬ EndsSensitive front := by
      rintro ⟨word, hsuffix, hword⟩
      exact h ⟨word, hsuffix.trans (List.suffix_cons c front), hword⟩
    have hnone' := sensitiveAt?_eq_none hfront' (fun hword => h' ⟨front, List.suffix_rfl, hword⟩) rest
    rw [List.cons_append] at hnone ⊢
    rw [redactFrom, hnone, List.cons_append]
    exact congrArg _ (ih hfront' h' hnone')

/-- Behind a sensitive word and its equals sign the mark stands. -/
lemma redactFrom_of_endsSensitive (hfront : '=' ∉ front) (h : EndsSensitive front) (rest : List Char) :
    redactFrom .search (front ++ '=' :: rest) = front ++ '=' :: (mark ++ redactFrom .omit rest) := by
  induction front with
  | nil =>
    obtain ⟨word, hsuffix, hword⟩ := h
    rw [List.suffix_nil.mp hsuffix] at hword
    exact absurd hword (by decide)
  | cons c front ih =>
    cases hfound : sensitiveAt? (c :: front ++ '=' :: rest) with
    | some n =>
      obtain ⟨pre, tail, heq, hpre, hredacted⟩ := redactFrom_of_sensitive hfound
      obtain ⟨word, rfl, hword⟩ := spells_iff.mp hpre
      have hcut := congrArg (cutFirst '=') heq
      rw [List.append_assoc, List.singleton_append, cutFirst_append hfront,
        cutFirst_append hword.not_mem.1, Prod.mk.injEq, Option.some.injEq] at hcut
      rw [hredacted, hcut.1, hcut.2, List.append_assoc, List.singleton_append]
    | none =>
      obtain ⟨word, hsuffix, hword⟩ := h
      have hfront' : '=' ∉ front := fun hmem => hfront (List.mem_cons_of_mem c hmem)
      -- the word is not all that stands in front, or it would have been found
      have hshorter : word <:+ front := by
        refine (List.suffix_cons_iff.mp hsuffix).resolve_left ?_
        rintro rfl
        obtain ⟨n, hn⟩ := exists_sensitiveAt? hword rest
        rw [hfound] at hn
        contradiction
      rw [List.cons_append] at hfound ⊢
      rw [redactFrom, hfound, List.cons_append]
      exact congrArg _ (ih hfront' ⟨word, hshorter, hword⟩)

lemma redactFrom_ampersand (p : List Char) : redactFrom .search ('&' :: p) = '&' :: redactFrom .search p :=
  redactFrom_append (by decide) List.not_mem_nil p

/-- A value that is left out ends at the next ampersand, where redaction goes on. -/
lemma redactFrom_omit (p : List Char) : redactFrom .omit p = redactFrom .search (p.dropWhile (· != '&')) := by
  induction p with
  | nil => rfl
  | cons c p ih =>
    by_cases hc : c = '&'
    · subst hc
      rw [redactFrom, if_pos rfl, List.dropWhile_cons_of_neg (by decide), redactFrom_ampersand]
    · rw [redactFrom, if_neg hc, List.dropWhile_cons_of_pos (by simpa using hc), ih]

/-! ## Values -/

/-- A text behind a value: it is empty, or begins with an ampersand. -/
def EndsValue (t : List Char) : Prop := t = [] ∨ t.head? = some '&'

instance (t : List Char) : Decidable (EndsValue t) := inferInstanceAs (Decidable (_ ∨ _))

lemma dropWhile_value (hv : '&' ∉ v) (ht : EndsValue t) : (v ++ t).dropWhile (· != '&') = t := by
  have hall : ∀ c ∈ v, (c != '&') = true := fun c hc => by simpa using ne_of_mem_of_not_mem hc hv
  rw [List.dropWhile_append_of_pos hall]
  cases t with
  | nil => rfl
  | cons c t =>
    have hc : c = '&' := by simpa [EndsValue] using ht
    exact List.dropWhile_cons_of_neg (by simp [hc])

lemma endsValue_dropWhile (p : List Char) : EndsValue (p.dropWhile (· != '&')) := by
  cases hdrop : p.dropWhile (· != '&') with
  | nil => exact .inl rfl
  | cons c rest =>
    have hnot := List.head?_dropWhile_not (· != '&') p
    rw [hdrop] at hnot
    exact .inr (by simpa using hnot)

/-- The redaction of what stands behind a value stands behind a value. -/
lemma endsValue_redactFrom (ht : EndsValue t) : EndsValue (redactFrom .search t) := by
  cases t with
  | nil => exact .inl rfl
  | cons c t =>
    obtain rfl : c = '&' := by simpa [EndsValue] using ht
    rw [redactFrom_ampersand]
    exact .inr rfl

/-- A text by its equals signs: it has none, or what stands behind the first one is redacted on its own, from
there or from behind the value that begins there. -/
@[elab_as_elim]
theorem equals_induction {motive : List Char → Prop} (free : ∀ p, '=' ∉ p → motive p)
    (plain : ∀ front rest, '=' ∉ front → ¬ EndsSensitive front → motive rest → motive (front ++ '=' :: rest))
    (value : ∀ front rest, '=' ∉ front → EndsSensitive front → motive (rest.dropWhile (· != '&')) →
      motive (front ++ '=' :: rest))
    (p : List Char) : motive p := by
  induction hn : p.length using Nat.strongRecOn generalizing p with
  | _ n ih =>
    subst hn
    by_cases hp : '=' ∈ p
    · obtain ⟨front, rest, rfl, hfront⟩ := List.eq_append_cons_of_mem hp
      have hlength : rest.length < (front ++ '=' :: rest).length := by
        simp
        omega
      have hdrop := (List.dropWhile_suffix (· != '&') (l := rest)).length_le
      by_cases hends : EndsSensitive front
      · exact value front rest hfront hends (ih _ (Nat.lt_of_le_of_lt hdrop hlength) _ rfl)
      · exact plain front rest hfront hends (ih _ hlength rest rfl)
    · exact free p hp

/-- To redact what is written up to a value, and what stands behind it, is to redact the whole. -/
lemma redactFrom_value (hk : IsSensitive k) (hv : '&' ∉ v) (ht : EndsValue t) (p : List Char) :
    redactFrom .search (p ++ (k ++ '=' :: (v ++ t))) =
      redactFrom .search (p ++ (k ++ ['='])) ++ redactFrom .search t := by
  obtain ⟨hequals, hampersand⟩ := hk.not_mem
  induction p using equals_induction with
  | free p hp =>
    have hfront : '=' ∉ p ++ k := by simp [hp, hequals]
    have hends : EndsSensitive (p ++ k) := ⟨k, List.suffix_append p k, hk⟩
    rw [← List.append_assoc, ← List.append_assoc, redactFrom_of_endsSensitive hfront hends,
      redactFrom_of_endsSensitive hfront hends, redactFrom_omit, dropWhile_value hv ht]
    simp [redactFrom]
  | plain front rest hfront hends ih =>
    rw [List.append_assoc, List.append_assoc, List.cons_append, List.cons_append,
      redactFrom_of_not_endsSensitive hfront hends, redactFrom_of_not_endsSensitive hfront hends, ih]
    simp
  | value front rest hfront hends ih =>
    rw [List.append_assoc, List.append_assoc, List.cons_append, List.cons_append,
      redactFrom_of_endsSensitive hfront hends, redactFrom_of_endsSensitive hfront hends, redactFrom_omit,
      redactFrom_omit]
    by_cases hrest : '&' ∈ rest
    · -- the earlier value ends in front of the word
      have hsplit : ∀ cs, (rest ++ cs).dropWhile (· != '&') = rest.dropWhile (· != '&') ++ cs := by
        intro cs
        have hne : rest.dropWhile (· != '&') ≠ [] := fun hnil => by
          simpa using List.dropWhile_eq_nil_iff.mp hnil _ hrest
        rw [List.dropWhile_append, if_neg (by simpa using hne)]
      rw [hsplit, hsplit, ih]
      simp
    · -- it takes in the word and its value
      have hlong : '&' ∉ rest ++ (k ++ '=' :: v) := by simp [hrest, hampersand, hv]
      have hshort : '&' ∉ rest ++ (k ++ ['=']) := by simp [hrest, hampersand]
      have hdrop := dropWhile_value hlong ht
      have hdrop' := dropWhile_value hshort (t := []) (.inl rfl)
      simp only [List.append_assoc, List.cons_append, List.append_nil] at hdrop hdrop'
      rw [hdrop, hdrop']
      simp [redactFrom]

/-- A redacted text is its own redaction. -/
lemma redactFrom_redactFrom (p : List Char) :
    redactFrom .search (redactFrom .search p) = redactFrom .search p := by
  have hmark : '&' ∉ mark := by decide
  induction p using equals_induction with
  | free p hp => rw [redactFrom_of_not_mem hp, redactFrom_of_not_mem hp]
  | plain front rest hfront hends ih =>
    rw [redactFrom_of_not_endsSensitive hfront hends, redactFrom_of_not_endsSensitive hfront hends, ih]
  | value front rest hfront hends ih =>
    have hbehind := endsValue_redactFrom (endsValue_dropWhile rest)
    rw [redactFrom_of_endsSensitive hfront hends, redactFrom_omit, redactFrom_of_endsSensitive hfront hends,
      redactFrom_omit, dropWhile_value hmark hbehind, ih]

lemma toList_redact (x : String) : (redact x).toList = redactFrom .search x.toList := by
  rw [redact, String.toList_ofList]

/-- Whatever stands in front of a sensitive word, its value is left out of the redacted text. -/
lemma redact_value {k v t : String} (hk : IsSensitive k.toList) (hv : '&' ∉ v.toList)
    (ht : EndsValue t.toList) (p : String) :
    redact (p ++ k ++ "=" ++ v ++ t) = redact (p ++ k ++ "=") ++ redact t := by
  have hvalue := redactFrom_value hk hv ht p.toList
  have hsign : "=".toList = ['='] := rfl
  apply String.toList_injective
  simpa [toList_redact, String.toList_append, hsign] using hvalue

/-- **Values.**  Behind a sensitive word in any case, redacted texts do not show the value: those with different
values are the same, the value is replaced by the mark, and what stands behind it is redacted on its own.
A second redaction changes nothing. -/
theorem redact_hides :
    (∀ p k v v' t : String, IsSensitive k.toList → '&' ∉ v.toList → '&' ∉ v'.toList → EndsValue t.toList →
      redact (p ++ k ++ "=" ++ v ++ t) = redact (p ++ k ++ "=" ++ v' ++ t) ∧
        ('=' ∉ p.toList → redact (p ++ k ++ "=" ++ v ++ t) = p ++ k ++ "=[REDACTED]" ++ redact t)) ∧
      ∀ x, redact (redact x) = redact x := by
  refine ⟨fun p k v v' t hk hv hv' ht => ⟨?_, fun hp => ?_⟩, fun x => ?_⟩
  · rw [redact_value hk hv ht, redact_value hk hv' ht]
  · have hfront : '=' ∉ p.toList ++ k.toList := by simp [hp, hk.not_mem.1]
    have hends : EndsSensitive (p.toList ++ k.toList) := ⟨k.toList, List.suffix_append _ _, hk⟩
    have hword := redactFrom_of_endsSensitive hfront hends []
    have hsign : "=".toList = ['='] := rfl
    have hmark : "=[REDACTED]".toList = '=' :: mark := rfl
    rw [redact_value hk hv ht]
    apply String.toList_injective
    simp only [redactFrom, List.append_assoc] at hword
    simp [toList_redact, String.toList_append, hsign, hmark, hword]
  · apply String.toList_injective
    rw [toList_redact, toList_redact, redactFrom_redactFrom]

/-- An earlier value takes in a word in capitals with its value; behind the ampersand stands another word. -/
theorem redact_hides_swallowed :
    IsSensitive "ToKEn".toList ∧ '&' ∉ "one".toList ∧ '&' ∉ "two=2".toList ∧ EndsValue "&auth=x".toList ∧
      redact ("a?key=" ++ "ToKEn" ++ "=" ++ "one" ++ "&auth=x") =
        redact ("a?key=" ++ "ToKEn" ++ "=" ++ "two=2" ++ "&auth=x") := by
  have hk : IsSensitive "ToKEn".toList := isSensitive_of_toLower (by decide)
  have hv : '&' ∉ "one".toList := by decide
  have hv' : '&' ∉ "two=2".toList := by decide
  have ht : EndsValue "&auth=x".toList := by decide
  exact ⟨hk, hv, hv', ht, (redact_hides.1 "a?key=" "ToKEn" "one" "two=2" "&auth=x" hk hv hv' ht).1⟩

end SourceBundle.Url
