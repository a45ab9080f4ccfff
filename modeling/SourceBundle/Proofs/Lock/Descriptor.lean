/-
# Descriptors

A descriptor is the name of a package, an at sign and the range that is declared for it.  The at sign that
parts the two is the first one behind the first character, so whatever the range holds, the name is found.
A range that names its protocol stands for another one, and here two readers part: a manifest takes an
alias that names no range for any version, and a descriptor takes what is left of it for the range.
-/
import Mathlib.Data.List.Basic
import SourceBundle.Manifest
import SourceBundle.Proofs.Import.Package
import SourceBundle.Proofs.Text.Cut
import SourceBundle.Proofs.Text.Blank
import SourceBundle.Version.Select

namespace SourceBundle.Lock

open SourceBundle.Text SourceBundle.Import

variable {name range : String} {l r q q' core cs : List Char}

/-- A name under which a registry knows a package: an at sign stands in front of a scope only, and it has
no blanks and none of the marks of a lockfile. -/
structure RegistryName (name : String) : Prop where
  ne_empty : name ≠ ""
  one_at : '@' ∉ name.toList.tail
  solid : ∀ c ∈ name.toList, isBlank c = false
  unquoted : ∀ c ∈ name.toList, c ≠ '"' ∧ c ≠ '\''
  undivided : ',' ∉ name.toList
  uncommented : name.toList.head? ≠ some '#'

instance (name : String) : Decidable (RegistryName name) :=
  decidable_of_iff (name ≠ "" ∧ '@' ∉ name.toList.tail ∧ (name.toList.all fun c => !isBlank c) = true ∧
      (name.toList.all fun c => c != '"' && c != '\'') = true ∧ ',' ∉ name.toList ∧
      name.toList.head? ≠ some '#')
    ⟨fun ⟨hne, hat, hsolid, hquotes, hcomma, hhash⟩ =>
        ⟨hne, hat, by simpa using hsolid, by simpa using hquotes, hcomma, hhash⟩,
      fun ⟨hne, hat, hsolid, hquotes, hcomma, hhash⟩ =>
        ⟨hne, hat, by simpa using hsolid, by simpa using hquotes, hcomma, hhash⟩⟩

/-- A range as a manifest declares it: it has no blanks at its ends and no quotes. -/
structure DeclaredRange (range : String) : Prop where
  trimmed : Trimmed isBlank range.toList
  unquoted : ∀ c ∈ range.toList, c ≠ '"' ∧ c ≠ '\''

instance (range : String) : Decidable (DeclaredRange range) :=
  decidable_of_iff (Trimmed isBlank range.toList ∧
      (range.toList.all fun c => c != '"' && c != '\'') = true)
    ⟨fun ⟨htrimmed, hquotes⟩ => ⟨htrimmed, by simpa using hquotes⟩,
      fun ⟨htrimmed, hquotes⟩ => ⟨htrimmed, by simpa using hquotes⟩⟩

/-- An alias that names another package, but no range of it. -/
def BareAlias (range : String) : Prop :=
  ∃ target, range = "npm:" ++ target ∧ '@' ∉ target.toList.tail ∧ target ≠ "*"

/-! ## Names of packages -/

/-- A text of the characters that names have, with slashes between them and perhaps an at sign in front. -/
lemma registryName_of_forall {c : Char} (hname : name.toList = c :: cs)
    (hfirst : c = '@' ∨ isNameChar c = true) (hcs : ∀ c ∈ cs, c = '/' ∨ isNameChar c = true) :
    RegistryName name := by
  have hmarks : ∀ c, c = '@' ∨ c = '/' ∨ isNameChar c = true →
      isBlank c = false ∧ c ≠ '"' ∧ c ≠ '\'' ∧ c ≠ ',' ∧ c ≠ '#' := by
    rintro c (rfl | rfl | hc)
    · decide
    · decide
    · refine ⟨(inner_of_isNameChar hc).solid, ?_, ?_, ?_, ?_⟩ <;>
      · rintro rfl
        exact absurd hc (by decide)
  have hall : ∀ d ∈ name.toList, isBlank d = false ∧ d ≠ '"' ∧ d ≠ '\'' ∧ d ≠ ',' ∧ d ≠ '#' := by
    intro d hd
    rw [hname, List.mem_cons] at hd
    rcases hd with rfl | hd
    · exact hmarks d (hfirst.imp_right Or.inr)
    · exact hmarks d (Or.inr (hcs d hd))
  have hat : '@' ∉ cs := by
    intro h
    rcases hcs '@' h with h | h
    · exact absurd h (by decide)
    · exact absurd h (by decide)
  exact {
    ne_empty := by
      rintro rfl
      exact List.cons_ne_nil c cs hname.symm
    one_at := by rwa [hname]
    solid := fun d hd => (hall d hd).1
    unquoted := fun d hd => ⟨(hall d hd).2.1, (hall d hd).2.2.1⟩
    undivided := fun h => (hall ',' h).2.2.2.1 rfl
    uncommented := fun h => (hall '#' (List.mem_of_mem_head? h)).2.2.2.2 rfl }

/-- Whatever package a reference names, its name is one that a registry knows. -/
theorem registryName_fullName {r : PackageReference} (h : r.WellFormed) : RegistryName r.fullName := by
  obtain ⟨c, cs, hname⟩ := List.exists_cons_of_ne_nil h.name.1
  have hchars : ∀ d ∈ c :: cs, isNameChar d = true := fun d hd => h.name.2 d (hname ▸ hd)
  cases hscope : r.scope? with
  | none =>
    have hfull : r.fullName = r.name := by simp [PackageReference.fullName, hscope]
    rw [hfull]
    exact registryName_of_forall hname (Or.inr (hchars c List.mem_cons_self))
      fun d hd => Or.inr (hchars d (List.mem_cons_of_mem c hd))
  | some scope =>
    obtain ⟨word, hword, htext⟩ := h.scope scope hscope
    have hfull : r.fullName.toList = '@' :: (word ++ '/' :: c :: cs) := by
      simp [PackageReference.fullName, hscope, toString, htext, hname]
    refine registryName_of_forall hfull (Or.inl rfl) fun d hd => ?_
    rw [List.mem_append, List.mem_cons] at hd
    rcases hd with hd | rfl | hd
    · exact Or.inr (hword.2 d hd)
    · exact Or.inl rfl
    · exact Or.inr (hchars d hd)

/-! ## The parts of a descriptor -/

/-- The text of a descriptor. -/
def descriptorChars (name range : String) : List Char := name.toList ++ '@' :: range.toList

lemma splitAt?_descriptor (h : RegistryName name) :
    splitAt? (descriptorChars name range) = some (name.toList, range.toList) := by
  have hne : name.toList ≠ [] := by simpa using h.ne_empty
  have hat := h.one_at
  obtain ⟨c, cs, hname⟩ := List.exists_cons_of_ne_nil hne
  rw [hname, List.tail_cons] at hat
  rw [descriptorChars, hname, List.cons_append, splitAt?, cutFirst_append hat]

lemma splitAt?_eq_none : splitAt? cs = none ↔ '@' ∉ cs.tail := by
  cases cs with
  | nil => simp [splitAt?]
  | cons c cs =>
    rw [List.tail_cons, ← snd_cutFirst_eq_none, splitAt?]
    cases hcut : cutFirst '@' cs with
    | mk head tail? => cases tail? <;> simp

lemma descriptorChars_ne_nil (name range : String) : descriptorChars name range ≠ [] := by
  simp [descriptorChars]

lemma trimmed_descriptor (hn : RegistryName name) (hr : DeclaredRange range) :
    Trimmed isBlank (descriptorChars name range) := by
  have hat : Trimmed isBlank ('@' :: range.toList) := by
    constructor
    · intro c hc
      obtain rfl := Option.some.inj hc
      decide
    · intro c hc
      by_cases hempty : range.toList = []
      · rw [hempty] at hc
        obtain rfl := Option.some.inj hc
        decide
      · rw [List.getLast?_cons_of_ne_nil hempty] at hc
        exact hr.trimmed.last c hc
  have h := hat.around (List.cons_ne_nil _ _) hn.solid (r := []) (by simp)
  rwa [List.append_nil] at h

lemma unquoted_descriptor (hn : RegistryName name) (hr : DeclaredRange range) :
    ∀ c ∈ descriptorChars name range, c ≠ '"' ∧ c ≠ '\'' := by
  intro c hc
  rw [descriptorChars, List.mem_append, List.mem_cons] at hc
  rcases hc with hc | rfl | hc
  · exact hn.unquoted c hc
  · decide
  · exact hr.unquoted c hc

/-- A descriptor is read whether it stands in quotes or not, with one of them or behind blanks. -/
lemma splitDescriptor?_around (hn : RegistryName name) (hr : DeclaredRange range)
    (hl : ∀ c ∈ l, isBlank c = true) (hq : ∀ c ∈ q, c = '"') (hq' : ∀ c ∈ q', c = '"') :
    splitDescriptor? (String.ofList (l ++ (q ++ (descriptorChars name range ++ q')))) =
      some (name, String.ofList (dropProtocol range.toList)) := by
  have hne := descriptorChars_ne_nil name range
  have hplain := unquoted_descriptor hn hr
  have hsolid : ∀ q : List Char, (∀ c ∈ q, c = '"') → ∀ c ∈ q, isBlank c = false := by
    intro q hq c hc
    rw [hq c hc]
    decide
  -- first the blanks go, then the quotes
  have htrimmed := (trimmed_descriptor hn hr).around hne (hsolid q hq) (hsolid q' hq')
  have htrim : trimChars (l ++ (q ++ (descriptorChars name range ++ q'))) =
      q ++ (descriptorChars name range ++ q') := by
    have h := htrimmed.dropAround_append (by simp [hne]) hl (r := []) (by simp)
    rwa [List.append_nil] at h
  have hdouble : dropAround (· == '"') (q ++ (descriptorChars name range ++ q')) =
      descriptorChars name range := by
    refine Trimmed.dropAround_append (.of_forall ?_) hne ?_ ?_
    · intro c hc
      simpa using (hplain c hc).1
    · intro c hc
      simpa using hq c hc
    · intro c hc
      simpa using hq' c hc
  have hsingle : dropAround (· == '\'') (descriptorChars name range) = descriptorChars name range := by
    refine Trimmed.dropAround_eq (.of_forall ?_)
    intro c hc
    simpa using (hplain c hc).2
  simp [splitDescriptor?, htrim, hdouble, hsingle, splitAt?_descriptor hn]

/-! ## Two readings of a declaration -/

lemma bareAlias_iff {target : List Char} (h : range.toList = "npm:".toList ++ target) :
    BareAlias range ↔ splitAt? target = none ∧ String.ofList target ≠ "*" := by
  rw [splitAt?_eq_none]
  constructor
  · rintro ⟨other, rfl, hat, hany⟩
    rw [String.toList_append, List.append_cancel_left_eq] at h
    rw [← h, String.ofList_toList]
    exact ⟨hat, hany⟩
  · rintro ⟨hat, hany⟩
    refine ⟨String.ofList target, String.toList_injective ?_, ?_, hany⟩
    · simp [h]
    · rwa [String.toList_ofList]

/-- The range that a descriptor is read with is the one that the manifest denotes, but for an alias
without a range. -/
lemma dropProtocol_eq_iff (range : String) :
    String.ofList (dropProtocol range.toList) = Manifest.unalias range ↔ ¬ BareAlias range := by
  rw [dropProtocol, Manifest.unalias]
  cases hprotocol : dropPrefix? "npm:".toList range.toList with
  | none =>
    have hnot : ¬ BareAlias range := by
      rintro ⟨target, rfl, -⟩
      rw [String.toList_append, dropPrefix?_append] at hprotocol
      contradiction
    simpa using hnot
  | some target =>
    rw [bareAlias_iff (dropPrefix?_eq_some hprotocol)]
    dsimp only
    cases hsplit : splitAt? target with
    | some cut => simp
    | none => simp

/-- **Declarations and their descriptors.**  In the descriptor of a declaration the name is the one of the
package, and the range is the one that the manifest denotes by the declaration exactly if that is no alias
without a range. -/
theorem descriptor_of_declaration (hn : RegistryName name) (hr : DeclaredRange range) :
    ∃ read, splitDescriptor? (name ++ "@" ++ range) = some (name, read) ∧
      (read = Manifest.unalias range ↔ ¬ BareAlias range) := by
  refine ⟨_, ?_, dropProtocol_eq_iff range⟩
  have htext : name ++ "@" ++ range = String.ofList ([] ++ ([] ++ (descriptorChars name range ++ []))) := by
    apply String.toList_injective
    simp [descriptorChars]
  rw [htext]
  exact splitDescriptor?_around hn hr (by simp) (by simp) (by simp)

/-- An alias of a package with a scope that names a range is read alike. -/
theorem descriptor_of_declaration_ranged :
    RegistryName "@my/oz" ∧ DeclaredRange "npm:@openzeppelin/contracts@^4.9.0 || 5" ∧
      splitDescriptor? ("@my/oz" ++ "@" ++ "npm:@openzeppelin/contracts@^4.9.0 || 5") =
        some ("@my/oz", "^4.9.0 || 5") := by
  have hname : RegistryName "@my/oz" := by decide +kernel
  have hrange : DeclaredRange "npm:@openzeppelin/contracts@^4.9.0 || 5" := by decide +kernel
  have halias : ¬ BareAlias "npm:@openzeppelin/contracts@^4.9.0 || 5" := by
    have htext : "npm:@openzeppelin/contracts@^4.9.0 || 5".toList =
        "npm:".toList ++ "@openzeppelin/contracts@^4.9.0 || 5".toList := by decide +kernel
    rw [bareAlias_iff htext]
    decide +kernel
  have hdenotes : Manifest.unalias "npm:@openzeppelin/contracts@^4.9.0 || 5" = "^4.9.0 || 5" := by
    decide +kernel
  obtain ⟨read, hread, hiff⟩ := descriptor_of_declaration hname hrange
  refine ⟨hname, hrange, ?_⟩
  rw [hread, hiff.mpr halias, hdenotes]

/-- An alias of a package with a scope that names no range stands for any version, but the name of the
other package is read for a range, in which there is no version. -/
theorem not_descriptor_of_declaration_bare :
    RegistryName "my-oz" ∧ DeclaredRange "npm:@openzeppelin/contracts" ∧
      splitDescriptor? ("my-oz" ++ "@" ++ "npm:@openzeppelin/contracts") ≠
        some ("my-oz", Manifest.unalias "npm:@openzeppelin/contracts") ∧
      splitDescriptor? ("my-oz" ++ "@" ++ "npm:@openzeppelin/contracts") =
        some ("my-oz", "@openzeppelin/contracts") ∧
      Version.satisfies "4.9.3" (Manifest.unalias "npm:@openzeppelin/contracts") = .ok true ∧
      Version.satisfies "4.9.3" "@openzeppelin/contracts" = .ok false := by
  have hname : RegistryName "my-oz" := by decide +kernel
  have hrange : DeclaredRange "npm:@openzeppelin/contracts" := by decide +kernel
  exact ⟨hname, hrange, by decide +kernel, by decide +kernel, by decide +kernel, by decide +kernel⟩

end SourceBundle.Lock
