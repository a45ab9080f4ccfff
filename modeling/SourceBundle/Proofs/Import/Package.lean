/-
# Package references, read and written

The at sign marks a scope and a version, and the slash parts a scope, a name and a path.  Each is found
at its first place behind what stands before it, so a reference that has been read is written as it was,
but for a slash at the end with no path behind it; and what is written of a well-formed reference is read
as that reference.
-/
import Mathlib.Data.List.Basic
import SourceBundle.Import.Package
import SourceBundle.Proofs.Text.Class
import SourceBundle.Proofs.Text.Cut
import SourceBundle.Proofs.Text.Blank

namespace SourceBundle.Import

open SourceBundle.Text

variable {cls : Char → Bool} {cs rest head name : List Char} {tail? version? : Option (List Char)}
  {c : Char} {literal : String} {scope? : Option String} {r : PackageReference}

/-! ## Words and paths -/

/-- A text of one or more characters of a class. -/
def IsWordOf (cls : Char → Bool) (cs : List Char) : Prop := cs ≠ [] ∧ ∀ c ∈ cs, cls c = true

instance (cls : Char → Bool) (cs : List Char) : Decidable (IsWordOf cls cs) :=
  decidable_of_iff (cs ≠ [] ∧ cs.all cls = true) (by simp [IsWordOf])

lemma IsWordOf.not_mem (h : IsWordOf cls cs) (hc : cls c ≠ true) : c ∉ cs := by
  intro hmem
  exact hc (h.2 c hmem)

/-- The character is not blank, and it parts nothing in a reference. -/
structure Inner (c : Char) : Prop where
  solid : isBlank c = false
  no_at : c ≠ '@'
  no_slash : c ≠ '/'

lemma inner_of_isAlphanum (h : c.isAlphanum = true) : Inner c where
  solid := not_isBlank_of_isAlphanum h
  no_at := by
    rintro rfl
    exact absurd h (by decide)
  no_slash := by
    rintro rfl
    exact absurd h (by decide)

lemma inner_of_isNameChar (h : isNameChar c = true) : Inner c := by
  simp only [isNameChar, Bool.or_eq_true, beq_iff_eq] at h
  rcases h with (((halnum | rfl) | rfl) | rfl) | rfl
  · exact inner_of_isAlphanum halnum
  all_goals exact ⟨by decide, by decide, by decide⟩

lemma inner_of_isVersionChar (h : isVersionChar c = true) : Inner c := by
  simp only [isVersionChar, Bool.or_eq_true, beq_iff_eq] at h
  rcases h with (((((((((halnum | rfl) | rfl) | rfl) | rfl) | rfl) | rfl) | rfl) | rfl) | rfl) | rfl
  · exact inner_of_isAlphanum halnum
  all_goals exact ⟨by decide, by decide, by decide⟩

/-- A word, perhaps with a line feed behind it. -/
def IsFedWordOf (cls : Char → Bool) (cs : List Char) : Prop :=
  IsWordOf cls cs ∨ ∃ word, IsWordOf cls word ∧ cs = word ++ ['\n']

/-- A run is a word, perhaps with a line feed behind it: the line feed does not count. -/
lemma isRun_iff (hcls : ∀ c, cls c = true → Inner c) : isRun cls cs = true ↔ IsFedWordOf cls cs := by
  have hfeed : ¬ cls '\n' = true := by
    intro h
    exact absurd (hcls '\n' h).solid (by decide)
  constructor
  · intro h
    by_cases hlast : cs.getLast? = some '\n'
    · obtain ⟨word, rfl⟩ := List.getLast?_eq_some_iff.mp hlast
      right
      refine ⟨word, ?_, rfl⟩
      simpa [isRun, IsWordOf] using h
    · left
      simpa [isRun, IsWordOf, hlast] using h
  · rintro (h | ⟨word, h, rfl⟩)
    · have hlast : cs.getLast? ≠ some '\n' := by
        intro hlast
        exact hfeed (h.2 '\n' (List.mem_of_mem_getLast? hlast))
      simpa [isRun, hlast, h.1] using h.2
    · simpa [isRun, h.1] using h.2

lemma IsFedWordOf.ne_nil (h : IsFedWordOf cls cs) : cs ≠ [] := by
  rcases h with h | ⟨word, -, rfl⟩
  · exact h.1
  · simp

lemma IsFedWordOf.not_mem (h : IsFedWordOf cls cs) (hc : cls c ≠ true) (hfeed : c ≠ '\n') : c ∉ cs := by
  rcases h with h | ⟨word, h, rfl⟩
  · exact h.not_mem hc
  · simpa [hfeed] using h.not_mem hc

/-- A word with a line feed behind it or not parts nothing, and it is not empty. -/
lemma IsFedWordOf.undivided (hcls : ∀ c, cls c = true → Inner c) (h : IsFedWordOf cls cs) :
    cs ≠ [] ∧ '@' ∉ cs ∧ '/' ∉ cs := by
  have hat : '@' ∉ cs := h.not_mem (fun hc => (hcls '@' hc).no_at rfl) (by decide)
  have hslash : '/' ∉ cs := h.not_mem (fun hc => (hcls '/' hc).no_slash rfl) (by decide)
  exact ⟨h.ne_nil, hat, hslash⟩

/-- Two slashes stand side by side exactly if they do so somewhere. -/
lemma hasDoubleSlash_iff : hasDoubleSlash cs = true ↔ ['/', '/'] <:+: cs := by
  fun_induction hasDoubleSlash cs with
  | case1 rest => simpa using (List.prefix_append ['/', '/'] rest).isInfix
  | case2 c rest hnot ih =>
    rw [ih, List.infix_cons_iff]
    refine ⟨Or.inr, fun h => h.resolve_left ?_⟩
    rintro ⟨more, hmore⟩
    obtain ⟨rfl, hrest⟩ := List.cons.inj hmore
    exact hnot more rfl hrest.symm
  | case3 => simp

/-! ## The written form -/

/-- The text of a scope with the slash behind it. -/
def scopePart (scope? : Option String) : List Char := scope?.elim [] (·.toList ++ ['/'])

/-- The text of a version with its mark. -/
def versionPart (version? : Option (List Char)) : List Char := version?.elim [] ('@' :: ·)

/-- The text of a path with the slash before it. -/
def pathPart (tail? : Option (List Char)) : List Char := tail?.elim [] ('/' :: ·)

/-- The version of a reference, if it has one. -/
def PackageReference.versionChars? (r : PackageReference) : Option (List Char) :=
  r.version?.map String.toList

/-- The path of a reference, if it has one. -/
def PackageReference.path? (r : PackageReference) : Option (List Char) :=
  if r.subpath = "" then none else some r.subpath.toList

lemma PackageReference.toList_fullName (r : PackageReference) :
    r.fullName.toList = scopePart r.scope? ++ r.name.toList := by
  rw [PackageReference.fullName]
  cases r.scope? <;> simp [scopePart, toString, String.toList_append]

lemma toList_render (r : PackageReference) :
    r.render.toList = scopePart r.scope? ++ (r.name.toList ++
      (versionPart r.versionChars? ++ pathPart r.path?)) := by
  obtain ⟨scope?, name, version?, subpath⟩ := r
  have hempty : subpath.isEmpty = true ↔ subpath = "" := String.isEmpty_iff
  rw [PackageReference.render, PackageReference.fullName, PackageReference.versionChars?,
    PackageReference.path?]
  cases scope? <;> cases version? <;> by_cases hs : subpath = "" <;>
    simp [scopePart, versionPart, pathPart, hempty, hs, toString, String.toList_append]

/-! ## Reading -/

/-- A literal is cut into a scope, a name, a version and a path that are in order. -/
structure ReadsAs (literal : String) (scope? : Option String) (rest head : List Char)
    (tail? : Option (List Char)) (name : List Char) (version? : Option (List Char)) : Prop where
  ne_nil : literal.toList ≠ []
  trimmed : Trimmed isBlank literal.toList
  scope : splitScope literal literal.toList = .ok (scope?, rest)
  path : cutFirst '/' rest = (head, tail?)
  version : cutFirst '@' head = (name, version?)
  isRun_name : isRun isNameChar name = true
  isRun_version : version?.all (isRun isVersionChar) = true
  rooted : (tail?.getD []).head? ≠ some '/'
  doubled : hasDoubleSlash (tail?.getD []) = false

/-- The reference with given parts. -/
def referenceOf (scope? : Option String) (name : List Char) (version? tail? : Option (List Char)) :
    PackageReference :=
  ⟨scope?, String.ofList name, version?.map String.ofList, String.ofList (tail?.getD [])⟩

lemma ReadsAs.parse (h : ReadsAs literal scope? rest head tail? name version?) :
    PackageReference.parse literal = .ok (referenceOf scope? name version? tail?) := by
  have htrim : trimChars literal.toList = literal.toList := h.trimmed.dropAround_eq
  simp [PackageReference.parse, htrim, h.ne_nil, h.scope, h.path, h.version, h.isRun_name,
    h.isRun_version, h.rooted, h.doubled, referenceOf, bind, Except.bind, pure, Except.pure]

/-- What is read has been cut into parts that are in order. -/
lemma exists_readsAs (h : PackageReference.parse literal = .ok r) :
    ∃ scope? rest head tail? name version?, ReadsAs literal scope? rest head tail? name version? ∧
      r = referenceOf scope? name version? tail? := by
  -- each part is checked in turn, and where a check fails nothing is read
  unfold PackageReference.parse at h
  dsimp only at h
  split at h
  · cases h
  next hliteral =>
  cases hscope : splitScope literal literal.toList with
  | error f =>
    rw [hscope] at h
    cases h
  | ok cut =>
    obtain ⟨scope?, rest⟩ := cut
    rw [hscope] at h
    simp only [bind, Except.bind, pure, Except.pure] at h
    split at h
    · cases h
    next hname =>
    split at h
    · cases h
    next hversion =>
    split at h
    · cases h
    next hpath =>
    rw [Bool.or_eq_true, not_or] at hliteral hpath
    refine ⟨scope?, rest, (cutFirst '/' rest).1, _, _, _, ?_, (Except.ok.inj h).symm⟩
    refine ⟨?_, ?_, hscope, rfl, rfl, ?_, ?_, ?_, ?_⟩
    · simpa using hliteral.1
    · have htrim : literal.toList = trimChars literal.toList := by simpa using hliteral.2
      exact dropAround_eq_self_iff.mp htrim.symm
    · simpa using hname
    · simpa using hversion
    · simpa using hpath.1
    · simpa using hpath.2

/-- The scope that is taken off, put in front again. -/
lemma append_of_splitScope (h : splitScope literal cs = .ok (scope?, rest)) :
    scopePart scope? ++ rest = cs := by
  unfold splitScope at h
  split at h
  · next behind =>
    have hcut := append_cutFirst '/' ('@' :: behind)
    split at h
    · next scope rest' heq =>
      rw [heq] at hcut
      split at h
      · obtain ⟨rfl, rfl⟩ := Prod.mk.inj (Except.ok.inj h)
        simpa [scopePart] using hcut
      · cases h
    · cases h
  · obtain ⟨rfl, rfl⟩ := Prod.mk.inj (Except.ok.inj h)
    rfl

/-- The scope that is taken off is an at sign and a word. -/
lemma fedWord_of_splitScope {scope : String} (h : splitScope literal cs = .ok (some scope, rest)) :
    ∃ word, IsFedWordOf isNameChar word ∧ scope.toList = '@' :: word := by
  unfold splitScope at h
  split at h
  · next behind =>
    split at h
    · next scope' rest' heq =>
      split at h
      · next hrun =>
        obtain ⟨hscope, -⟩ := Prod.mk.inj (Except.ok.inj h)
        obtain rfl := Option.some.inj hscope
        have hat : scope' = '@' :: scope'.drop 1 := by
          rw [cutFirst, if_neg (by decide)] at heq
          obtain ⟨rfl, -⟩ := Prod.mk.inj heq
          rfl
        refine ⟨scope'.drop 1, (isRun_iff fun _ => inner_of_isNameChar).mp hrun, ?_⟩
        rw [String.toList_ofList, ← hat]
      · cases h
    · cases h
  · cases h

/-- A literal is the text of the parts that it is cut into. -/
lemma ReadsAs.toList_eq (h : ReadsAs literal scope? rest head tail? name version?) :
    literal.toList = scopePart scope? ++ (name ++ (versionPart version? ++ pathPart tail?)) := by
  have hpath := append_cutFirst '/' rest
  have hversion := append_cutFirst '@' head
  rw [h.path] at hpath
  rw [h.version] at hversion
  rw [← append_of_splitScope h.scope, ← hpath, ← hversion, List.append_assoc]
  rfl

/-- What has been read is written as it was, but for a slash at the end with no path behind it. -/
lemma render_of_parse (h : PackageReference.parse literal = .ok r) :
    r.render = literal ∨ r.subpath = "" ∧ literal = r.render ++ "/" := by
  obtain ⟨scope?, rest, head, tail?, name, version?, hreads, rfl⟩ := exists_readsAs h
  have hliteral := hreads.toList_eq
  have hversion : (referenceOf scope? name version? tail?).versionChars? = version? := by
    cases version? <;> simp [referenceOf, PackageReference.versionChars?]
  have hrender := toList_render (referenceOf scope? name version? tail?)
  simp only [hversion, PackageReference.path?] at hrender
  simp only [referenceOf, String.toList_ofList] at hrender
  match tail? with
  | none =>
    left
    apply String.toList_injective
    simpa [referenceOf, hliteral] using hrender
  | some [] =>
    -- the slash at the end
    right
    refine ⟨rfl, String.toList_injective ?_⟩
    rw [hliteral, String.toList_append, referenceOf, hrender]
    simp [pathPart]
  | some (c :: path) =>
    left
    apply String.toList_injective
    simpa [referenceOf, hliteral] using hrender

/-! ## The form of a literal -/

variable {kind kind' : (Char → Bool) → List Char → Prop}

/-- A literal has the form of a reference: a scope and a slash if there is a scope, the name, an at sign and
the version if there is one, and the path behind a slash; no blanks stand around it, the scope behind its at
sign, the name and the version are words of a kind, and the path has no empty part in front or inside. -/
structure PackageReference.HasForm (kind : (Char → Bool) → List Char → Prop) (literal : String)
    (r : PackageReference) : Prop where
  trimmed : trim literal = literal
  parts : ∃ tail?, literal.toList = scopePart r.scope? ++ (r.name.toList ++
    (versionPart r.versionChars? ++ pathPart tail?)) ∧ r.subpath.toList = tail?.getD []
  scope : ∀ scope ∈ r.scope?, ∃ word, kind isNameChar word ∧ scope.toList = '@' :: word
  name : kind isNameChar r.name.toList
  version : ∀ version ∈ r.version?, kind isVersionChar version.toList
  rooted : r.subpath.toList.head? ≠ some '/'
  doubled : ¬ ['/', '/'] <:+: r.subpath.toList

lemma trim_eq_self_iff : trim literal = literal ↔ Trimmed isBlank literal.toList := by
  rw [← dropAround_eq_self_iff, ← String.toList_inj, trim, String.toList_ofList, trimChars]

/-- What stands behind the scope is cut at the first slash, and what stands before that slash at the
first at sign. -/
lemma cut_of_words (hname : IsFedWordOf isNameChar name)
    (hversion : ∀ version ∈ version?, IsFedWordOf isVersionChar version) (tail? : Option (List Char)) :
    cutFirst '/' (name ++ (versionPart version? ++ pathPart tail?)) =
        (name ++ versionPart version?, tail?) ∧
      cutFirst '@' (name ++ versionPart version?) = (name, version?) := by
  obtain ⟨-, hat, hslash⟩ := hname.undivided fun _ => inner_of_isNameChar
  have hhead : '/' ∉ name ++ versionPart version? := by
    cases version? with
    | none => simpa [versionPart] using hslash
    | some version =>
      have hin := (hversion version rfl).undivided fun _ => inner_of_isVersionChar
      simpa [versionPart, hslash] using hin.2.2
  constructor
  · rw [← List.append_assoc]
    cases tail? with
    | none => simpa [pathPart] using cutFirst_of_not_mem hhead
    | some path => exact cutFirst_append hhead path
  · cases version? with
    | none => simpa [versionPart] using cutFirst_of_not_mem hat
    | some version => exact cutFirst_append hat version

/-- The scope of a literal is taken off. -/
lemma splitScope_of_words (hscope : ∀ scope ∈ scope?, ∃ word, IsFedWordOf isNameChar word ∧
      scope.toList = '@' :: word) (hname : IsFedWordOf isNameChar name) (rest : List Char)
    (literal : String) :
    splitScope literal (scopePart scope? ++ (name ++ rest)) = .ok (scope?, name ++ rest) := by
  cases scope? with
  | none =>
    obtain ⟨hne, hat, -⟩ := hname.undivided fun _ => inner_of_isNameChar
    obtain ⟨c, cs, rfl⟩ := List.exists_cons_of_ne_nil hne
    have hc : c ≠ '@' := fun hc => hat (hc ▸ List.mem_cons_self)
    simp [scopePart, splitScope, hc]
  | some scope =>
    obtain ⟨word, hword, htext⟩ := hscope scope rfl
    obtain ⟨-, -, hslash⟩ := hword.undivided fun _ => inner_of_isNameChar
    have hrun := (isRun_iff fun _ => inner_of_isNameChar).mpr hword
    have hfree : '/' ∉ '@' :: word := by simpa using hslash
    have hcut : cutFirst '/' ('@' :: (word ++ '/' :: (name ++ rest))) =
        ('@' :: word, some (name ++ rest)) := cutFirst_append hfree (name ++ rest)
    have hscope' : String.ofList ('@' :: word) = scope := by rw [← htext, String.ofList_toList]
    simp [scopePart, splitScope, htext, hcut, hrun, hscope']

namespace PackageReference

/-- What is of one kind is of another one. -/
lemma HasForm.imp (h : HasForm kind literal r) (hkind : ∀ cls cs, kind cls cs → kind' cls cs) :
    HasForm kind' literal r where
  trimmed := h.trimmed
  parts := h.parts
  scope scope hs := by
    obtain ⟨word, hword, htext⟩ := h.scope scope hs
    exact ⟨word, hkind _ _ hword, htext⟩
  name := hkind _ _ h.name
  version version hv := hkind _ _ (h.version version hv)
  rooted := h.rooted
  doubled := h.doubled

/-- A literal that has the form of a reference is read as this reference. -/
lemma HasForm.parse_eq (h : HasForm IsFedWordOf literal r) : parse literal = .ok r := by
  obtain ⟨tail?, hliteral, hsubpath⟩ := h.parts
  have hversion : ∀ version ∈ r.versionChars?, IsFedWordOf isVersionChar version := by
    intro version hv
    obtain ⟨text, htext, rfl⟩ := Option.map_eq_some_iff.mp hv
    exact h.version text htext
  obtain ⟨hpath, hcut⟩ := cut_of_words h.name hversion tail?
  have hscope := splitScope_of_words h.scope h.name (versionPart r.versionChars? ++ pathPart tail?) literal
  rw [← hliteral] at hscope
  have hreads : ReadsAs literal r.scope?
      (r.name.toList ++ (versionPart r.versionChars? ++ pathPart tail?))
      (r.name.toList ++ versionPart r.versionChars?) tail? r.name.toList r.versionChars? := by
    refine ⟨?_, trim_eq_self_iff.mp h.trimmed, hscope, hpath, hcut, ?_, ?_, ?_, ?_⟩
    · rw [hliteral]
      simp [h.name.ne_nil]
    · exact (isRun_iff fun _ => inner_of_isNameChar).mpr h.name
    · rw [Option.all_eq_true]
      exact fun version hv => (isRun_iff fun _ => inner_of_isVersionChar).mpr (hversion version hv)
    · rw [← hsubpath]
      exact h.rooted
    · rw [← hsubpath, Bool.eq_false_iff, ne_eq, hasDoubleSlash_iff]
      exact h.doubled
  rw [hreads.parse, referenceOf, ← hsubpath, versionChars?, String.ofList_toList, String.ofList_toList]
  simp

/-- A literal that is read has the form of the reference that it is read as. -/
lemma hasForm_of_parse (h : parse literal = .ok r) : HasForm IsFedWordOf literal r := by
  obtain ⟨scope?, rest, head, tail?, name, version?, hreads, rfl⟩ := exists_readsAs h
  have hversion : (referenceOf scope? name version? tail?).versionChars? = version? := by
    cases version? <;> simp [referenceOf, versionChars?]
  have hsubpath : (referenceOf scope? name version? tail?).subpath.toList = tail?.getD [] :=
    String.toList_ofList
  refine ⟨trim_eq_self_iff.mpr hreads.trimmed, ⟨tail?, ?_, hsubpath⟩, ?_, ?_, ?_, ?_, ?_⟩
  · rw [hversion, hreads.toList_eq, referenceOf, String.toList_ofList]
  · rintro scope hs
    have hscope := hreads.scope
    obtain rfl : scope? = some scope := hs
    exact fedWord_of_splitScope hscope
  · rw [referenceOf, String.toList_ofList]
    exact (isRun_iff fun _ => inner_of_isNameChar).mp hreads.isRun_name
  · intro version hv
    obtain ⟨text, rfl, rfl⟩ := Option.map_eq_some_iff.mp hv
    rw [String.toList_ofList]
    exact (isRun_iff fun _ => inner_of_isVersionChar).mp hreads.isRun_version
  · rw [hsubpath]
    exact hreads.rooted
  · rw [hsubpath, ← hasDoubleSlash_iff, hreads.doubled]
    exact Bool.false_ne_true

/-- **What is read.**  A literal is read as a reference exactly if it has its form, with words that may each
have a line feed behind them. -/
theorem parse_eq_ok_iff : parse literal = .ok r ↔ HasForm IsFedWordOf literal r :=
  ⟨hasForm_of_parse, HasForm.parse_eq⟩

end PackageReference

/-! ## Well-formed references -/

/-- A reference is in order: it is made of words, and its path has no empty part, neither in front nor
inside, and no blank at its end. -/
structure PackageReference.WellFormed (r : PackageReference) : Prop where
  scope : ∀ scope ∈ r.scope?, ∃ word, IsWordOf isNameChar word ∧ scope.toList = '@' :: word
  name : IsWordOf isNameChar r.name.toList
  version : ∀ version ∈ r.version?, IsWordOf isVersionChar version.toList
  rooted : r.subpath.toList.head? ≠ some '/'
  doubled : ¬ ['/', '/'] <:+: r.subpath.toList
  trimmed : ∀ c ∈ r.subpath.toList.getLast?, isBlank c = false

namespace PackageReference.WellFormed

/-- Before the path nothing is blank. -/
lemma solid (h : r.WellFormed) :
    ∀ c ∈ scopePart r.scope? ++ (r.name.toList ++ versionPart r.versionChars?), isBlank c = false := by
  intro c hc
  rw [List.mem_append, List.mem_append] at hc
  rcases hc with hc | hc | hc
  · cases hscope : r.scope? with
    | none => simp [hscope, scopePart] at hc
    | some scope =>
      obtain ⟨word, hword, htext⟩ := h.scope scope hscope
      simp only [hscope, scopePart, Option.elim_some, htext, List.cons_append, List.mem_cons,
        List.mem_append, List.not_mem_nil, or_false] at hc
      rcases hc with rfl | hc | rfl
      · decide
      · exact (inner_of_isNameChar (hword.2 c hc)).solid
      · decide
  · exact (inner_of_isNameChar (h.name.2 c hc)).solid
  · cases hversion : r.version? with
    | none => simp [versionChars?, hversion, versionPart] at hc
    | some version =>
      simp only [versionChars?, hversion, versionPart, Option.map_some, Option.elim_some,
        List.mem_cons] at hc
      rcases hc with rfl | hc
      · decide
      · exact (inner_of_isVersionChar ((h.version version hversion).2 c hc)).solid

lemma ne_nil (h : r.WellFormed) :
    scopePart r.scope? ++ (r.name.toList ++ versionPart r.versionChars?) ≠ [] := by
  simp [h.name.1]

/-- What is written has no blanks at its ends. -/
lemma trimmed_render (h : r.WellFormed) : Trimmed isBlank r.render.toList := by
  rw [toList_render, ← List.append_assoc, ← List.append_assoc, List.append_assoc (scopePart _)]
  obtain ⟨hsolid, hne⟩ := And.intro h.solid h.ne_nil
  generalize scopePart r.scope? ++ (r.name.toList ++ versionPart r.versionChars?) = front at *
  constructor
  · intro c hc
    obtain ⟨d, front, rfl⟩ := List.exists_cons_of_ne_nil hne
    obtain rfl := Option.some.inj hc
    exact hsolid d List.mem_cons_self
  · intro c hc
    by_cases hs : r.subpath = ""
    · simp only [path?, hs, if_true, pathPart, Option.elim_none, List.append_nil] at hc
      exact hsolid c (List.mem_of_mem_getLast? hc)
    · -- the path goes to the end
      have hpath : r.subpath.toList ≠ [] := by simpa using hs
      simp only [path?, hs, if_false, pathPart, Option.elim_some] at hc
      rw [List.getLast?_append_cons, List.getLast?_cons_of_ne_nil hpath] at hc
      exact h.trimmed c hc

/-- What is written has the form of the reference. -/
lemma hasForm_render (h : r.WellFormed) : HasForm IsWordOf r.render r where
  trimmed := trim_eq_self_iff.mpr h.trimmed_render
  parts := by
    refine ⟨r.path?, toList_render r, ?_⟩
    by_cases hs : r.subpath = "" <;> simp [path?, hs]
  scope := h.scope
  name := h.name
  version := h.version
  rooted := h.rooted
  doubled := h.doubled

/-- What is written of a well-formed reference is read as that reference. -/
lemma parse_render_eq (h : r.WellFormed) : parse r.render = .ok r :=
  (h.hasForm_render.imp fun _ _ => Or.inl).parse_eq

end PackageReference.WellFormed

/-- **Package references, read and written.**  The written form of a reference that is read from a literal
is the literal, or the literal without a slash at its end if the path is empty.  And the written form of a
reference whose parts are in order is read, as that reference. -/
theorem PackageReference.reads_as_written :
    (∀ literal r, parse literal = .ok r →
      r.render = literal ∨ r.subpath = "" ∧ literal = r.render ++ "/") ∧
    ∀ r : PackageReference, r.WellFormed → parse r.render = .ok r :=
  ⟨fun _ _ h => render_of_parse h, fun _ h => h.parse_render_eq⟩

/-- A file of a package with a scope, with at signs in its path too. -/
def scopedReference : PackageReference :=
  ⟨some "@openzeppelin", "contracts", some "4.8.3-rc.1", "token/@old@1/ERC 20.sol"⟩

/-- A literal with a slash at its end is read and loses the slash, and a reference whose scope, version and
path all hold at signs is read as it was written. -/
theorem PackageReference.reads_as_written_scoped :
    parse "@a/b@1/" = .ok ⟨some "@a", "b", some "1", ""⟩ ∧
      (⟨some "@a", "b", some "1", ""⟩ : PackageReference).render ++ "/" = "@a/b@1/" ∧
      scopedReference.WellFormed ∧ parse scopedReference.render = .ok scopedReference := by
  have hread : parse "@a/b@1/" = .ok ⟨some "@a", "b", some "1", ""⟩ := by decide +kernel
  have hslash : (⟨some "@a", "b", some "1", ""⟩ : PackageReference).render ≠ "@a/b@1/" := by
    decide +kernel
  have hscope : ∀ scope ∈ scopedReference.scope?, ∃ word, IsWordOf isNameChar word ∧
      scope.toList = '@' :: word := by
    rintro _ ⟨⟩
    exact ⟨"openzeppelin".toList, by decide +kernel, by decide +kernel⟩
  have hversion : ∀ version ∈ scopedReference.version?, IsWordOf isVersionChar version.toList := by
    rintro _ ⟨⟩
    decide +kernel
  have htrimmed : ∀ c ∈ scopedReference.subpath.toList.getLast?, isBlank c = false := by
    have hlast : scopedReference.subpath.toList.getLast? = some 'l' := by decide +kernel
    rw [hlast]
    rintro _ ⟨⟩
    decide
  have hwell : scopedReference.WellFormed :=
    ⟨hscope, by decide +kernel, hversion, by decide +kernel, by decide +kernel, htrimmed⟩
  obtain ⟨-, hloses⟩ := (reads_as_written.1 _ _ hread).resolve_left hslash
  exact ⟨hread, hloses.symm, hwell, reads_as_written.2 scopedReference hwell⟩

end SourceBundle.Import
