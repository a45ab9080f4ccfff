/-
# Exact versions that are declared

A declared range that is a version is not looked for among the published ones: what is given is its text
without the marks in front.  That text is read as the same version, but it is the printed form of the
version only if the declared text is solid, without blanks and in ASCII characters.  So two declarations of
one version give one key of a package if both are solid, and one that is not gives a key of its own.
-/
import SourceBundle.Proofs.Resolve.Offers
import SourceBundle.Proofs.Version.Tolerant

namespace SourceBundle.Resolve

open SourceBundle.Import SourceBundle.Text Version

variable {v : Version} {text range : String} {r : Resolver} {ref : PackageReference}

/-! ## The version without its marks -/

lemma toList_dropMarks (text : String) :
    (dropMarks text).toList = text.toList.dropWhile isMark := String.toList_ofList

/-- The text of a version without its marks is the printed form exactly if it is solid. -/
lemma dropMarks_eq_render_iff (h : parse? text = some v) :
    dropMarks text = v.render ↔ Solid text := by
  constructor
  · intro heq c hc
    have hsolid := solid_render h
    rw [← heq] at hsolid
    rw [← List.takeWhile_append_dropWhile (p := isMark) (l := text.toList), List.mem_append] at hc
    rcases hc with hmark | hc
    · have hfacts := isMark_facts (List.mem_takeWhile_imp hmark)
      exact ⟨hfacts.2.1, hfacts.1⟩
    · exact hsolid c (toList_dropMarks text ▸ hc)
  · intro hsolid
    have hblank : ∀ cs, cs ⊆ text.toList → trimChars cs = cs := fun cs hcs =>
      trimChars_of_forall fun c hc => (hsolid c (hcs hc)).1
    have hsub : text.toList.dropWhile isMark ⊆ text.toList := (List.dropWhile_sublist isMark).subset
    have hread : readChars? (text.toList.dropWhile isMark) = some v := by
      rwa [parse?, hblank _ (List.Subset.refl _), hblank _ hsub] at h
    obtain ⟨pre, bld, hparts⟩ := parts_of_readChars? hread
    apply String.toList_injective
    rw [toList_dropMarks, toList_render hparts.written]
    exact hparts.eq_spelled fun c hc => (hsolid c (hsub hc)).2

/-- A version that is read is read from the text without its marks, too. -/
lemma parse?_dropMarks (h : parse? text = some v) : parse? (dropMarks text) = some v := by
  obtain ⟨before, marks, between, core, behind, hs⟩ := exists_standsIn h
  cases before with
  | nil =>
    have hrest : (dropMarks text).toList = between ++ (core ++ behind) := by
      rw [toList_dropMarks, hs.text, List.nil_append,
        List.dropWhile_append_of_pos hs.marks, hs.dropWhile_isMark hs.between]
    have hstands : StandsIn v (dropMarks text).toList [] [] between core behind :=
      { hs with text := hrest, marks := by simp }
    exact hstands.parse?
  | cons b before =>
    -- marks behind a blank stay
    have hb : isMark b = false := not_isMark (.inl (hs.before b List.mem_cons_self))
    have hsame : dropMarks text = text := by
      apply String.toList_injective
      rw [toList_dropMarks]
      exact dropWhile_of_head? (by simpa [hs.text] using hb)
    rwa [hsame]

/-! ## The steps that go by declarations -/

/-- A step gives a version, without asking for anything. -/
def Gives (step : Choosing (Option ResolvedVersion)) (r : Resolver) (version : String) : Prop :=
  ∃ source detail?, step.run r = .done (.ok (some ⟨version, source, detail?⟩), r)

/-- What a step gives is read as the version that is declared, and it is the printed form of the version
exactly if the declared text is solid. -/
def GivesDeclared (step : Choosing (Option ResolvedVersion)) (r : Resolver) (range : String)
    (v : Version) : Prop :=
  ∃ version, Gives step r version ∧ parse? version = some v ∧ (version = v.render ↔ Solid range)

lemma givesDeclared_fromRange (h : parse? range = some v) (source : VersionSource) (detail : String)
    (warning : String → Warning) :
    GivesDeclared (fromRange ref range source detail warning) r range v := by
  have hexact : isExact range = true := by rw [isExact, h, Option.isSome_some]
  refine ⟨dropMarks range, ⟨source, some detail, ?_⟩, parse?_dropMarks h, dropMarks_eq_render_iff h⟩
  rw [fromRange, if_pos hexact]
  rfl

/-- To get what is remembered changes nothing. -/
lemma givesDeclared_get {f : Resolver → Choosing (Option ResolvedVersion)}
    (h : GivesDeclared (f r) r range v) : GivesDeclared (getThe Resolver >>= f) r range v := h

lemma givesDeclared_fromManifest {field : DeclarationField}
    (hdeclared : declared? r.manifest? ref = some (range, field)) (h : parse? range = some v) :
    GivesDeclared (fromManifest ref) r range v := by
  refine givesDeclared_get ?_
  rw [declared?] at hdeclared
  rw [hdeclared]
  exact givesDeclared_fromRange h .manifest field.word _

lemma givesDeclared_fromParent {parent? : Option PackageKey} {parent : PackageKey}
    (hdeclared : parentRange? r.parents parent? ref = some (parent, range)) (h : parse? range = some v) :
    GivesDeclared (fromParent ref parent?) r range v := by
  refine givesDeclared_get ?_
  cases parent? with
  | none => contradiction
  | some key =>
    rw [parentRange?, Option.bind_some] at hdeclared
    dsimp only
    cases hfound : (r.parents.get? key).bind (·.get? ref.fullName) with
    | none =>
      rw [hfound] at hdeclared
      contradiction
    | some found =>
      rw [hfound, Option.map_eq_some_iff] at hdeclared
      obtain ⟨found', hfilter, hpair⟩ := hdeclared
      obtain ⟨hsame, hnonempty⟩ := Option.filter_eq_some_iff.mp hfilter
      obtain rfl := Option.some.inj hsame
      obtain ⟨rfl, rfl⟩ := Prod.mk.inj hpair
      have hempty : found.isEmpty = false := by simpa using hnonempty
      simp only [hempty, Bool.false_eq_true, if_false]
      exact givesDeclared_fromRange h .parent key.render _

/-- A version of one package is declared by the workspace, and by another package. -/
def declaring (workspace package : String) : Resolver :=
  let declared (range : String) : Table String String := Table.ofList [("p", range)]
  ⟨some ⟨none, Table.ofList [(.dependencies, declared workspace)]⟩, ∅, {}, ∅,
    Table.ofList [(⟨"q", "1.0.0"⟩, declared package)], ∅, ∅⟩

end SourceBundle.Resolve
