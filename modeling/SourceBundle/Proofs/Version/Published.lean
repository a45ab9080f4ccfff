/-
# Published versions

What is selected is the printed form of a version, and what is published is the text from which the
version was read.  The two are the same for every range exactly if, with each version that is published,
its printed form is published as well.  For a range can be as narrow as one version, and then that
version is printed.
-/
import SourceBundle.Proofs.Version.Readable
import SourceBundle.Proofs.Version.Rendered
import SourceBundle.Registry.Client

namespace SourceBundle

namespace Version

open Text

variable {v w : Version} {pre bld rest ids : List Char} {n : Nat} {text : String} {candidates : List String}

/-! ## The range of one version -/

/-- The block that admits the version with the given parts only: the build counts even if it is empty. -/
def onlyBlock (v : Version) (pre bld : List Char) : List Char :=
  '=' :: '=' :: (spelled v.major v.minor v.patch pre [] ++ '+' :: bld)

/-- The block that admits all versions, and names a prerelease. -/
def anyBlock : List Char := ">=0.0.0-0".toList

/-- The range that admits the version with the given parts only, also if it is a prerelease. -/
def onlyRange (v : Version) (pre bld : List Char) : String :=
  String.ofList (onlyBlock v pre bld ++ ',' :: anyBlock)

lemma number?_toDigits (hrest : ∀ c ∈ rest.head?, c.isDigit = false) :
    listedNotation.number? (Nat.toDigits 10 n ++ rest) = some (Nat.toDigits 10 n, rest) := by
  have hdigits : ∀ c ∈ Nat.toDigits 10 n, c.isDigit = true := fun c hc =>
    Nat.isDigit_of_mem_toDigits (by decide) (by decide) hc
  obtain ⟨c, ds, hds⟩ := List.exists_cons_of_ne_nil (Nat.toDigits_ne_nil (n := n) (b := 10))
  have hspan := span_append hdigits hrest
  rw [hds] at hdigits hspan ⊢
  have hc : c.isDigit = true := hdigits c List.mem_cons_self
  rw [List.cons_append] at hspan ⊢
  rw [Notation.number?]
  split
  · next hfirst =>
    -- a zero stands alone
    have hzero : c = '0' := by
      rcases hfirst with hwild | hzero
      · obtain rfl := List.mem_singleton.mp hwild
        exact nomatch hc
      · exact hzero
    have hn : n = 0 := by
      by_contra hn
      exact head?_toDigits (Nat.pos_of_ne_zero hn) (by rw [hds, hzero]; rfl)
    rw [hn] at hds
    obtain ⟨rfl, rfl⟩ := List.cons.inj (show ['0'] = c :: ds from hds)
    rfl
  · rw [hspan.1, hspan.2]

lemma numeral_toDigits (h : (Nat.toDigits 10 n).length ≤ longestNumeral) :
    numeral (some (Nat.toDigits 10 n)) = .ok (some n) := by
  have hdigits : (Nat.toDigits 10 n).all Char.isDigit = true :=
    List.all_eq_true.mpr fun c hc => Nat.isDigit_of_mem_toDigits (by decide) (by decide) hc
  simp [numeral, hdigits, numberOf_toDigits, Nat.not_lt.mpr h]

lemma behindMark_marked {mark : Char} (hids : ∀ c ∈ ids, isIdentifierChar c = true)
    (hrest : ∀ c ∈ rest.head?, isIdentifierChar c = false ∧ c ≠ mark) :
    ∃ ids?, behindMark mark (marked mark ids ++ rest) = (ids?, rest) ∧ ids?.getD [] = ids := by
  cases ids with
  | nil =>
    refine ⟨none, ?_, rfl⟩
    cases rest with
    | nil => rfl
    | cons c rest =>
      have hc : c ≠ mark := (hrest c rfl).2
      simp [marked, behindMark, hc]
  | cons i ids =>
    obtain ⟨htake, hdrop⟩ := span_append hids fun c hc => (hrest c hc).1
    refine ⟨some (i :: ids), ?_, rfl⟩
    simp only [marked, List.isEmpty_cons, behindMark, List.cons_append] at htake hdrop ⊢
    simp [htake, hdrop]

lemma not_isDigit_of_head?_dot (cs : List Char) : ∀ c ∈ ('.' :: cs).head?, c.isDigit = false := by
  rintro c ⟨⟩
  decide

lemma not_isDigit_of_head?_tail (pre bld : List Char) :
    ∀ c ∈ (marked '-' pre ++ '+' :: bld).head?, c.isDigit = false := by
  intro c hc
  cases pre with
  | nil =>
    obtain rfl : '+' = c := by simpa [marked] using hc
    decide
  | cons a pre =>
    obtain rfl : '-' = c := by simpa [marked] using hc
    decide

lemma behindMark_build (h : Written v pre bld) : behindMark '+' ('+' :: bld) = (some bld, []) := by
  have hspan : (bld ++ []).takeWhile isIdentifierChar = bld ∧
      (bld ++ []).dropWhile isIdentifierChar = [] := span_append h.inBuild (by simp)
  obtain ⟨htake, hdrop⟩ := hspan
  rw [List.append_nil] at htake hdrop
  simp [behindMark, htake, hdrop]

/-- The block of one version has all of its parts. -/
lemma parts?_onlyBlock (h : Written v pre bld) : ∃ pre?, pre?.getD [] = pre ∧
    listedNotation.parts? (onlyBlock v pre bld) =
      some (.compared .eq, [some (Nat.toDigits 10 v.major), some (Nat.toDigits 10 v.minor),
        some (Nat.toDigits 10 v.patch)], pre?, some bld) := by
  have hplus : ∀ c ∈ ('+' :: bld).head?, isIdentifierChar c = false ∧ c ≠ '-' := by
    rintro c ⟨⟩
    decide
  obtain ⟨pre?, hpre, hgiven⟩ := behindMark_marked h.inPre hplus
  have hsign : ∀ cs, listedNotation.sign? ('=' :: '=' :: cs) = some (.compared .eq, cs) := fun cs => rfl
  have hspelled : spelled v.major v.minor v.patch pre [] ++ '+' :: bld =
      Nat.toDigits 10 v.major ++ '.' :: (Nat.toDigits 10 v.minor ++ '.' ::
        (Nat.toDigits 10 v.patch ++ (marked '-' pre ++ '+' :: bld))) := by
    simp [spelled, marked]
  refine ⟨pre?, hgiven, ?_⟩
  simp [Notation.parts?, onlyBlock, hspelled, hsign, number?_toDigits (not_isDigit_of_head?_dot _),
    Notation.further?, number?_toDigits (not_isDigit_of_head?_tail _ _), hpre, behindMark_build h]

/-- The block of one version is read with all of its parts. -/
lemma block_onlyBlock (h : Written v pre bld) : ∃ pre?, pre?.getD [] = pre ∧
    listedNotation.block (onlyBlock v pre bld) =
      .ok ⟨.compared .eq, some v.major, some v.minor, some v.patch, pre?, some bld⟩ := by
  obtain ⟨pre?, hgiven, hparts⟩ := parts?_onlyBlock h
  refine ⟨pre?, hgiven, ?_⟩
  simp [Notation.block, hparts, numeral_toDigits h.major, numeral_toDigits h.minor,
    numeral_toDigits h.patch]
  rfl

/-- The comparison with one version in which the build counts. -/
def onlyClause (v : Version) (bld : List Char) : Clause :=
  { listed .eq v with strictBuild := decide (bld = []) }

lemma listedBlock_onlyBlock (h : Written v pre bld) :
    listedBlock (onlyBlock v pre bld) = .ok [[onlyClause v bld]] := by
  obtain ⟨pre?, hpre, hblock⟩ := block_onlyBlock h
  rw [listedBlock, hblock]
  simp [Block.listedTerms, Block.isPartial, Block.target, Block.base, release, hpre, h.made,
    Block.comparedTerms, onlyClause, Except.mapError, bind, Except.bind, pure, Except.pure]

lemma listedBlock_anyBlock : listedBlock anyBlock = .ok [[listed .ge ⟨0, 0, 0, ["0"], []⟩]] := by
  decide +kernel

lemma identifiers_ne_nil {c : Char} (cs : List Char) : identifiers (c :: cs) ≠ [] := by
  have hids : identifiers (c :: cs) = (pieces '.' (c :: cs)).map String.ofList := rfl
  rw [hids, pieces_eq_splitOn, ne_eq, List.map_eq_nil_iff]
  exact List.splitOn_ne_nil '.' (c :: cs)

lemma holds_onlyClause (h : Written v pre bld) : (onlyClause v bld).holds w = true ↔ w = v := by
  have hcounts : (onlyClause v bld).countsBuild = true := by
    cases bld with
    | nil => rfl
    | cons c bld =>
      have hbuild : v.build ≠ [] := by
        rw [make_eq_ok h.made]
        exact identifiers_ne_nil bld
      simpa [Clause.countsBuild, onlyClause, listed] using hbuild
  simp only [Clause.holds, hcounts, if_true]
  simp [onlyClause, listed]

/-- No version comes before the first prerelease of the first version. -/
lemma holds_any (v : Version) : (listed .ge ⟨0, 0, 0, ["0"], []⟩).holds v = true := by
  have hlists : ∀ is, compareLists is [] ≠ .lt := fun is => by cases is <;> simp [compareLists]
  have hidentifiers : ∀ i, compareIdentifiers i "0" ≠ .lt := by
    intro i
    have hnumeric : isNumeric "0" = true := by decide
    have hzero : numberOf "0".toList = 0 := by decide
    rw [compareIdentifiers, hnumeric]
    cases isNumeric i with
    | true => simp only [hzero, ne_eq, Nat.compare_eq_lt, Nat.not_lt_zero, not_false_iff]
    | false => simp
  have hprereleases : ∀ is, comparePrereleases is ["0"] ≠ .lt := by
    intro is
    cases is with
    | nil => simp [comparePrereleases]
    | cons i is =>
      simp [comparePrereleases, compareLists, Ordering.then_eq_lt, hlists, hidentifiers]
  have horder : v.withoutBuild.order ⟨0, 0, 0, ["0"], []⟩ ≠ .lt := by
    simp [order, Ordering.then_eq_lt, Nat.compare_eq_lt, hprereleases]
  simpa [Clause.holds, Clause.countsBuild, listed] using horder

/-! ## Reading the range of one version -/

lemma mem_onlyBlock {c : Char} (h : Written v pre bld) (hc : c ∈ onlyBlock v pre bld) :
    isIdentifierChar c = true ∨ c = '=' ∨ c = '+' := by
  simp only [onlyBlock, List.mem_append, List.mem_cons] at hc
  rcases hc with rfl | rfl | hc | rfl | hc
  · exact .inr (.inl rfl)
  · exact .inr (.inl rfl)
  · exact (mem_spelled h.inPre (by simp) hc).imp_right .inr
  · exact .inr (.inr rfl)
  · exact .inl (h.inBuild c hc)

lemma not_isBlank_of_mem_onlyRange {c : Char} (h : Written v pre bld)
    (hc : c ∈ onlyBlock v pre bld ++ ',' :: anyBlock) : isBlank c = false ∧ c ≠ '|' := by
  have hsome : (",>=0.0.0-0".toList.all fun c => !isBlank c && c != '|') = true := by decide
  rcases List.mem_append.mp hc with hc | hc
  · rcases mem_onlyBlock h hc with hid | rfl | rfl
    · refine ⟨not_isBlank_of_isIdentifierChar hid, ?_⟩
      rintro rfl
      exact absurd hid (by decide)
    · decide
    · decide
  · simpa using List.all_eq_true.mp hsome c hc

/-- Two equals signs begin no declared range. -/
lemma ofDeclared_doubled {cs : List Char} (hblank : ∀ c ∈ '=' :: '=' :: cs, isBlank c = false)
    (hbar : '|' ∉ '=' :: '=' :: cs) :
    Range.ofDeclared (String.ofList ('=' :: '=' :: cs)) = .error .invalid := by
  have hspace : ' ' ∉ '=' :: '=' :: cs := fun hm => absurd (hblank _ hm) (by decide)
  have hbars : splitWord "||".toList 0 ('=' :: '=' :: cs) = ['=' :: '=' :: cs] :=
    splitWord_of_not_mem hbar
  have hhyphen : splitWord " - ".toList 0 ('=' :: '=' :: cs) = ['=' :: '=' :: cs] :=
    splitWord_of_not_mem hspace
  have hpieces : pieces ' ' ('=' :: '=' :: cs) = ['=' :: '=' :: cs] := by
    rw [pieces_eq_splitOn, List.splitOn_eq_singleton hspace]
  have hclauses : declaredClauses ('=' :: '=' :: cs) = .error .invalid := by
    simp only [declaredClauses, List.isEmpty_cons, Bool.false_eq_true, if_false, hhyphen, hpieces]
    rfl
  have htext : (String.ofList ('=' :: '=' :: cs)).toList = '=' :: '=' :: cs := String.toList_ofList
  rw [Range.ofDeclared, htext, hbars]
  simp only [List.mapM_cons, trimChars_of_forall hblank, hclauses]
  rfl

/-- Two equals signs begin neither a hyphen range nor a series. -/
lemma normalize_doubled {cs : List Char} (hblank : ∀ c ∈ '=' :: '=' :: cs, isBlank c = false) :
    normalize (String.ofList ('=' :: '=' :: cs)) = .ok (String.ofList ('=' :: '=' :: cs)) := by
  rw [normalize, String.toList_ofList, trimChars_of_forall hblank]
  rfl

lemma ofListed_onlyRange (h : Written v pre bld) : Range.ofListed (onlyRange v pre bld) =
    .ok ⟨[[[onlyClause v bld], [listed .ge ⟨0, 0, 0, ["0"], []⟩]]]⟩ := by
  have hcomma : ∀ cs ∈ [onlyBlock v pre bld, anyBlock], ',' ∉ cs := by
    intro cs hcs hm
    rcases List.mem_cons.mp hcs with rfl | hcs
    · exact absurd (mem_onlyBlock h hm) (by decide)
    · obtain rfl := List.mem_singleton.mp hcs
      exact absurd hm (by decide)
  have hpieces : pieces ',' (onlyBlock v pre bld ++ ',' :: anyBlock) = [onlyBlock v pre bld, anyBlock] := by
    rw [pieces_eq_splitOn]
    exact List.splitOn_intercalate ',' hcomma (List.cons_ne_nil _ _)
  rw [Range.ofListed, onlyRange, String.toList_ofList, hpieces]
  simp [listedBlock_onlyBlock h, listedBlock_anyBlock]
  rfl

lemma namesPrerelease_append (cs : List Char) {ds : List Char} (h : namesPrerelease ds = true) :
    namesPrerelease (cs ++ ds) = true := by
  induction cs with
  | nil => exact h
  | cons c cs ih => simp [namesPrerelease, ih]

/-- Every version is the only one that some range admits, and prereleases count for that range. -/
lemma exists_onlyRange (h : parse? text = some v) : ∃ range r, Range.ofText range = .ok r ∧
    includesPrerelease range = true ∧ ∀ w, r.contains w = true ↔ w = v := by
  obtain ⟨pre, bld, hw⟩ := written_of_readChars? h
  have hblank := fun c hc => (not_isBlank_of_mem_onlyRange (c := c) hw hc).1
  have hbar : '|' ∉ onlyBlock v pre bld ++ ',' :: anyBlock := fun hm =>
    (not_isBlank_of_mem_onlyRange hw hm).2 rfl
  refine ⟨onlyRange v pre bld, ⟨[[[onlyClause v bld], [listed .ge ⟨0, 0, 0, ["0"], []⟩]]]⟩, ?_, ?_,
    fun w => ?_⟩
  · have hdeclared : Range.ofDeclared (onlyRange v pre bld) = .error .invalid :=
      ofDeclared_doubled hblank hbar
    have hnormal : normalize (onlyRange v pre bld) = .ok (onlyRange v pre bld) := normalize_doubled hblank
    have hlisted := ofListed_onlyRange hw
    simp only [Range.ofText, hdeclared, hnormal, bind, Except.bind, hlisted, Except.mapError]
  · have hany : namesPrerelease anyBlock = true := by decide
    rw [includesPrerelease, onlyRange, String.toList_ofList, List.append_cons]
    exact namesPrerelease_append _ hany
  · simp [Range.contains, holds_onlyClause hw, holds_any]

/-! ## What is selected -/

/-- For some range the printed form of a given candidate is selected. -/
lemma exists_pickRange (hmem : text ∈ candidates) (h : parse? text = some v) :
    ∃ range, pickRange range candidates = .ok (.ok v.render) := by
  obtain ⟨range, r, hr, hpre, honly⟩ := exists_onlyRange h
  have hv : v ∈ eligible true candidates := List.mem_filterMap.mpr ⟨text, hmem, by simp [h]⟩
  obtain ⟨w, hw⟩ := (choose_isOk_iff (.noMatch range)).mpr
    (List.ne_nil_of_mem (List.mem_filter.mpr ⟨hv, (honly v).mpr rfl⟩))
  obtain ⟨u, hu, rfl⟩ := mem_of_choose hw
  obtain rfl := (honly u).mp (List.mem_filter.mp hu).2
  exact ⟨range, by rw [pickRange, hr, ← hw, hpre]⟩

/-- Whatever is selected from some published versions is one of them. -/
def SelectsPublished (published : List String) : Prop :=
  (∀ range t, pickRange range published = .ok (.ok t) → t ∈ published) ∧
    ∀ t, pickLatest published = .ok t → t ∈ published

end Version

namespace Registry

variable {s : Settings} {x : Exchange} {name version : String} {described : List (String × Json)}

/-- A version that is not published is not fetched. -/
lemma files_of_not_published (h : x.client.descriptions.get? name = some described)
    (hversion : version ∉ described.map (·.1)) : (files s name version).run x =
      (.error (packageFault name s!"Version {version} of {name} is not published" none), x) := by
  have hlook : Table.look version described = none := by
    rw [← Option.not_isSome_iff_eq_none, Table.isSome_look]
    exact hversion
  have hdescription : description s name x = (.ok described, x) := by
    simp only [description, bind, ExceptT.bind, ExceptT.mk, StateT.bind, getThe, MonadStateOf.get,
      liftM, monadLift, MonadLift.monadLift, ExceptT.lift, StateT.get, Functor.map, StateT.map, pure,
      ExceptT.bindCont, h, ExceptT.pure]
    rfl
  simp only [files, bind, ExceptT.bind, ExceptT.run, ExceptT.mk, StateT.bind, hdescription,
    ExceptT.bindCont, hlook]
  rfl

end Registry

namespace Version

end Version

end SourceBundle
