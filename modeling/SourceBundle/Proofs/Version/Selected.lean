/-
# The version that is selected

Of some candidates those count that are read as a version of a class: the releases, or the versions that
a range admits.  If none counts, nothing is selected.  Otherwise the text that is selected is read as a
version that counts, no other one that counts comes after it, and in whatever order the candidates come
it has the same precedence; it is the same text, too, unless two candidates differ in nothing but their
builds.
-/
import SourceBundle.Proofs.Version.Order

namespace SourceBundle.Version

variable {P : Version → Prop} {range : String} {r : Range} {v : Version} {candidates : List String}
  {pick : List String → Except NoChoice String} {counted : List String → List Version}

/-- A candidate is read as a version of a class. -/
def Offered (P : Version → Prop) (candidates : List String) (v : Version) : Prop :=
  P v ∧ ∃ c ∈ candidates, parse? c = some v

/-- A version lies in a range, and is a release unless the text of the range names a prerelease. -/
def Admitted (range : String) (r : Range) (v : Version) : Prop :=
  r.contains v = true ∧ (includesPrerelease range = false → v.prerelease = [])

/-- A version is a release. -/
def IsRelease (v : Version) : Prop := v.prerelease = []

/-- How a version is picked from candidates, of which those of a class count. -/
structure PicksHighest (P : Version → Prop) (pick : List String → Except NoChoice String) : Prop where
  /-- Nothing is picked exactly if no candidate counts. -/
  error_iff : ∀ cs, (∃ reason, pick cs = .error reason) ↔ ∀ v, ¬ Offered P cs v
  /-- The text that is picked is read as a candidate is that counts, and no other one comes after it. -/
  highest : ∀ cs t, pick cs = .ok t →
    ∃ v, parse? t = some v ∧ Offered P cs v ∧ ∀ w, Offered P cs w → w.order v ≠ .gt
  /-- From the candidates in another order a version of the same precedence is picked, and the same text
  if no two that count differ in nothing but their builds. -/
  perm : ∀ cs ds t, cs.Perm ds → pick cs = .ok t →
    ∃ u v w, pick ds = .ok u ∧ parse? t = some v ∧ parse? u = some w ∧ v.order w = .eq ∧
      ((∀ a b, Offered P cs a → Offered P cs b → a.withoutBuild = b.withoutBuild → a = b) → u = t)

/-! ## The versions that count -/

lemma mem_eligible {prereleases : Bool} : v ∈ eligible prereleases candidates ↔
    Offered (fun v => prereleases = false → v.prerelease = []) candidates v := by
  simp only [eligible, List.mem_filterMap, Option.filter_eq_some_iff, Offered]
  cases prereleases with
  | false => simp; grind
  | true => simp

lemma mem_releases : v ∈ eligible false candidates ↔ Offered IsRelease candidates v := by
  rw [mem_eligible]
  simp [Offered, IsRelease]

lemma perm_eligible {ds : List String} (prereleases : Bool) (h : candidates.Perm ds) :
    (eligible prereleases candidates).Perm (eligible prereleases ds) := h.filterMap _

lemma mem_admitted : v ∈ (eligible (includesPrerelease range) candidates).filter r.contains ↔
    Offered (Admitted range r) candidates v := by
  rw [List.mem_filter, mem_eligible]
  unfold Offered Admitted
  grind

/-! ## Picking from them -/

/-- A selection chooses among the versions that count, and these are the candidates of a class. -/
structure ChoosesAmong (P : Version → Prop) (counted : List String → List Version)
    (pick : List String → Except NoChoice String) : Prop where
  choice : ∀ cs, ∃ reason, pick cs = choose reason (counted cs)
  mem_iff : ∀ cs v, v ∈ counted cs ↔ Offered P cs v
  perm : ∀ cs ds, cs.Perm ds → (counted cs).Perm (counted ds)

namespace Offered

lemma parse?_render (h : Offered P candidates v) : parse? v.render = some v := by
  obtain ⟨-, c, -, hc⟩ := h
  exact Version.parse?_render hc

lemma proper (h : Offered P candidates v) : ∀ i ∈ v.prerelease, ProperIdentifier i := by
  obtain ⟨-, c, -, hc⟩ := h
  exact proper_of_parse? hc

end Offered

namespace ChoosesAmong

lemma error_iff (h : ChoosesAmong P counted pick) (cs : List String) :
    (∃ reason, pick cs = .error reason) ↔ ∀ v, ¬ Offered P cs v := by
  obtain ⟨reason, hcs⟩ := h.choice cs
  simp only [← h.mem_iff, ← List.eq_nil_iff_forall_not_mem, hcs]
  cases counted cs with
  | nil => simp [choose]
  | cons v vs => simp [choose]

/-- What is picked is the highest of the versions that count. -/
lemma exists_highest (h : ChoosesAmong P counted pick) {cs : List String} {t : String}
    (ht : pick cs = .ok t) : ∃ first rest, counted cs = first :: rest ∧
      t = (Version.highest first rest).render ∧ Offered P cs (Version.highest first rest) := by
  obtain ⟨reason, hcs⟩ := h.choice cs
  rw [hcs] at ht
  cases hc : counted cs with
  | nil =>
    rw [hc] at ht
    contradiction
  | cons first rest =>
    rw [hc] at ht
    have hbest : Version.highest first rest ∈ counted cs := hc ▸ highest_mem first rest
    exact ⟨first, rest, rfl, (Except.ok.inj ht).symm, (h.mem_iff cs _).mp hbest⟩

lemma highest (h : ChoosesAmong P counted pick) {cs : List String} {t : String} (ht : pick cs = .ok t) :
    ∃ v, parse? t = some v ∧ Offered P cs v ∧ ∀ w, Offered P cs w → w.order v ≠ .gt := by
  obtain ⟨first, rest, hc, rfl, hbest⟩ := h.exists_highest ht
  refine ⟨_, hbest.parse?_render, hbest, fun w hw => ?_⟩
  exact Ordering.isLE_iff_ne_gt.mp (isLE_order_highest (hc ▸ (h.mem_iff cs w).mpr hw))

lemma perm_pick (h : ChoosesAmong P counted pick) {cs ds : List String} {t : String}
    (hcs : cs.Perm ds) (ht : pick cs = .ok t) :
    ∃ u v w, pick ds = .ok u ∧ parse? t = some v ∧ parse? u = some w ∧ v.order w = .eq ∧
      ((∀ a b, Offered P cs a → Offered P cs b → a.withoutBuild = b.withoutBuild → a = b) → u = t) := by
  obtain ⟨first, rest, hc, rfl, hbest⟩ := h.exists_highest ht
  have hpermuted := h.perm cs ds hcs
  cases hd : counted ds with
  | nil =>
    rw [hc, hd] at hpermuted
    exact absurd hpermuted.eq_nil (List.cons_ne_nil first rest)
  | cons first' rest' =>
    have hmem : Version.highest first' rest' ∈ counted ds := hd ▸ highest_mem first' rest'
    -- the highest of the one order is among the candidates of the other
    have hbest' : Offered P cs (Version.highest first' rest') :=
      (h.mem_iff cs _).mp (hpermuted.symm.subset hmem)
    rw [hc, hd] at hpermuted
    have hsame := order_highest_of_perm hpermuted
    obtain ⟨reason, hds⟩ := h.choice ds
    refine ⟨_, _, _, by rw [hds, hd]; rfl, hbest.parse?_render, hbest'.parse?_render, hsame, ?_⟩
    intro hunique
    have hbuild := (order_eq_eq_iff hbest.proper hbest'.proper).mp hsame
    rw [hunique _ _ hbest hbest' hbuild]

/-- To choose among the versions that count is to pick the highest. -/
theorem picksHighest (h : ChoosesAmong P counted pick) : PicksHighest P pick where
  error_iff := h.error_iff
  highest _ _ ht := h.highest ht
  perm _ _ _ hcs ht := h.perm_pick hcs ht

end ChoosesAmong

lemma choosesAmong_admitted (range : String) (r : Range) :
    ChoosesAmong (Admitted range r)
      (fun cs => (eligible (includesPrerelease range) cs).filter r.contains)
      (fun cs => choose (.noMatch range) ((eligible (includesPrerelease range) cs).filter r.contains)) where
  choice _ := ⟨_, rfl⟩
  mem_iff _ _ := mem_admitted
  perm _ _ h := (perm_eligible _ h).filter _

lemma choosesAmong_releases : ChoosesAmong IsRelease (eligible false) pickLatest where
  choice cs := by
    cases cs with
    | nil => exact ⟨.noneAvailable, rfl⟩
    | cons c cs => exact ⟨.noRelease, by rw [pickLatest, if_neg (by simp)]⟩
  mem_iff _ _ := mem_releases
  perm _ _ h := perm_eligible false h

end SourceBundle.Version
