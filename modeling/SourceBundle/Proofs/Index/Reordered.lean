/-
# Navigation after a reload

The document of the records lists them in the order of their names.  So when the records are saved and
loaded again, every file has the records that it had, but the files come in another order: what several
files have recorded for an import is then looked up in the least of these files, and no longer in the one
that was recorded first.
-/
import SourceBundle.Proofs.Index.Persisted

namespace SourceBundle

/-- The sources of ordered records ascend. -/
lemma IndexData.pairwise_ordered (d : IndexData) :
    d.ordered.entries.Pairwise fun a b => a.1 < b.1 :=
  List.pairwise_map.mpr (Table.pairwise_ordered d)

namespace Index

open Crowd

/-! ## Looking up an import -/

lemma lookup_of_same {i j : Index} (h : i.data.Same j.data) (source literal : String) :
    i.lookup source literal = j.lookup source literal := by
  have hsource := h source
  unfold lookup
  generalize i.data.get? source = t at hsource ⊢
  generalize j.data.get? source = t' at hsource ⊢
  cases hsource with
  | none => rfl
  | some ht => exact ht literal

lemma lookup_eq_some_iff {i : Index} {source literal target : String} :
    i.lookup source literal = some target ↔
      ∃ t, (source, t) ∈ i.data.entries ∧ t.get? literal = some target := by
  rw [lookup, Option.bind_eq_some_iff]
  exact exists_congr fun t => and_congr_left' Table.get?_eq_some_iff

/-- An import is not found in any file if no file has recorded it. -/
theorem lookupAny_eq_none_iff {i : Index} {literal : String} :
    i.lookupAny literal = none ↔ ∀ source, i.lookup source literal = none := by
  rw [lookupAny, List.findSome?_eq_none_iff]
  constructor
  · intro h source
    refine Option.eq_none_iff_forall_ne_some.mpr fun target htarget => ?_
    obtain ⟨t, ht, hget⟩ := lookup_eq_some_iff.mp htarget
    exact absurd ((h _ ht).symm.trans hget) (by simp)
  · intro h e he
    refine Option.eq_none_iff_forall_ne_some.mpr fun target htarget => ?_
    exact absurd ((h e.1).symm.trans (lookup_eq_some_iff.mpr ⟨e.2, he, htarget⟩)) (by simp)

/-- If the sources ascend, an import is found in the least file that has recorded it. -/
theorem lookupAny_eq_some_iff {i : Index} (hi : i.data.entries.Pairwise fun a b => a.1 < b.1)
    {literal target : String} : i.lookupAny literal = some target ↔
      ∃ source, i.lookup source literal = some target ∧
        ∀ source' < source, i.lookup source' literal = none := by
  rw [lookupAny, List.findSome?_eq_some_iff]
  constructor
  · rintro ⟨front, e, back, hentries, htarget, hfront⟩
    rw [hentries, List.pairwise_append, List.pairwise_cons] at hi
    refine ⟨e.1, lookup_eq_some_iff.mpr ⟨e.2, by simp [hentries], htarget⟩, fun source' hlt => ?_⟩
    refine Option.eq_none_iff_forall_ne_some.mpr fun target' htarget' => ?_
    obtain ⟨t, ht, hget⟩ := lookup_eq_some_iff.mp htarget'
    rw [hentries, List.mem_append, List.mem_cons] at ht
    rcases ht with ht | rfl | ht
    · exact absurd ((hfront _ ht).symm.trans hget) (by simp)
    · exact lt_irrefl _ hlt
    · exact lt_asymm hlt (hi.2.1.1 _ ht)
  · rintro ⟨source, hsource, hleast⟩
    obtain ⟨t, ht, hget⟩ := lookup_eq_some_iff.mp hsource
    obtain ⟨front, back, hentries⟩ := List.append_of_mem ht
    refine ⟨front, _, back, hentries, hget, fun e he => ?_⟩
    rw [hentries, List.pairwise_append] at hi
    refine Option.eq_none_iff_forall_ne_some.mpr fun target' htarget' => ?_
    have hlt : e.1 < source := hi.2.2 e he _ List.mem_cons_self
    have hlookup : i.lookup e.1 literal = some target' :=
      lookup_eq_some_iff.mpr ⟨e.2, by simp [hentries, he], htarget'⟩
    exact absurd ((hleast e.1 hlt).symm.trans hlookup) (by simp)

/-! ## To save and to reload -/

/-- Nothing that has happened changes the records, unless the load with this number has. -/
structure Still (n : Nat) (h : List Happening) : Prop where
  unedited : ∀ m e, .begun m (.edit e) ∉ h
  lasting : ∀ m, .begun m .reload ∉ h
  reads : OnlyReads n h

variable {path : String} {c₁ c₂ : Clerks} {d d' : Picture}

lemma Still.mono {n : Nat} {h h' : List Happening} (hs : Still n h) (hh : h' ⊆ h) : Still n h' where
  unedited m e hm := hs.unedited m e (hh hm)
  lasting m hm := hs.lasting m (hh hm)
  reads m p content hm := hs.reads m p content (hh hm)

lemma Still.replay_append {n : Nat} {h : List Happening} (hs : Still n h) (hn : ∀ e ∈ h, number e ≠ n)
    (rest : List Happening) : replay (h ++ rest) = replay rest := by
  have hunread : ¬ HasRead h n := fun ⟨p, content, hm⟩ => hn _ hm rfl
  rw [Index.replay_append hs.lasting hs.reads hunread, edited_of_silent hs.unedited]

/-- A load that has read a content has obtained its records. -/
lemma Settled.persisted_eq {h later earlier : List Happening} {n : Nat} {e : Happening}
    {persisted : IndexData} (hs : Settled h n later e earlier persisted) {p content : String}
    (hread : .answered n (.read p) (.ok content) ∈ h) : persisted = decode content := by
  rw [hs.split, List.mem_append, List.mem_cons] at hread
  rcases hread with hlater | rfl | hearlier
  · exact absurd rfl (hs.last _ hlater)
  · cases hs.obtained
    rfl
  · exact absurd ⟨p, content, hearlier⟩ hs.first

/-- The document that has been written since a save began is that of the records at its beginning, if
nothing else has changed them. -/
lemma Picture.Tidy.written_eq (h : d.Tidy) {w n : Nat} {p text : String}
    {after mid earlier : List Happening} (hh : d.history = after ++ (mid ++ .begun w .save :: earlier))
    (hw : .answered w (.write p text) (.ok ()) ∈ mid) (hs : Still n mid) (hn : ∀ e ∈ mid, number e ≠ n) :
    text = (replay earlier).render := by
  obtain ⟨newer, older, rfl⟩ := List.append_of_mem hw
  have hhistory : d.history = (after ++ newer) ++ .answered w (.write p text) (.ok ()) ::
      (older ++ .begun w .save :: earlier) := by
    rw [hh]
    simp
  obtain ⟨since, taken, hi⟩ := h.whole.written _ _ _ _ _ hhistory
  rcases List.append_eq_append_iff.mp hi.split with ⟨more, -, htaken⟩ | ⟨more, hsince, htaken⟩
  · cases more with
    | nil =>
      rw [hi.text, ← List.nil_append taken, ← htaken]
      rfl
    | cons e more =>
      -- a save begins once
      exfalso
      have hmem : .begun w .save ∈ earlier := by
        rw [(List.cons.inj htaken).2]
        exact List.mem_append_right _ hi.begun
      have hold := h.sound.numbered.older
      rw [hh, ← List.append_assoc] at hold
      exact lt_irrefl _ (hold.number_lt _ hmem)
  · have hmore : more ⊆ newer ++ .answered w (.write p text) (.ok ()) :: older := by
      rw [hsince]
      intro e he
      simp [he]
    rw [hi.text, htaken, (hs.mono hmore).replay_append fun e he => hn e (hmore he)]
    rfl

/-- A reload that has read what has been written since a save began leaves the records of its beginning, in
the order of their names. -/
lemma Picture.Tidy.reloaded_eq (h : d.Tidy) {r w : Nat} {p text : String}
    {after mid earlier : List Happening}
    (hh : d.history = after ++ .begun r .reload :: (mid ++ .begun w .save :: earlier))
    (hwritten : .answered w (.write p text) (.ok ()) ∈ mid)
    (hread : .answered (r + 1) (.read p) (.ok text) ∈ after) (hback : .returned r .done ∈ after)
    (hmid : Still (r + 1) mid) (hafter : Still (r + 1) after) :
    d.index.data = (replay earlier).ordered := by
  have hold : ∀ e ∈ mid, number e ≠ r + 1 := fun e he => by
    have hlt := (hh ▸ h.sound.numbered.older).number_lt e (List.mem_append_left _ he)
    omega
  have htext : text = (replay earlier).render := by
    rw [List.append_cons after] at hh
    exact h.written_eq hh hwritten hmid hold
  obtain ⟨later, e, before, persisted, hsettled, hdata⟩ := h.sound.reloaded hh hafter.lasting hback
  have hlater : later ⊆ after := by simp [hsettled.split]
  have hbefore : before ⊆ after := fun x hx => by simp [hsettled.split, hx]
  rw [hdata hafter.reads, edited_of_silent (hafter.mono hlater).unedited,
    edited_of_silent (hafter.mono hbefore).unedited, hsettled.persisted_eq hread, htext, decode_render]
  rfl

/-- When an index is saved, and then loaded anew from what has been written, and nothing else changes the
records meanwhile, what the imports of every file resolved to is looked up as before.  What an import
resolved to in any file is found if it was found before; and it is what the least file has that has
recorded the import. -/
theorem lookups_reloaded {s : Service} {r w : Nat} {p text : String} {after mid : List Happening}
    (hs : s.index = { path := path }) (h₁ : Reachable Demand.work s c₁)
    (h : Relation.ReflTransGen (Step Demand.work) c₁ c₂)
    (hh : c₂.history = after ++ .begun r .reload :: (mid ++ .begun w .save :: c₁.history))
    (hwritten : .answered w (.write p text) (.ok ()) ∈ mid)
    (hread : .answered (r + 1) (.read p) (.ok text) ∈ after) (hback : .returned r .done ∈ after)
    (hmid : Still (r + 1) mid) (hafter : Still (r + 1) after) :
    (∀ source literal, c₂.state.index.lookup source literal = c₁.state.index.lookup source literal) ∧
    (∀ literal, c₂.state.index.lookupAny literal = none ↔ c₁.state.index.lookupAny literal = none) ∧
    ∀ literal target, c₂.state.index.lookupAny literal = some target ↔
      ∃ source, c₁.state.index.lookup source literal = some target ∧
        ∀ source' < source, c₁.state.index.lookup source' literal = none := by
  obtain ⟨d₁, hd₁, htidy₁⟩ := exists_tidy hs h₁
  obtain ⟨d₂, hd₂, htidy₂⟩ := exists_tidy hs (h₁.trans h)
  have hdata : c₂.state.index.data = c₁.state.index.data.ordered := by
    rw [hd₁.index, hd₂.index, htidy₁.sound.replayed, ← hd₁.history]
    rw [hd₂.history] at hh
    exact htidy₂.reloaded_eq hh hwritten hread hback hmid hafter
  have hsame : c₂.state.index.data.Same c₁.state.index.data :=
    hdata ▸ c₁.state.index.data.same_ordered
  have hlookup := lookup_of_same hsame
  refine ⟨hlookup, fun literal => ?_, fun literal target => ?_⟩
  · rw [lookupAny_eq_none_iff, lookupAny_eq_none_iff]
    exact forall_congr' fun source => by rw [hlookup]
  · rw [lookupAny_eq_some_iff (hdata ▸ c₁.state.index.data.pairwise_ordered)]
    simp only [hlookup]

/-- Records of an import that two files have, the greater one first. -/
def twice : IndexData :=
  (Table.empty.insert "b.sol" (Table.empty.insert "x" "y")).insert "a.sol" (Table.empty.insert "x" "z")

/-- The picture after an import has been recorded for two files. -/
def recorded : Picture where
  clerks := []
  index := { begun.index with data := twice, dirty := true }
  history := [.returned 3 .done, .begun 3 (.edit (.record "a.sol" "x" "z")), .returned 2 .done,
    .begun 2 (.edit (.record "b.sol" "x" "y"))] ++ begun.history
  fresh := 4

/-- What happens while these records are saved. -/
def whileSaved : List Happening :=
  [.returned 4 (.saved true), .answered 4 (.write "i" twice.render) (.ok ()),
    .put 4 (.write "i" twice.render)]

/-- What happens when they are loaded anew. -/
def whileReloaded : List Happening :=
  [.returned 5 .done, .answered 6 (.read "i") (.ok twice.render), .put 6 (.read "i"),
    .answered 6 (.probe "i") (.ok true), .put 6 (.probe "i")]

/-- The picture after these records have been saved and loaded anew. -/
def reloaded : Picture where
  clerks := []
  index := {
    path := "i", data := twice.ordered, loaded := true, loading? := some 1
    loads := [(1, .ok ()), (0, .ok ())], loadsBegun := 2, savesBegun := 1 }
  history := whileReloaded ++ .begun 5 .reload :: (whileSaved ++ .begun 4 .save :: recorded.history)
  fresh := 7

lemma moves_recorded : Relation.ReflTransGen (Move "i") begun recorded := by
  have h₁ := Relation.ReflTransGen.refl (r := Move "i") (a := begun)
  have h₂ := h₁.tail (.edit (.record "b.sol" "x" "y"))
  exact h₂.tail (.edit (.record "a.sol" "x" "z"))

lemma moves_reloaded : Relation.ReflTransGen (Move "i") recorded reloaded := by
  have h₁ := Relation.ReflTransGen.refl (r := Move "i") (a := recorded)
  have h₂ := h₁.tail .enqueue
  have h₃ := h₂.tail (.take [] [] 4 0 rfl rfl rfl)
  have h₄ := h₃.tail (.written [] [] 4 0 twice.render rfl)
  have h₅ := h₄.tail .reload
  have h₆ := h₅.tail (.start [.awaiter 5 1] [] 6 1 rfl)
  have h₇ := h₆.tail (.find [] [.awaiter 5 1] 6 1 rfl)
  have h₈ := h₇.tail (.settle [] [.awaiter 5 1] _ 6 1 _ _ _ rfl (.read false twice.render))
  rw [recordsIn_render] at h₈
  exact h₈.tail (.learn [] [] 5 1 (.ok ()) rfl rfl)

lemma still_whileSaved : Still 6 whileSaved where
  unedited := by simp [whileSaved]
  lasting := by simp [whileSaved]
  reads m p content hm := by simp [whileSaved] at hm

lemma still_whileReloaded : Still 6 whileReloaded where
  unedited := by simp [whileReloaded]
  lasting := by simp [whileReloaded]
  reads m p content hm := by
    simp only [whileReloaded, List.mem_cons, List.not_mem_nil, reduceCtorEq, or_false, false_or] at hm
    rcases hm with hm | hm
    · cases hm
      exact Or.inl rfl
    · cases hm

lemma written_twice : .answered 4 (.write "i" twice.render) (.ok ()) ∈ whileSaved := by
  simp [whileSaved]

lemma read_twice : .answered 6 (.read "i") (.ok twice.render) ∈ whileReloaded := by
  simp [whileReloaded]

lemma exists_reloaded : ∃ c₁ c₂ : Clerks, Reachable Demand.work newService c₁ ∧
    Relation.ReflTransGen (Step Demand.work) c₁ c₂ ∧
    c₂.history = whileReloaded ++ .begun 5 .reload :: (whileSaved ++ .begun 4 .save :: c₁.history) ∧
    c₁.state.index = recorded.index ∧ c₂.state.index = reloaded.index := by
  obtain ⟨c₁, h₁, hd₁⟩ := exists_reachable (s := newService) rfl (moves_begun.trans moves_recorded)
  obtain ⟨c₂, h₂, hd₂⟩ := exists_steps hd₁ moves_reloaded
  exact ⟨c₁, c₂, h₁, h₂, hd₁.history ▸ hd₂.history, hd₁.index, hd₂.index⟩

/-- Both files keep what they have recorded of the import. -/
theorem lookups_reloaded_twice : ∃ c₁ c₂ : Clerks, Reachable Demand.work newService c₁ ∧
    Relation.ReflTransGen (Step Demand.work) c₁ c₂ ∧ c₂.state.index.lookup "b.sol" "x" = some "y" ∧
    c₂.state.index.lookup "a.sol" "x" = some "z" ∧ c₂.state.index.lookupAny "x" ≠ none := by
  obtain ⟨c₁, c₂, h₁, h₂, hh, hindex, -⟩ := exists_reloaded
  obtain ⟨hlookup, hnone, -⟩ := lookups_reloaded rfl h₁ h₂ hh written_twice read_twice
    (by simp [whileReloaded]) still_whileSaved still_whileReloaded
  refine ⟨c₁, c₂, h₁, h₂, ?_, ?_, ?_⟩
  · rw [hlookup, hindex]
    decide +kernel
  · rw [hlookup, hindex]
    decide +kernel
  · rw [Ne, hnone, hindex]
    decide +kernel

/-- What an import resolved to in any file is not looked up as before the reload. -/
theorem not_lookups_reloaded : ¬ ∀ {path : String} {s : Service} {c₁ c₂ : Clerks} {r w : Nat}
    {p text : String} {after mid : List Happening}, s.index = { path := path } →
    Reachable Demand.work s c₁ → Relation.ReflTransGen (Step Demand.work) c₁ c₂ →
    c₂.history = after ++ .begun r .reload :: (mid ++ .begun w .save :: c₁.history) →
    .answered w (.write p text) (.ok ()) ∈ mid → .answered (r + 1) (.read p) (.ok text) ∈ after →
    .returned r .done ∈ after → Still (r + 1) mid → Still (r + 1) after →
    ∀ literal, c₂.state.index.lookupAny literal = c₁.state.index.lookupAny literal := by
  intro h
  obtain ⟨c₁, c₂, h₁, h₂, hh, hindex₁, hindex₂⟩ := exists_reloaded
  have hsame := h rfl h₁ h₂ hh written_twice read_twice (by simp [whileReloaded]) still_whileSaved
    still_whileReloaded "x"
  rw [hindex₁, hindex₂] at hsame
  exact absurd hsame (by decide +kernel)

end Index

end SourceBundle
