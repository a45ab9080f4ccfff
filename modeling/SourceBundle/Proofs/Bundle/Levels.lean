/-
# The levels of a traversal

A pass adds files to the bundle, and these make up the next level.  If all that is read and fetched is
among some texts and packages, the files that can be added are among some paths: the paths in normal form
under which a text can be read, the imports of the texts as they are remapped, and the places of the files
of the packages.  As no file is added twice, a traversal makes no more passes than there are such paths.
-/
import SourceBundle.Proofs.Bundle.Added

namespace SourceBundle.Bundle

open SourceBundle.Import SourceBundle.Text

/-- What is read and fetched is among some texts and packages, and some paths are all to which these
lead. -/
structure Encloses (T : Terms Service Question Question.Answer) (st : Settings)
    (rules : List Remapping) (nodes : List Node) (paths texts : List String) : Prop where
  read : ∀ path text, T.answer (.read path) (.ok text) → text ∈ texts
  normal : ∀ path text, T.answer (.read (Path.normal path)) (.ok text) → Path.normal path ∈ paths
  named : ∀ text ∈ texts, ∀ file, ∀ r ∈ extract text file, (remap rules r.path).1 ∈ paths
  fetched : ∀ n ∈ nodes, ∀ path text, n.files.get? path = some text →
    n.pathFor st path ∈ paths ∧ text ∈ texts

/-- Files are added to the bundle and to the next level, all of them among some paths and with some
texts. -/
def Traversal.Gains (paths texts : List String) (t t' : Traversal) : Prop :=
  ∃ more, t'.bundle.entries = t.bundle.entries ++ more ∧ t'.next = t.next ++ more.map Prod.fst ∧
    ∀ e ∈ more, e.1 ∈ paths ∧ e.2 ∈ texts

/-- All files of the bundle are among some paths and have some texts. -/
def Traversal.Within (paths texts : List String) (t : Traversal) : Prop :=
  ∀ e ∈ t.bundle.entries, e.1 ∈ paths ∧ e.2 ∈ texts

variable {T : Terms Service Question Question.Answer} {S : Service → Prop} {st : Settings}
  {rules : List Remapping} {shelf : Nat} {t t' u : Traversal} {s s' v : Service} {r : Reference}
  {nodes : List Node} {paths texts : List String}

lemma Traversal.Gains.within (h : t.Gains paths texts t') (ht : t.Within paths texts) :
    t'.Within paths texts := by
  have hadds : t.Adds (fun path text => path ∈ paths ∧ text ∈ texts) t' := h
  exact hadds.all ht

open Traversal (Gains Within)

/-- That files are among some paths and have some texts goes over to those that their imports name. -/
lemma Encloses.inherited (he : Encloses T st rules nodes paths texts) :
    Inherited T st rules nodes fun path text => path ∈ paths ∧ text ∈ texts where
  imported file text h r hr text' ha := by
    refine ⟨?_, he.read _ _ ha⟩
    by_cases hc : classify st (remap rules r.path).1 = .relative
    · have hpath : targetOf st rules r =
          Path.normal (Path.join (Path.parent r.file) (remap rules r.path).1) := if_pos hc
      rw [hpath] at ha ⊢
      exact he.normal (Path.join (Path.parent r.file) (remap rules r.path).1) text' ha
    · rw [targetOf, if_neg hc]
      exact he.named text h.2 file r hr
  fetched := he.fetched

/-! ## Passes -/

/-- What is fetched for a key is among some packages. -/
def Among (nodes : List Node) (_ : PackageKey) (r : Except Fault Node) : Prop :=
  ∀ n, r = .ok n → n ∈ nodes

lemma mem_of_among {keys : List PackageKey} {ns : List Node}
    (h : List.Forall₂ (fun key n => Among nodes key (.ok n)) keys ns) : ∀ n ∈ ns, n ∈ nodes := by
  induction h with
  | nil => exact nofun
  | cons hn _ ih => exact List.forall_mem_cons.mpr ⟨hn _ rfl, ih⟩

/-- A pass adds the files that it leaves for the next level, and no others. -/
theorem Pass.gains {depth : Nat} {p : Passage} (hT : T.Meet (quiet S))
    (hS : ∀ s, S s → s.settings = st) (hd : ∀ s, S s → ∀ d r, (d, r) ∈ s.delivered → Among nodes d.1 r)
    (he : Encloses T st rules nodes paths texts) (h : Pass T shelf rules depth p t s t' s') (hs : S s)
    (ht : t.Within paths texts) :
    S s' ∧ Gains paths texts { t with next := [], waiting := [] } t' := by
  refine h.adds hT hS he.inherited ?_ hs ht
  obtain ⟨hcur, hscan, hfetch, -⟩ := h
  have hv := ((Work.lawful_contextIsCurrent _).ends hT hs hcur).2
  have hx := (hscan.adds hT hS he.inherited hv ht).1
  exact mem_of_among (Cache.good_of_fetchAll hT hd hx hfetch)

/-! ## The levels of a traversal -/

section Levels

variable {entry : String} {depth budget : Nat} {level left past : List String} {ps front back : List Passage}

/-- Passes that are made one after the other come apart anywhere. -/
lemma Passes.split (h : Passes T shelf rules depth level t s (front ++ back) left u v) :
    ∃ mid w x, Passes T shelf rules depth level t s front mid w x ∧
      Passes T shelf rules (depth + front.length) mid w x back left u v := by
  induction front generalizing depth level t s with
  | nil => exact ⟨level, t, s, .done, h⟩
  | cons p front ih =>
    cases h with
    | pass hne hpass hrest =>
      obtain ⟨mid, w, x, hfront, hback⟩ := ih hrest
      refine ⟨mid, w, x, .pass hne hpass hfront, ?_⟩
      rwa [List.length_cons, ← Nat.add_assoc, Nat.add_right_comm]

/-- After some passes another one can be made through the level that they have left. -/
lemma Passes.snoc {p : Passage} {w : Traversal} {x : Service}
    (h : Passes T shelf rules depth level t s ps p.files u v) (hne : p.files ≠ [])
    (hp : Pass T shelf rules (depth + ps.length) p u v w x) :
    Passes T shelf rules depth level t s (ps ++ [p]) w.next w x := by
  generalize hmid : p.files = mid at h
  induction h with
  | done =>
    obtain rfl := hmid
    exact .pass hne hp .done
  | pass hne' hpass _ ih =>
    rw [List.length_cons, Nat.add_comm _ 1, ← Nat.add_assoc] at hp
    exact .pass hne' hpass (ih hp hmid)

/-- A pass goes through some files, each of which has its place on the level. -/
lemma Passes.length_le (h : Passes T shelf rules depth level t s ps left u v) :
    ps.length ≤ (ps.flatMap Passage.files).length := by
  induction h with
  | done => exact Nat.zero_le _
  | pass hne _ _ ih =>
    rw [List.flatMap_cons, List.length_append, List.length_cons, Nat.add_comm]
    exact Nat.add_le_add (List.length_pos_iff.mpr hne) ih

/-- If the bundle has the files of a level last, it has the files of the following levels behind them,
level by level. -/
theorem Passes.keys (hT : T.Meet (quiet S)) (hS : ∀ s, S s → s.settings = st)
    (hd : ∀ s, S s → ∀ d r, (d, r) ∈ s.delivered → Among nodes d.1 r)
    (he : Encloses T st rules nodes paths texts)
    (h : Passes T shelf rules depth level t s ps left u v) (hs : S s) (ht : t.Within paths texts)
    (hk : t.bundle.keys = past ++ level) :
    u.Within paths texts ∧ u.bundle.keys = past ++ (ps.flatMap Passage.files ++ left) := by
  induction h generalizing past with
  | done => exact ⟨ht, hk⟩
  | @pass depth p ps left t w u s y v _ hpass _ ih =>
    obtain ⟨hy, hgains⟩ := hpass.gains hT hS hd he hs ht
    have hw : w.Within paths texts := hgains.within ht
    obtain ⟨more, hentries, hnext, -⟩ := hgains
    have hkeys : w.bundle.keys = (past ++ p.files) ++ w.next := by
      rw [Table.keys, hentries, List.map_append, hnext, List.nil_append]
      exact congrArg (· ++ _) hk
    obtain ⟨hu, hkeys'⟩ := ih hy hw hkeys
    refine ⟨hu, ?_⟩
    rw [hkeys', List.flatMap_cons, List.append_assoc, List.append_assoc]

/-- What is to be told of the levels of a traversal: its bundle has the files of all levels, no file is
on two levels or twice on one, and there are not more than some number of them.  When a pass through a
level begins, the bundle has the files of this level and of those before it; on the next level there are
only files that it has not. -/
structure Levels (T : Terms Service Question Question.Answer) (shelf : Nat) (rules : List Remapping)
    (bound : Nat) (entry : String) (t : Traversal) (s : Service) (ps : List Passage)
    (left : List String) (u : Traversal) (v : Service) : Prop where
  passes : Passes T shelf rules 0 [entry] t s ps left u v
  bundled : u.bundle.keys = ps.flatMap Passage.files ++ left
  distinct : (ps.flatMap Passage.files ++ left).Nodup
  bounded : (ps.flatMap Passage.files ++ left).length ≤ bound
  fresh : ∀ front p back, ps = front ++ p :: back → ∃ w x y z,
    Passes T shelf rules 0 [entry] t s front p.files w x ∧
      Pass T shelf rules front.length p w x y z ∧
      Passes T shelf rules (front.length + 1) y.next y z back left u v ∧
      w.bundle.keys = front.flatMap Passage.files ++ p.files ∧
      ∀ path ∈ y.next, path ∉ w.bundle.keys

/-- A traversal that begins with one file goes through levels, and with a budget that is not less than
the number of the paths it halts before the budget is spent. -/
theorem exists_levels {content : String} {r : Except Fault Bool} {s' : Service}
    (hT : T.Meet (quiet S)) (hS : ∀ s, S s → s.settings = st)
    (hd : ∀ s, S s → ∀ d r, (d, r) ∈ s.delivered → Among nodes d.1 r)
    (he : Encloses T st rules nodes paths texts) (hs : S s)
    (hb : t.bundle = Table.empty.insert entry content) (hentry : entry ∈ paths)
    (hcontent : content ∈ texts) (hbudget : paths.length ≤ budget)
    (h : Run.Ends T (traverse shelf rules entry budget 0 [entry]) t s r t' s') :
    ∃ ps left u v, Levels T shelf rules paths.length entry t s ps left u v ∧
      Halts T shelf rules entry ps.length u v left r t' s' := by
  have ht : t.Within paths texts := by
    unfold Within
    rw [hb]
    exact List.forall_mem_singleton.mpr ⟨hentry, hcontent⟩
  have hk : t.bundle.keys = [] ++ [entry] := by
    rw [hb]
    rfl
  obtain ⟨ps, left, u, v, hps, -, hend⟩ := exists_passes h
  have hcourse : ∀ {ps left u v}, Passes T shelf rules 0 [entry] t s ps left u v →
      u.Within paths texts ∧ u.bundle.keys = ps.flatMap Passage.files ++ left :=
    fun h => h.keys hT hS hd he hs ht hk
  obtain ⟨hwithin, hkeys⟩ := hcourse hps
  have hnodup : (ps.flatMap Passage.files ++ left).Nodup := hkeys ▸ u.bundle.distinct
  have hsub : ps.flatMap Passage.files ++ left ⊆ paths := by
    intro path hpath
    rw [← hkeys] at hpath
    obtain ⟨e, hmem, rfl⟩ := List.mem_map.mp hpath
    exact (hwithin e hmem).1
  have hlength : (ps.flatMap Passage.files ++ left).length ≤ paths.length :=
    (List.subperm_of_subset hnodup hsub).length_le
  refine ⟨ps, left, u, v, ⟨hps, hkeys, hnodup, hlength, fun front p back hsplit => ?_⟩, ?_⟩
  · obtain ⟨mid, w, x, hfront, hback⟩ := Passes.split (hsplit ▸ hps)
    have hw := (hcourse hfront).2
    rw [Nat.zero_add] at hback
    cases hback with
    | @pass _ _ _ _ _ y _ _ z _ hne hpass hrest =>
      have hy := (hcourse (hfront.snoc hne ((Nat.zero_add front.length).symm ▸ hpass))).2
      refine ⟨w, x, y, z, hfront, hpass, hrest, hw, fun path hnext hold => ?_⟩
      have hdistinct : y.bundle.keys.Nodup := y.bundle.distinct
      rw [hy, List.flatMap_append, List.flatMap_singleton, ← hw] at hdistinct
      exact (List.nodup_append.mp hdistinct).2.2 path hold path hnext rfl
  · rcases hend with hend | ⟨hspent, hleft, -⟩
    · rwa [Nat.zero_add] at hend
    · have hpos := List.length_pos_iff.mpr hleft
      have hle := hps.length_le
      rw [List.length_append] at hlength
      omega

end Levels

end SourceBundle.Bundle
