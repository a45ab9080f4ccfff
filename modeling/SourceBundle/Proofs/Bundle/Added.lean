/-
# The files that a traversal adds

A file is added to the bundle because an import names it, or because its package is fetched.  So what is
true of the first file, goes over from a file to those that its imports name, and is true of the files of
the packages that are fetched, is true of all files of the bundle.
-/
import SourceBundle.Proofs.Bundle.Canonical

namespace SourceBundle.Bundle

open SourceBundle.Import SourceBundle.Text

/-- The path of the file that an import names by itself: beside the importing file, or as it is remapped. -/
def targetOf (st : Settings) (rules : List Remapping) (r : Reference) : String :=
  if classify st (remap rules r.path).1 = .relative then relativePath r.file (remap rules r.path).1
  else (remap rules r.path).1

/-- A property of paths and texts goes over from a file to those that its imports name, if these can be
read, and some packages have it. -/
structure Inherited (T : Terms Service Question Question.Answer) (st : Settings)
    (rules : List Remapping) (nodes : List Node) (P : String → String → Prop) : Prop where
  imported : ∀ file text, P file text → ∀ r ∈ extract text file, ∀ text' : String,
    T.answer (.read (targetOf st rules r)) (.ok text') → P (targetOf st rules r) text'
  fetched : ∀ n ∈ nodes, ∀ path text, n.files.get? path = some text → P (n.pathFor st path) text

namespace Traversal

/-- All files of the bundle have a property. -/
def All (P : String → String → Prop) (t : Traversal) : Prop := ∀ e ∈ t.bundle.entries, P e.1 e.2

/-- Files with a property are added to the bundle and to the next level. -/
def Adds (P : String → String → Prop) (t t' : Traversal) : Prop :=
  ∃ more, t'.bundle.entries = t.bundle.entries ++ more ∧ t'.next = t.next ++ more.map Prod.fst ∧
    ∀ e ∈ more, P e.1 e.2

variable {P : String → String → Prop} {t t' : Traversal}

instance : IsPreorder Traversal (Adds P) where
  refl _ := ⟨[], by simp, by simp, nofun⟩
  trans := by
    rintro t u t' ⟨more, hb, hn, hm⟩ ⟨more', hb', hn', hm'⟩
    exact ⟨more ++ more', by simp [hb, hb'], by simp [hn, hn'], List.forall_mem_append.mpr ⟨hm, hm'⟩⟩

namespace Adds

lemma of_eq (hb : t'.bundle = t.bundle) (hn : t'.next = t.next) : Adds P t t' :=
  ⟨[], by simp [hb], by simp [hn], nofun⟩

lemma of_notes (h : t.Notes t') : Adds P t t' := by
  obtain ⟨c, -, rfl⟩ := h
  exact of_eq rfl rfl

lemma addFile {path content : String} (h : ¬ t.bundle.contains path = true) (hp : P path content) :
    Adds P t (t.addFile path content) :=
  ⟨[(path, content)], Table.entries_insert_new h content, rfl, List.forall_mem_singleton.mpr hp⟩

lemma all (h : Adds P t t') (ht : t.All P) : t'.All P := by
  obtain ⟨more, hb, -, hm⟩ := h
  unfold All
  rw [hb]
  exact List.forall_mem_append.mpr ⟨ht, hm⟩

end Adds

end Traversal

open Traversal (Adds All)

variable {T : Terms Service Question Question.Answer} {S : Service → Prop} {st : Settings}
  {rules : List Remapping} {shelf : Nat} {t t' u : Traversal} {s s' v : Service} {r : Reference}
  {nodes : List Node} {P : String → String → Prop}

/-! ## Scanning files -/

/-- A workspace file that is added has been read. -/
lemma adds_of_addLocal {path : String} {a : Unit}
    (hp : ∀ text : String, T.answer (.read path) (.ok text) → P path text)
    (h : Run.Ends T (addLocal path r) t s (.ok a) t' s') : Adds P t t' := by
  obtain ⟨_, _, _, hg, h₁⟩ := Run.ends_bind_ok.mp h
  obtain ⟨⟨⟩, rfl, rfl⟩ := Run.ends_get.mp hg
  split at h₁
  · obtain ⟨-, rfl, -⟩ := Run.ends_pure.mp h₁
    exact refl_of (Adds P) _
  · next hnew =>
    obtain ⟨content, u, v, hc, hm⟩ := Run.ends_bind_ok.mp h₁
    obtain ⟨-, rfl, -⟩ := Run.ends_modify.mp hm
    obtain ⟨hread, rfl⟩ := Run.ends_lift.mp hc
    have hanswer : T.answer (.read path) (.ok content) := by
      rcases Task.ends_handle.mp hread with ⟨a, hr, ⟨⟩⟩ | ⟨f, w, -, hf⟩
      · obtain ⟨there, x, -, h₂⟩ := Attempt.ends_bind_ok.mp hr
        cases there with
        | true => exact Workspace.answer_of_readTwice h₂
        | false => exact absurd h₂ Attempt.not_ends_throw
      · cases f <;> exact absurd hf Attempt.not_ends_throw
    exact .addFile hnew (hp content hanswer)

/-- An import adds its file by itself only if it can be read under the path that the import names. -/
lemma adds_of_locate {path? : Option String} (hT : T.Meet (quiet S))
    (hS : ∀ s, S s → s.settings = st) (hs : S s)
    (hr : ∀ text : String, T.answer (.read (targetOf st rules r)) (.ok text) →
      P (targetOf st rules r) text)
    (h : Run.Ends T (locate r (remap rules r.path).1) t s (.ok path?) t' s') : Adds P t t' := by
  obtain ⟨v, hv, hl⟩ := exists_locates hT hS hs h
  cases hl with
  | relative hc ha =>
    rw [targetOf, if_pos hc] at hr
    exact adds_of_addLocal hr ha
  | found hc ha =>
    rw [targetOf, if_neg hc] at hr
    exact adds_of_addLocal hr ha
  | skipped _ hw => exact .of_notes ((notes_collecting (Resolve.keeps_warn _)).ends hT hv hw).1
  | package _ hw =>
    obtain ⟨version, haw⟩ := awaits_of_awaitPackage hT hS hv hw
    exact .of_eq haw.bundle haw.next

theorem Follows.adds {rs : List Reference} {is : List Followed} (hT : T.Meet (quiet S))
    (hS : ∀ s, S s → s.settings = st)
    (hrs : ∀ r ∈ rs, ∀ text : String, T.answer (.read (targetOf st rules r)) (.ok text) →
      P (targetOf st rules r) text)
    (h : Follows T rules rs t s is t' s') (hs : S s) : S s' ∧ Adds P t t' := by
  induction h with
  | done => exact ⟨hs, refl_of (Adds P) _⟩
  | skipped hl _ ih =>
    obtain ⟨hr, hrs⟩ := List.forall_mem_cons.mp hrs
    obtain ⟨hs', hg⟩ := ih hrs ((keeps_locate _ _).ends hT hs hl).2
    exact ⟨hs', trans_of (Adds P) (adds_of_locate hT hS hs hr hl) hg⟩
  | @resolved r rs is t u t' s v s' path hl _ ih =>
    obtain ⟨hr, hrs⟩ := List.forall_mem_cons.mp hrs
    obtain ⟨hs', hg⟩ := ih hrs ((keeps_locate _ _).ends hT hs hl).2
    have hnote : Adds P u { u with context := noteImport rules r path u.context } := .of_eq rfl rfl
    exact ⟨hs', trans_of (Adds P) (trans_of (Adds P) (adds_of_locate hT hS hs hr hl) hnote) hg⟩

/-- The property goes over to what the imports of a file of the bundle name. -/
lemma Inherited.references (hP : Inherited T st rules nodes P) (ht : t.All P) {file : String}
    (hr : r ∈ referencesOf t.bundle file) (text : String)
    (ha : T.answer (.read (targetOf st rules r)) (.ok text)) : P (targetOf st rules r) text := by
  unfold referencesOf at hr
  cases hf : t.bundle.get? file with
  | none =>
    rw [hf, Option.getD_none, extract_empty] at hr
    exact nomatch hr
  | some content =>
    rw [hf] at hr
    exact hP.imported file content (ht _ (Table.get?_eq_some_iff.mp hf)) r hr text ha

theorem Scans.adds {files : List String} {is : List Followed} (hT : T.Meet (quiet S))
    (hS : ∀ s, S s → s.settings = st) (hP : Inherited T st rules nodes P)
    (h : Scans T rules files t s is t' s') (hs : S s) (ht : t.All P) : S s' ∧ Adds P t t' := by
  induction h with
  | done => exact ⟨hs, refl_of (Adds P) _⟩
  | @file f fs is js t u t' s v s' hf _ ih =>
    have hmark : Adds P t { t with context := t.context.markScanned f } := .of_eq rfl rfl
    obtain ⟨hv, hg⟩ := hf.adds hT hS (fun r hr => hP.references ht hr) hs
    have hu := trans_of (Adds P) hmark hg
    obtain ⟨hs', hg'⟩ := ih hv (hu.all ht)
    exact ⟨hs', trans_of (Adds P) hu hg'⟩

/-! ## Adding packages -/

lemma adds_of_addPackageFile {n : Node} {path content : String} {a : Unit} (hT : T.Meet (quiet S))
    (hS : ∀ s, S s → s.settings = st) (hs : S s) (hp : P (n.pathFor st path) content)
    (h : Run.Ends T (addPackageFile n path content) t s (.ok a) t' s') : Adds P t t' := by
  unfold addPackageFile at h
  split at h
  · obtain ⟨st', _, _, hst, h₁⟩ := Run.ends_bind_ok.mp h
    obtain ⟨rfl, rfl, rfl⟩ := settings_of_ends hst hS hs
    obtain ⟨_, _, _, hg, h₂⟩ := Run.ends_bind_ok.mp h₁
    obtain ⟨⟨⟩, rfl, rfl⟩ := Run.ends_get.mp hg
    split at h₂
    · obtain ⟨-, rfl, -⟩ := Run.ends_pure.mp h₂
      exact refl_of (Adds P) _
    · next hnew =>
      obtain ⟨_, u, v, hn, h₃⟩ := Run.ends_bind_ok.mp h₂
      obtain ⟨c, -, rfl⟩ := ((notes_notePackageFile _ _).ends hT hs hn).1
      obtain ⟨_, u, v, hm, h₄⟩ := Run.ends_bind_ok.mp h₃
      obtain ⟨-, rfl, -⟩ := Run.ends_modify.mp hm
      obtain ⟨-, rfl, -⟩ := Run.ends_modify.mp h₄
      exact trans_of (Adds P) (.of_eq rfl rfl) (.addFile (by exact hnew) hp)
  · obtain ⟨-, rfl, -⟩ := Run.ends_pure.mp h
    exact refl_of (Adds P) _

lemma adds_of_addPackage {n : Node} {a : PUnit} (hT : T.Meet (quiet S))
    (hS : ∀ s, S s → s.settings = st) (hs : S s) (hP : Inherited T st rules nodes P)
    (hn : n ∈ nodes) (h : Run.Ends T (addPackage n) t s (.ok a) t' s') : Adds P t t' := by
  have hfiles : ∀ e ∈ n.files.sorted, P (n.pathFor st e.1) e.2 := fun e hmem =>
    hP.fetched n hn e.1 e.2 (Table.get?_eq_some_iff.mpr (Table.mem_sorted.mp hmem))
  unfold addPackage at h
  generalize n.files.sorted = es at h hfiles
  induction es generalizing t s with
  | nil =>
    obtain ⟨-, rfl, -⟩ := Run.ends_pure.mp h
    exact refl_of (Adds P) _
  | cons e es ih =>
    obtain ⟨he, hes⟩ := List.forall_mem_cons.mp hfiles
    obtain ⟨_, u, v, hf, hrest⟩ := Run.ends_bind_ok.mp h
    have hv := ((keeps_addPackageFile n e.1 e.2).ends hT hs hf).2
    exact trans_of (Adds P) (adds_of_addPackageFile hT hS hs he hf) (ih hv hrest hes)

lemma adds_of_joinPackage {n : Node} {a : Unit} (hT : T.Meet (quiet S))
    (hS : ∀ s, S s → s.settings = st) (hs : S s) (hP : Inherited T st rules nodes P)
    (hn : n ∈ nodes) (h : Run.Ends T (joinPackage shelf n) t s (.ok a) t' s') : Adds P t t' := by
  obtain ⟨_, u, v, hm, h₁⟩ := Run.ends_bind_ok.mp h
  obtain ⟨-, rfl, rfl⟩ := Run.ends_modify.mp hm
  obtain ⟨_, u, v, hr, h₂⟩ := Run.ends_bind_ok.mp h₁
  have hu := (notes_recordParent n).ends hT hs hr
  obtain ⟨_, w, x, ha, h₃⟩ := Run.ends_bind_ok.mp h₂
  obtain ⟨-, rfl⟩ := Run.ends_lift.mp h₃
  have hfetched : Adds P t { t with fetched := t.fetched ++ [n.key] } := .of_eq rfl rfl
  exact trans_of (Adds P) (trans_of (Adds P) hfetched (.of_notes hu.1))
    (adds_of_addPackage hT hS hu.2 hP hn ha)

lemma adds_of_forM {ns : List Node} {a : PUnit} (hT : T.Meet (quiet S))
    (hS : ∀ s, S s → s.settings = st) (hs : S s) (hP : Inherited T st rules nodes P)
    (hns : ∀ n ∈ ns, n ∈ nodes) (h : Run.Ends T (ns.forM (joinPackage shelf)) t s (.ok a) t' s') :
    Adds P t t' := by
  induction ns generalizing t s with
  | nil =>
    obtain ⟨-, rfl, -⟩ := Run.ends_pure.mp h
    exact refl_of (Adds P) _
  | cons n ns ih =>
    obtain ⟨hn, hns⟩ := List.forall_mem_cons.mp hns
    obtain ⟨_, u, v, hj, hrest⟩ := Run.ends_bind_ok.mp h
    have hv := ((keeps_joinPackage shelf n).ends hT hs hj).2
    exact trans_of (Adds P) (adds_of_joinPackage hT hS hs hP hn hj) (ih hv hns hrest)

/-! ## Passes -/

/-- A pass adds the files that it leaves for the next level, and no others. -/
theorem Pass.adds {depth : Nat} {p : Passage} (hT : T.Meet (quiet S))
    (hS : ∀ s, S s → s.settings = st) (hP : Inherited T st rules nodes P)
    (h : Pass T shelf rules depth p t s t' s') (hn : ∀ n ∈ p.nodes, n ∈ nodes) (hs : S s)
    (ht : t.All P) : S s' ∧ Adds P { t with next := [], waiting := [] } t' := by
  obtain ⟨hcur, hscan, hfetch, hjoin, hcheck, hlog⟩ := h
  have hv := ((Work.lawful_contextIsCurrent _).ends hT hs hcur).2
  obtain ⟨hx, hg⟩ := hscan.adds hT hS hP hv ht
  have hy := (Routine.Obeys.ends (Cache.lawful_fetchAll _) hT hx hfetch).2
  have hz := ((Run.Keeps.forM (keeps_joinPackage shelf) _).ends hT hy hjoin).2
  exact ⟨((Work.lawful_log _).ends hT hz hlog).2,
    trans_of (Adds P) hg (adds_of_forM hT hS hy hP hn hjoin)⟩

/-- After some passes all files have the property that the first ones had. -/
theorem Passes.all {depth : Nat} {level left : List String} {ps : List Passage}
    (hT : T.Meet (quiet S)) (hS : ∀ s, S s → s.settings = st) (hP : Inherited T st rules nodes P)
    (h : Passes T shelf rules depth level t s ps left u v)
    (hn : ∀ n ∈ ps.flatMap Passage.nodes, n ∈ nodes) (hs : S s) (ht : t.All P) : u.All P := by
  induction h with
  | done => exact ht
  | @pass depth p ps left t w u s y v _ hpass _ ih =>
    obtain ⟨hp, hps⟩ := List.forall_mem_append.mp (List.flatMap_cons ▸ hn)
    obtain ⟨hy, hadds⟩ := hpass.adds hT hS hP hp hs ht
    exact ih hps hy (hadds.all ht)

end SourceBundle.Bundle
