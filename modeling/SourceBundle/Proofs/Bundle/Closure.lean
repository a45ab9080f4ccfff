/-
# A complete traversal is closed

At the beginning of every level the files of the bundle are those that have been scanned, followed
by those of the level.  A level keeps this up, and it settles all imports of its files: each of
them has found a file that is in the bundle when the level is complete, or was skipped with a
warning.  So when no level is left, every file of the bundle has been scanned, in one level, and
all imports are settled.
-/
import Mathlib.Data.List.Basic
import SourceBundle.Proofs.Bundle.Located

namespace SourceBundle.Bundle

open SourceBundle.Import SourceBundle.Text

/-- An import was skipped: what it is remapped to is no reference to a package, and a warning tells
of it. -/
structure Rejected (st : Settings) (rules : List Remapping) (log : WarningLog) (r : Reference) :
    Prop where
  unreadable : ∃ f, PackageReference.parse (packageLiteral st (remap rules r.path).1) = .error f
  warned : ∃ reason,
    .parseFailure ("import " ++ quoted r.path ++ " in " ++ r.file) reason ∈ log.given

/-- What has become of an import when a traversal is complete: the file that it resolved to is in
the bundle and noted in the graph, or the import was skipped. -/
def Settled (st : Settings) (rules : List Remapping) (bundle : Bundle) (c : Context) :
    Followed → Prop
  | (r, some path) => bundle.contains path = true ∧ path ∈ c.importsOf r.file
  | (r, none) => Rejected st rules c.warnings r

/-- The file of an import is in the bundle, or its package is waited for. -/
def Traversal.Finds (st : Settings) (t : Traversal) (path : String) : Prop :=
  t.bundle.contains path = true ∨ path ∈ t.waiting.map (·.path st)

/-- What has become of an import within a level. -/
def Pending (st : Settings) (rules : List Remapping) (t : Traversal) : Followed → Prop
  | (r, some path) => t.Finds st path ∧ path ∈ t.context.importsOf r.file
  | (r, none) => Rejected st rules t.context.warnings r

variable {T : Terms Service Question Question.Answer} {S : Service → Prop} {st : Settings}
  {rules : List Remapping} {shelf : Nat} {entry : String} {t t' : Traversal} {s s' : Service}

/-! ## What stays when a traversal grows -/

lemma Rejected.mono {l l' : WarningLog} {r : Reference} (h : Rejected st rules l r)
    (hl : l.Extends l') : Rejected st rules l' r := by
  obtain ⟨reason, hr⟩ := h.warned
  exact ⟨h.unreadable, reason, hl.subset hr⟩

lemma Traversal.Finds.mono {files : List String} {path : String} (h : t.Finds st path)
    (hg : t.GrowsBy files t') : t'.Finds st path := by
  rcases h with h | h
  · exact Or.inl (hg.contains h)
  · exact Or.inr ((hg.waiting.map _).subset h)

lemma Pending.mono {files : List String} {i : Followed} (h : Pending st rules t i)
    (hg : t.GrowsBy files t') : Pending st rules t' i := by
  obtain ⟨r, _ | path⟩ := i
  · exact Rejected.mono h hg.context.warnings
  · exact ⟨h.1.mono hg, hg.context.edges _ _ h.2⟩

lemma Settled.mono {files : List String} {b b' : Bundle} {c c' : Context} {i : Followed}
    (h : Settled st rules b c i) (hb : b.entries <+: b'.entries) (hc : c.GrowsBy files c') :
    Settled st rules b' c' i := by
  obtain ⟨r, _ | path⟩ := i
  · exact Rejected.mono h hc.warnings
  · obtain ⟨content, hp⟩ := Option.isSome_iff_exists.mp h.1
    exact ⟨Option.isSome_iff_exists.mpr ⟨content, Table.get?_of_prefix hb hp⟩,
      hc.edges _ _ h.2⟩

lemma referencesOf_of_isPrefix {b b' : Bundle} (h : b.entries <+: b'.entries) {f : String}
    (hf : f ∈ b.keys) : referencesOf b' f = referencesOf b f := by
  obtain ⟨content, hc⟩ := Table.get?_isSome_iff.mpr hf
  simp [referencesOf, hc, Table.get?_of_prefix h hc]

lemma importsOf_addEdge_self (c : Context) (file path : String) :
    path ∈ (c.addEdge file path).importsOf file :=
  Context.mem_importsOf_addEdge.mpr (Or.inr ⟨rfl, rfl⟩)

lemma mem_noteImport (rules : List Remapping) (r : Reference) (path : String) (c : Context) :
    path ∈ (noteImport rules r path c).importsOf r.file := by
  unfold noteImport
  dsimp only
  have h := (Context.grows_record _ r.file r.path path).edges _ _
    (importsOf_addEdge_self c r.file path)
  split
  · exact (Context.grows_record _ _ _ _).edges _ _ h
  · exact h

/-! ## Locating a file -/

/-- After a warning has been given in a traversal, the log of the run knows it. -/
lemma warned_of_collecting {source reason : String} {a : Unit} (hT : T.Meet (quiet S)) (hs : S s)
    (h : Run.Ends T (collecting (Resolve.warn (.parseFailure source reason))) t s (.ok a) t' s') :
    ∃ reason', .parseFailure source reason' ∈ t'.context.warnings.given := by
  obtain ⟨l, hl, rfl⟩ := Run.ends_zoom.mp h
  exact WarningLog.mem_of_knows ((Resolve.knows_warn _).ends hT hs hl).1.2

/-- An import that is located has found its file, or was skipped. -/
lemma found_of_locate {r : Reference} {path? : Option String} (hT : T.Meet (quiet S))
    (hS : ∀ s, S s → s.settings = st) (hs : S s)
    (h : Run.Ends T (locate r (remap rules r.path).1) t s (.ok path?) t' s') :
    path?.elim (Rejected st rules t'.context.warnings r) (t'.Finds st) := by
  obtain ⟨v, hv, hl⟩ := exists_locates hT hS hs h
  cases hl with
  | relative _ ha => exact Or.inl (contains_of_addLocal ha)
  | found _ ha => exact Or.inl (contains_of_addLocal ha)
  | skipped hp hw => exact ⟨⟨_, hp⟩, warned_of_collecting hT hv hw⟩
  | package _ hw =>
    obtain ⟨version, haw⟩ := awaits_of_awaitPackage hT hS hv hw
    refine Or.inr (List.mem_map.mpr ⟨waitingFor r _ version, ?_, haw.path.symm⟩)
    rw [haw.waiting]
    exact List.mem_append_right _ (List.mem_singleton_self _)

/-! ## What a level does -/

/-- To follow some imports lets the traversal grow, and each of them finds its file or is
skipped. -/
theorem Follows.pending {rs : List Reference} {is : List Followed} (hT : T.Meet (quiet S))
    (hS : ∀ s, S s → s.settings = st) (h : Follows T rules rs t s is t' s') (hs : S s) :
    t.Grows t' ∧ S s' ∧ is.map Prod.fst = rs ∧ ∀ i ∈ is, Pending st rules t' i := by
  induction h with
  | done => exact ⟨refl_of Traversal.Grows _, hs, rfl, by simp⟩
  | @skipped r rs is t u t' s v s' hl _ ih =>
    have hg := (keeps_locate _ _).ends hT hs hl
    obtain ⟨hg', hs', hm, hp⟩ := ih hg.2
    refine ⟨trans_of Traversal.Grows hg.1 hg', hs', by rw [List.map_cons, hm], ?_⟩
    rintro i (_ | ⟨_, hi⟩)
    · exact Pending.mono (i := (r, none)) (found_of_locate hT hS hs hl) hg'
    · exact hp i hi
  | @resolved r rs is t u t' s v s' path hl _ ih =>
    have hg := (keeps_locate _ _).ends hT hs hl
    obtain ⟨hg', hs', hm, hp⟩ := ih hg.2
    have hn : u.Grows { u with context := noteImport rules r path u.context } :=
      Traversal.Notes.grows ⟨_, grows_noteImport rules r path u.context, rfl⟩
    refine ⟨trans_of Traversal.Grows (trans_of Traversal.Grows hg.1 hn) hg', hs',
      by rw [List.map_cons, hm], ?_⟩
    rintro i (_ | ⟨_, hi⟩)
    · have hf : u.Finds st path := found_of_locate hT hS hs hl
      exact Pending.mono (i := (r, some path)) ⟨hf.mono hn, mem_noteImport rules r path _⟩ hg'
    · exact hp i hi

/-- To scan some new files of the bundle lets the traversal grow by them, and each of their imports
finds its file or is skipped. -/
theorem Scans.pending {files : List String} {is : List Followed} (hT : T.Meet (quiet S))
    (hS : ∀ s, S s → s.settings = st) (h : Scans T rules files t s is t' s') (hs : S s)
    (hb : ∀ f ∈ files, f ∈ t.bundle.keys) (hn : (t.context.scanned ++ files).Nodup) :
    t.GrowsBy files t' ∧ S s' ∧ is.map Prod.fst = files.flatMap (referencesOf t'.bundle) ∧
      ∀ i ∈ is, Pending st rules t' i := by
  induction h with
  | done => exact ⟨refl_of Traversal.Grows _, hs, rfl, by simp⟩
  | @file f fs is js t u t' s v s' hf _ ih =>
    have hnew : f ∉ t.context.scanned := fun h =>
      (List.nodup_append.mp hn).2.2 f h f List.mem_cons_self rfl
    have hmark : t.GrowsBy [f] { t with context := t.context.markScanned f } :=
      ⟨Context.growsBy_markScanned hnew, ⟨[], by simp, by simp⟩, List.prefix_refl _⟩
    obtain ⟨hg, hv, hm, hp⟩ := hf.pending hT hS hs
    have hu : t.GrowsBy [f] u := hmark.trans hg
    obtain ⟨hg', hs', hm', hp'⟩ := ih hv
      (fun g hgm => hu.mem_keys (hb g (List.mem_cons_of_mem f hgm)))
      (by rw [hu.context.scanned, List.append_assoc]; exact hn)
    have hall : t.GrowsBy (f :: fs) t' := hu.trans hg'
    refine ⟨hall, hs', ?_, ?_⟩
    · -- the content of the file is the same at the end, and so are its imports
      rw [List.map_append, hm, hm', List.flatMap_cons,
        referencesOf_of_isPrefix hall.entries (hb f List.mem_cons_self)]
    · intro i hi
      rcases List.mem_append.mp hi with hi | hi
      · exact (hp i hi).mono hg'
      · exact hp' i hi

/-- The check of a level passes only if all files that are waited for have come. -/
lemma contains_of_checkWaiting {ws : List Waiting} {a : Unit}
    (hS : ∀ s, S s → s.settings = st) (hs : S s)
    (h : Run.Ends T (checkWaiting ws) t s (.ok a) t' s') :
    t' = t ∧ s' = s ∧ ∀ w ∈ ws, t.bundle.contains (w.path st) = true := by
  induction ws with
  | nil =>
    obtain ⟨-, rfl, rfl⟩ := Run.ends_pure.mp h
    exact ⟨rfl, rfl, by simp⟩
  | cons w ws ih =>
    obtain ⟨st', _, _, hst, h₁⟩ := Run.ends_bind_ok.mp h
    obtain ⟨rfl, rfl, rfl⟩ := settings_of_ends hst hS hs
    obtain ⟨_, _, _, hg, h₂⟩ := Run.ends_bind_ok.mp h₁
    obtain ⟨⟨⟩, rfl, rfl⟩ := Run.ends_get.mp hg
    split at h₂
    · next hw =>
      obtain ⟨rfl, rfl, hws⟩ := ih h₂
      refine ⟨rfl, rfl, ?_⟩
      rintro w' (_ | ⟨_, hw'⟩)
      · exact hw
      · exact hws w' hw'
    · exact absurd h₂ Run.not_ends_throw

/-- A level is completed only when all files that its imports wait for are in the bundle. -/
theorem complete_of_completeLevel {depth scanned : Nat} {next : List String}
    (hT : T.Meet (quiet S)) (hS : ∀ s, S s → s.settings = st) (hs : S s)
    (h : Run.Ends T (completeLevel shelf depth scanned) t s (.ok next) t' s') :
    next = t'.next ∧ ∀ w ∈ t.waiting, t'.bundle.contains (w.path st) = true := by
  obtain ⟨_, _, _, hg, h₁⟩ := Run.ends_bind_ok.mp h
  obtain ⟨⟨⟩, rfl, rfl⟩ := Run.ends_get.mp hg
  obtain ⟨nodes, u, v, hf, h₂⟩ := Run.ends_bind_ok.mp h₁
  have hv := (Stateful.keeps_task (I := Traversal.Grows) (Cache.lawful_fetchAll _)).ends hT hs hf
  obtain ⟨_, w, x, hj, h₃⟩ := Run.ends_bind_ok.mp h₂
  have hx := (Run.Keeps.forM (keeps_joinPackage shelf) nodes).ends hT hv.2 hj
  obtain ⟨_, _, _, hc, h₄⟩ := Run.ends_bind_ok.mp h₃
  obtain ⟨rfl, rfl, hw⟩ := contains_of_checkWaiting hS hx.2 hc
  obtain ⟨_, _, _, hl, h₅⟩ := Run.ends_bind_ok.mp h₄
  obtain ⟨_, -, -, rfl⟩ := Stateful.ends_work.mp hl
  obtain ⟨_, _, _, hg', h₆⟩ := Run.ends_bind_ok.mp h₅
  obtain ⟨⟨⟩, rfl, rfl⟩ := Run.ends_get.mp hg'
  obtain ⟨⟨⟩, rfl, rfl⟩ := Run.ends_pure.mp h₆
  exact ⟨rfl, hw⟩

/-! ## The invariant of the levels -/

/-- The files of the bundle are those that have been scanned, followed by those of the level. -/
def Ready (t : Traversal) (level : List String) : Prop :=
  t.bundle.keys = t.context.scanned ++ level

/-- The imports of a level are all imports of its files, and they are settled. -/
structure Level.Closed (st : Settings) (rules : List Remapping) (bundle : Bundle) (c : Context)
    (l : Level) : Prop where
  imports : l.imports.map Prod.fst = l.files.flatMap (referencesOf bundle)
  settled : ∀ i ∈ l.imports, Settled st rules bundle c i
  files : ∀ f ∈ l.files, f ∈ bundle.keys

lemma Level.Closed.mono {files : List String} {b b' : Bundle} {c c' : Context} {l : Level}
    (h : l.Closed st rules b c) (hb : b.entries <+: b'.entries) (hc : c.GrowsBy files c') :
    l.Closed st rules b' c' where
  imports := by
    rw [h.imports]
    exact List.flatMap_congr fun f hf => (referencesOf_of_isPrefix hb (h.files f hf)).symm
  settled i hi := (h.settled i hi).mono hb hc
  files f hf := by
    obtain ⟨content, hv⟩ := Table.get?_isSome_iff.mpr (h.files f hf)
    exact Table.get?_isSome_iff.mp ⟨content, Table.get?_of_prefix hb hv⟩

/-- A level closes over its files, and makes the next level ready. -/
theorem closed_of_level {depth : Nat} {files next : List String} {is : List Followed}
    {u w : Traversal} {x y : Service} (hT : T.Meet (quiet S)) (hS : ∀ s, S s → s.settings = st)
    (hs : S s) (hr : Ready t files)
    (hscan : Scans T rules files { t with next := [], waiting := [] } s is u x)
    (hcomp : Run.Ends T (completeLevel shelf depth files.length) u x (.ok next) w y) :
    S y ∧ t.context.GrowsBy files w.context ∧ t.bundle.entries <+: w.bundle.entries ∧
      Ready w next ∧ Level.Closed st rules w.bundle w.context ⟨files, is⟩ := by
  have hnodup : (t.context.scanned ++ files).Nodup := hr ▸ t.bundle.distinct
  have hfiles : ∀ f ∈ files, f ∈ t.bundle.keys := fun f hf => by
    rw [hr]
    exact List.mem_append_right _ hf
  obtain ⟨hg, hx, hm, hp⟩ := hscan.pending hT hS hs hfiles hnodup
  obtain ⟨hg', hy⟩ := (keeps_completeLevel _ _ _).ends hT hx hcomp
  obtain ⟨rfl, hw⟩ := complete_of_completeLevel hT hS hx hcomp
  have hall := hg.trans hg'
  rw [List.append_nil] at hall
  refine ⟨hy, hall.context, hall.entries, ?_, ?_⟩
  · -- the level began without next files, so these are the files that were added in it
    obtain ⟨more, hb, hn⟩ := hall.files
    rw [List.nil_append] at hn
    rw [Ready, Table.keys, hb, List.map_append, hn, hall.context.scanned, ← hr]
    rfl
  · refine ⟨?_, ?_, ?_⟩
    · rw [hm]
      exact List.flatMap_congr fun f hf =>
        (referencesOf_of_isPrefix hg'.entries (hg.mem_keys (hfiles f hf))).symm
    · rintro ⟨r, _ | path⟩ hi
      · exact Rejected.mono (hp _ hi) hg'.context.warnings
      · have hpath := hp _ hi
        refine ⟨?_, hg'.context.edges _ _ hpath.2⟩
        -- a file that is only waited for is in the bundle because the level was completed
        rcases hpath.1 with hc | hc
        · exact hg'.contains hc
        · obtain ⟨item, hitem, rfl⟩ := List.mem_map.mp hc
          exact hw item hitem
    · exact fun f hf => hall.mem_keys (hfiles f hf)

/-- What a course does: all its levels are closed over, and they make up what is scanned; if it is
complete, nothing is left to scan. -/
theorem Course.closed {depth : Nat} {level : List String} {ls : List Level} {b : Bool}
    (hT : T.Meet (quiet S)) (hS : ∀ s, S s → s.settings = st)
    (h : Course T shelf rules entry depth level t s ls b t' s') (hs : S s) (hr : Ready t level) :
    S s' ∧ t.context.GrowsBy (ls.flatMap Level.files) t'.context ∧
      t.bundle.entries <+: t'.bundle.entries ∧ (b = true → Ready t' []) ∧
      ∀ l ∈ ls, l.Closed st rules t'.bundle t'.context := by
  induction h with
  | complete => exact ⟨hs, refl_of Context.Grows _, List.prefix_refl _, fun _ => hr, by simp⟩
  | stopped hc hl =>
    have hv := ((Work.lawful_contextIsCurrent _).ends hT hs hc).2
    have hs' := ((Work.lawful_log _).ends hT hv hl).2
    exact ⟨hs', refl_of Context.Grows _, List.prefix_refl _, by simp, by simp⟩
  | level hc hscan hcomp _ ih =>
    have hv := ((Work.lawful_contextIsCurrent _).ends hT hs hc).2
    obtain ⟨hy, hg, hb, hr', hl⟩ := closed_of_level hT hS hv hr hscan hcomp
    obtain ⟨hs', hg', hb', hr'', hls⟩ := ih hy hr'
    refine ⟨hs', ?_, hb.trans hb', hr'', ?_⟩
    · rw [List.flatMap_cons]
      exact hg.trans hg'
    · rintro l (_ | ⟨_, hmem⟩)
      · exact hl.mono hb' hg'
      · exact hls l hmem

end SourceBundle.Bundle
