/-
# Files that packages bring

When the files of a fetched package are added to the bundle, the run notes for each of them the package that
it belongs to, and the version of the package from which a file of this name came first; if that was another
one, a warning is given.  Nothing else that a traversal does touches these notes or gives such a warning.  So
what holds of them and of the bundle when a traversal begins holds after all its passes, if it still holds
when other things have been done, and when a file of a fetched package has been added.
-/
import SourceBundle.Proofs.Bundle.Canonical

namespace SourceBundle

open SourceBundle.Import

/-! ## Warnings of other kinds -/

namespace WarningLog

variable {l l' : WarningLog}

/-- The warnings of files that are bundled from two versions of their package. -/
def duplicates (l : WarningLog) : List Warning := l.given.filter Warning.isDuplicate

/-- No two warnings have one key. -/
def Distinct (l : WarningLog) : Prop := (l.given.map Warning.key).Nodup

/-- No warning is added but of other kinds, and none with a key that is there. -/
structure SameDuplicates (l l' : WarningLog) : Prop where
  duplicates : l'.duplicates = l.duplicates
  distinct : l.Distinct → l'.Distinct

lemma add_of_knows {w : Warning} (h : l.knows w = true) : l.add w = l := if_pos h

lemma given_add_of_not_knows {w : Warning} (h : l.knows w = false) : (l.add w).given = l.given ++ [w] := by
  rw [add, h]
  rfl

lemma mem_add {g w : Warning} (h : g ∈ (l.add w).given) : g ∈ l.given ∨ g = w := by
  cases hknown : l.knows w with
  | true => exact .inl (add_of_knows hknown ▸ h)
  | false => simpa [given_add_of_not_knows hknown] using h

lemma knows_iff {w : Warning} : l.knows w = true ↔ ∃ g ∈ l.given, g.key = w.key := by
  simp [knows]

lemma Distinct.add (h : l.Distinct) (w : Warning) : (l.add w).Distinct := by
  cases hknown : l.knows w with
  | true => rwa [add_of_knows hknown]
  | false =>
    have hnew : ∀ g ∈ l.given, g.key ≠ w.key := by
      intro g hg hkey
      exact absurd (knows_iff.mpr ⟨g, hg, hkey⟩) (by simp [hknown])
    rw [Distinct, given_add_of_not_knows hknown, List.map_append]
    refine h.append (List.nodup_singleton _) ?_
    simpa [List.disjoint_left] using hnew

instance : IsPreorder WarningLog SameDuplicates where
  refl _ := ⟨rfl, id⟩
  trans _ _ _ h h' := ⟨h'.duplicates.trans h.duplicates, h'.distinct ∘ h.distinct⟩

instance : Admits SameDuplicates where
  add l w hw := by
    refine ⟨?_, fun h => h.add w⟩
    cases hknown : l.knows w with
    | true => rw [add_of_knows hknown]
    | false => rw [duplicates, given_add_of_not_knows hknown, List.filter_append]; simp [duplicates, hw]

lemma mem_duplicates {package path previous requested : String} :
    .duplicateFile package path previous requested ∈ l.duplicates ↔
      .duplicateFile package path previous requested ∈ l.given := by
  simp [duplicates, Warning.isDuplicate]

end WarningLog

/-- The warnings of the second resolver are those of the first, and others of other kinds. -/
def Resolver.SameDuplicates (r r' : Resolver) : Prop := r.warnings.SameDuplicates r'.warnings

instance : IsPreorder Resolver Resolver.SameDuplicates where
  refl r := refl_of WarningLog.SameDuplicates r.warnings
  trans _ _ _ h h' := trans_of WarningLog.SameDuplicates h h'

instance : Resolver.Admits Resolver.SameDuplicates where
  warnings _ w hw := WarningLog.Admits.add _ w hw
  published r _ := refl_of WarningLog.SameDuplicates r.warnings
  pins r _ := refl_of WarningLog.SameDuplicates r.warnings

/-- An import can name the package: its name is that of a reference which is read from a literal. -/
def PackageKey.Imported (key : PackageKey) : Prop :=
  ∃ literal r, PackageReference.parse literal = .ok r ∧ r.fullName = key.name

/-! ## What does not add package files -/

/-- The notes on the files of packages are the same, and so are the warnings of files that are bundled
twice. -/
structure Context.SamePackages (c c' : Context) : Prop where
  bundled : c'.bundled = c.bundled
  filePackages : c'.filePackages = c.filePackages
  warnings : c.warnings.SameDuplicates c'.warnings

instance : IsPreorder Context Context.SamePackages where
  refl c := ⟨rfl, rfl, refl_of WarningLog.SameDuplicates c.warnings⟩
  trans _ _ _ h h' := ⟨h'.1.trans h.1, h'.2.trans h.2, trans_of WarningLog.SameDuplicates h.3 h'.3⟩

/-- The notes of a run after a file of a package has been added at a place. -/
def Context.withPackageFile (c : Context) (key : PackageKey) (path place : String) : Context :=
  let previous := (c.bundled.get? (key.name, path)).getD key.version
  { c with
    bundled := c.bundled.insertNew (key.name, path) key.version
    warnings :=
      if previous = key.version then c.warnings
      else c.warnings.add (.duplicateFile key.name path previous key.version)
    filePackages := c.filePackages.insert place key }

namespace Bundle

open SourceBundle.Text

/-- The notes on the files of packages are the same in two traversals. -/
def Traversal.SamePackages (t t' : Traversal) : Prop := t.context.SamePackages t'.context

instance : IsPreorder Traversal Traversal.SamePackages where
  refl t := refl_of Context.SamePackages t.context
  trans _ _ _ h h' := trans_of Context.SamePackages h h'

/-- The notes on the files of packages are the same, and files may have joined the bundle. -/
structure Traversal.KeepsPackages (t t' : Traversal) : Prop where
  context : t.context.SamePackages t'.context
  entries : t.bundle.entries <+: t'.bundle.entries

instance : IsPreorder Traversal Traversal.KeepsPackages where
  refl t := ⟨refl_of Context.SamePackages t.context, List.prefix_refl _⟩
  trans _ _ _ h h' := ⟨trans_of Context.SamePackages h.1 h'.1, h.2.trans h'.2⟩

section Parts

open Traversal (SamePackages)

variable {α : Type} {busy : Bool} {D : String → Prop} {S : Service → Prop}

lemma samePackages_collecting {x : Resolve.Warned α}
    (hx : Run.Plain (plainly busy D) WarningLog.SameDuplicates x) :
    Run.Plain (plainly busy D) SamePackages (collecting x) :=
  hx.zoom fun _ _ h => ⟨rfl, rfl, h⟩

lemma samePackages_warn {w : Warning} (hw : w.isDuplicate = false) :
    Run.Plain (plainly busy D) SamePackages (collecting (Resolve.warn w)) :=
  samePackages_collecting (Resolve.admits_warn hw)

lemma samePackages_addLocal (path : String) (ref : Reference) :
    Run.Plain (plainly busy D) SamePackages (addLocal path ref) :=
  plain_addLocal (fun t _ _ _ => refl_of Context.SamePackages t.context) path ref

lemma samePackages_awaitPackage (ref : Reference) (package : PackageReference) :
    Run.Plain (plainly busy D) SamePackages (awaitPackage ref package) := by
  unfold awaitPackage
  split
  · exact Run.Plain.throw _
  · refine Run.Plain.get.bind fun t => ?_
    have hchoose : ∀ parent?, Run.Plain (plainly busy D) SamePackages
        (choosing (Resolve.resolve package parent?)) := by
      intro parent?
      have hresolve : Run.Plain (plainly busy D) Resolver.SameDuplicates
          (Resolve.resolve package parent?) :=
        Resolve.admits_resolve (fun r _ => refl_of WarningLog.SameDuplicates r.warnings) package parent?
      exact hresolve.zoom fun _ _ h => ⟨rfl, rfl, h⟩
    refine (hchoose _).bind fun resolved => ?_
    refine Run.Plain.bind (Run.Plain.modify fun t => refl_of Context.SamePackages t.context) fun _ => ?_
    exact keeps_settings.bind fun _ => Run.Plain.pure _

lemma samePackages_locate (ref : Reference) (literal : String) :
    Run.Plain (plainly busy D) SamePackages (locate ref literal) :=
  plain_locate (fun path => samePackages_addLocal path ref) (fun _ _ => samePackages_warn rfl)
    (samePackages_awaitPackage ref) literal

lemma samePackages_record (c : Context) (file literal path : String) :
    c.SamePackages (c.record file literal path) := by
  unfold Context.record
  split
  · exact refl_of Context.SamePackages c
  · exact ⟨rfl, rfl, refl_of WarningLog.SameDuplicates c.warnings⟩

lemma samePackages_noteImport (rules : List Remapping) (r : Reference) (path : String) (c : Context) :
    c.SamePackages (noteImport rules r path c) := by
  have hedge : c.SamePackages (c.addEdge r.file path) :=
    ⟨rfl, rfl, refl_of WarningLog.SameDuplicates c.warnings⟩
  have hrecord := trans_of Context.SamePackages hedge (samePackages_record _ r.file r.path path)
  unfold noteImport
  dsimp only
  split
  · exact trans_of Context.SamePackages hrecord (samePackages_record _ _ _ _)
  · exact hrecord

lemma samePackages_recordParent (node : Node) :
    Run.Plain (plainly busy D) SamePackages (recordParent node) := by
  unfold recordParent
  split
  · exact Run.Plain.pure _
  · refine (Stateful.plain_task (Resolve.plain_readManifest _)).bind fun r => ?_
    split
    · exact keeps_settings.bind fun s => samePackages_warn rfl
    · dsimp only
      split
      · exact Run.Plain.pure _
      · exact Run.Plain.modify fun t => ⟨rfl, rfl, refl_of WarningLog.SameDuplicates t.context.warnings⟩

lemma samePackages_prepare (b : Builder) (entry content : String) :
    Run.Keeps (quiet S) SamePackages (prepare b entry content) :=
  keeps_prepare (samePackages_collecting (Resolve.keeps_loadRemappings _ _))
    (fun _ _ => samePackages_collecting (Resolve.keeps_ofWorkspace _ _))
    (fun t _ _ _ => refl_of Context.SamePackages t.context) b entry content

end Parts

/-! ## Adding a package file -/

/-- A traversal after a file of a package has been added. -/
def Traversal.withPackageFile (t : Traversal) (st : Settings) (n : Node) (path content : String) :
    Traversal :=
  Traversal.addFile
    { t with context := t.context.withPackageFile n.key path (n.pathFor st path) }
    (n.pathFor st path) content

/-- A property of traversals is upheld when the files of some packages are added: it stays when other things
are done, and when a source file of one of the packages is added at a new place. -/
structure Upheld (st : Settings) (nodes : List Node) (I : Traversal → Prop) : Prop where
  keeps : ∀ t t' : Traversal, t.KeepsPackages t' → I t → I t'
  adds : ∀ (t : Traversal) n path content, n ∈ nodes → n.files.get? path = some content →
    endsWith sourceEnding path.toList = true → t.bundle.contains (n.pathFor st path) = false →
    I t → I (t.withPackageFile st n path content)

variable {T : Terms Service Question Question.Answer} {S : Service → Prop} {st : Settings}
  {rules : List Remapping} {shelf : Nat} {t t' u : Traversal} {s s' v : Service} {n : Node}
  {nodes : List Node} {I : Traversal → Prop}

/-- What is noted of a file of a package before it is added. -/
lemma eq_of_notePackageFile {key : PackageKey} {path : String} {a : Unit}
    (h : Run.Ends T (notePackageFile key path) t s (.ok a) t' s') (place : String) :
    t.context.withPackageFile key path place =
      { t'.context with filePackages := t'.context.filePackages.insert place key } ∧
    t' = { t with context := t'.context } := by
  obtain ⟨_, _, _, hg, h₁⟩ := Run.ends_bind_ok.mp h
  obtain ⟨⟨⟩, rfl, rfl⟩ := Run.ends_get.mp hg
  obtain ⟨_, _, _, hm, h₂⟩ := Run.ends_bind_ok.mp h₁
  obtain ⟨-, rfl, rfl⟩ := Run.ends_modify.mp hm
  dsimp only [Context.withPackageFile]
  split at h₂
  · next hother =>
    obtain ⟨l, hl, rfl⟩ := Run.ends_zoom.mp h₂
    have hadded := ((Resolve.adds_warn _).ends (meet_quiet T) trivial hl).1
    rw [if_neg (by simpa using hother), hadded]
    exact ⟨rfl, rfl⟩
  · next hsame =>
    obtain ⟨-, rfl, -⟩ := Run.ends_pure.mp h₂
    rw [if_pos (by simpa using hsame)]
    exact ⟨rfl, rfl⟩

/-- A file of a package is added if it is a source file and there is none at its place. -/
lemma eq_of_addPackageFile {path content : String} {a : Unit} (hS : ∀ s, S s → s.settings = st)
    (hs : S s) (h : Run.Ends T (addPackageFile n path content) t s (.ok a) t' s') :
    t' = t ∨ endsWith sourceEnding path.toList = true ∧ t.bundle.contains (n.pathFor st path) = false ∧
      t' = t.withPackageFile st n path content := by
  unfold addPackageFile at h
  split at h
  · next hsource =>
    obtain ⟨st', _, _, hst, h₁⟩ := Run.ends_bind_ok.mp h
    obtain ⟨rfl, rfl, rfl⟩ := settings_of_ends hst hS hs
    obtain ⟨_, _, _, hg, h₂⟩ := Run.ends_bind_ok.mp h₁
    obtain ⟨⟨⟩, rfl, rfl⟩ := Run.ends_get.mp hg
    split at h₂
    · obtain ⟨-, rfl, -⟩ := Run.ends_pure.mp h₂
      exact .inl rfl
    · next hnew =>
      obtain ⟨_, u, v, hn, h₃⟩ := Run.ends_bind_ok.mp h₂
      obtain ⟨hcontext, hu⟩ := eq_of_notePackageFile hn (n.pathFor st' path)
      obtain ⟨_, _, _, hm, h₄⟩ := Run.ends_bind_ok.mp h₃
      obtain ⟨-, rfl, rfl⟩ := Run.ends_modify.mp hm
      obtain ⟨-, rfl, -⟩ := Run.ends_modify.mp h₄
      refine .inr ⟨hsource, by simpa using hnew, ?_⟩
      rw [Traversal.withPackageFile, hcontext, hu]
  · obtain ⟨-, rfl, -⟩ := Run.ends_pure.mp h
    exact .inl rfl

/-! ## What passes uphold -/

theorem Follows.keepsPackages {rs : List Reference} {is : List Followed}
    (h : Follows T rules rs t s is t' s') : t.KeepsPackages t' := by
  have hlocate : ∀ {r : Reference} {path? : Option String} {t u : Traversal} {s v : Service},
      Run.Ends T (locate r (remap rules r.path).1) t s (.ok path?) u v → t.KeepsPackages u := by
    intro r path? t u s v hl
    exact ⟨((samePackages_locate _ _).ends (meet_quiet T) trivial hl).1,
      ((keeps_locate _ _).ends (meet_quiet T) trivial hl).1.entries⟩
  induction h with
  | done => exact refl_of Traversal.KeepsPackages _
  | skipped hl _ ih => exact trans_of Traversal.KeepsPackages (hlocate hl) ih
  | @resolved r rs is t u t' s v s' path hl _ ih =>
    have hnote : u.KeepsPackages { u with context := noteImport rules r path u.context } :=
      ⟨samePackages_noteImport rules r path u.context, List.prefix_refl _⟩
    exact trans_of Traversal.KeepsPackages (trans_of Traversal.KeepsPackages (hlocate hl) hnote) ih

theorem Scans.keepsPackages {files : List String} {is : List Followed}
    (h : Scans T rules files t s is t' s') : t.KeepsPackages t' := by
  induction h with
  | done => exact refl_of Traversal.KeepsPackages _
  | @file f fs is js t u t' s v s' hf _ ih =>
    have hmark : t.KeepsPackages { t with context := t.context.markScanned f } :=
      ⟨⟨rfl, rfl, refl_of WarningLog.SameDuplicates t.context.warnings⟩, List.prefix_refl _⟩
    exact trans_of Traversal.KeepsPackages (trans_of Traversal.KeepsPackages hmark hf.keepsPackages) ih

namespace Upheld

lemma addPackage {a : PUnit} (hI : Upheld st nodes I) (hn : n ∈ nodes)
    (hS : ∀ s, S s → s.settings = st) (hT : T.Meet (quiet S)) (hs : S s)
    (h : Run.Ends T (addPackage n) t s (.ok a) t' s') (ht : I t) : I t' := by
  have hfiles : ∀ e ∈ n.files.sorted, n.files.get? e.1 = some e.2 := fun e hmem =>
    Table.get?_eq_some_iff.mpr (Table.mem_sorted.mp hmem)
  unfold Bundle.addPackage at h
  generalize n.files.sorted = es at h hfiles
  induction es generalizing t s with
  | nil =>
    obtain ⟨-, rfl, -⟩ := Run.ends_pure.mp h
    exact ht
  | cons e es ih =>
    obtain ⟨he, hes⟩ := List.forall_mem_cons.mp hfiles
    obtain ⟨_, u, v, hf, hrest⟩ := Run.ends_bind_ok.mp h
    have hv := ((keeps_addPackageFile n e.1 e.2).ends hT hs hf).2
    refine ih hv ?_ hrest hes
    rcases eq_of_addPackageFile hS hs hf with rfl | ⟨hsource, hnew, rfl⟩
    · exact ht
    · exact hI.adds t n e.1 e.2 hn he hsource hnew ht

lemma joinPackage {a : Unit} (hI : Upheld st nodes I) (hn : n ∈ nodes)
    (hS : ∀ s, S s → s.settings = st) (hT : T.Meet (quiet S)) (hs : S s)
    (h : Run.Ends T (joinPackage shelf n) t s (.ok a) t' s') (ht : I t) : I t' := by
  obtain ⟨_, _, _, hm, h₁⟩ := Run.ends_bind_ok.mp h
  obtain ⟨-, rfl, rfl⟩ := Run.ends_modify.mp hm
  obtain ⟨_, u, v, hr, h₂⟩ := Run.ends_bind_ok.mp h₁
  obtain ⟨hnotes, hv⟩ := (notes_recordParent n).ends hT hs hr
  have hpackages := ((samePackages_recordParent n).ends hT hs hr).1
  obtain ⟨_, w, x, ha, h₃⟩ := Run.ends_bind_ok.mp h₂
  obtain ⟨-, rfl⟩ := Run.ends_lift.mp h₃
  have hkeeps : t.KeepsPackages u := ⟨hpackages, hnotes.grows.entries⟩
  exact hI.addPackage hn hS hT hv ha (hI.keeps t u hkeeps ht)

lemma forM {ns : List Node} {a : PUnit} (hI : Upheld st nodes I) (hns : ∀ n ∈ ns, n ∈ nodes)
    (hS : ∀ s, S s → s.settings = st) (hT : T.Meet (quiet S)) (hs : S s)
    (h : Run.Ends T (ns.forM (Bundle.joinPackage shelf)) t s (.ok a) t' s') (ht : I t) : I t' := by
  induction ns generalizing t s with
  | nil =>
    obtain ⟨-, rfl, -⟩ := Run.ends_pure.mp h
    exact ht
  | cons n ns ih =>
    obtain ⟨hn, hns⟩ := List.forall_mem_cons.mp hns
    obtain ⟨_, u, v, hj, hrest⟩ := Run.ends_bind_ok.mp h
    have hv := ((keeps_joinPackage shelf n).ends hT hs hj).2
    exact ih hns hv hrest (hI.joinPackage hn hS hT hs hj ht)

end Upheld

/-- A pass upholds what is upheld when the files of its packages are added. -/
theorem Pass.upholds {depth : Nat} {p : Passage} (hT : T.Meet (quiet S))
    (hS : ∀ s, S s → s.settings = st) (hI : Upheld st nodes I)
    (h : Pass T shelf rules depth p t s t' s') (hn : ∀ n ∈ p.nodes, n ∈ nodes) (hs : S s)
    (ht : I t) : S s' ∧ I t' := by
  obtain ⟨hcur, hscan, hfetch, hjoin, hcheck, hlog⟩ := h
  have hv := ((Work.lawful_contextIsCurrent _).ends hT hs hcur).2
  have hx := (hscan.chooses hT hS hv).1
  have hy := (Routine.Obeys.ends (Cache.lawful_fetchAll _) hT hx hfetch).2
  have hz := ((Run.Keeps.forM (keeps_joinPackage shelf) _).ends hT hy hjoin).2
  have hbegun : t.KeepsPackages { t with next := [], waiting := [] } :=
    ⟨refl_of Context.SamePackages t.context, List.prefix_refl _⟩
  have hscanned := hI.keeps _ _ (trans_of Traversal.KeepsPackages hbegun hscan.keepsPackages) ht
  exact ⟨((Work.lawful_log _).ends hT hz hlog).2, hI.forM hn hS hT hy hjoin hscanned⟩

/-- However many passes are made, they uphold what is upheld when the files of their packages are added. -/
theorem Passes.upholds {depth : Nat} {level left : List String} {ps : List Passage}
    (hT : T.Meet (quiet S)) (hS : ∀ s, S s → s.settings = st) (hI : Upheld st nodes I)
    (h : Passes T shelf rules depth level t s ps left u v)
    (hn : ∀ n ∈ ps.flatMap Passage.nodes, n ∈ nodes) (hs : S s) (ht : I t) : I u := by
  induction h with
  | done => exact ht
  | @pass depth p ps left t w u s y v _ hpass _ ih =>
    obtain ⟨hp, hps⟩ := List.forall_mem_append.mp (List.flatMap_cons ▸ hn)
    obtain ⟨hy, hw⟩ := hpass.upholds hT hS hI hp hs ht
    exact ih hps hy hw

/-! ## The packages of a traversal -/

/-- Imports can name all packages that are waited for. -/
def Traversal.AwaitsImported (t : Traversal) : Prop := ∀ w ∈ t.waiting, w.key.Imported

lemma imported_of_locate {r : Reference} {path? : Option String} (hT : T.Meet (quiet S))
    (hS : ∀ s, S s → s.settings = st) (hs : S s)
    (h : Run.Ends T (locate r (remap rules r.path).1) t s (.ok path?) t' s')
    (ht : t.AwaitsImported) : t'.AwaitsImported := by
  obtain ⟨v, hv, hl⟩ := exists_locates hT hS hs h
  cases hl with
  | relative _ ha =>
    have hsame := ((admits_addLocal (I := Traversal.SameChoices) _ r).ends hT hv ha).1.waiting
    rwa [Traversal.AwaitsImported, hsame]
  | found _ ha =>
    have hsame := ((admits_addLocal (I := Traversal.SameChoices) _ r).ends hT hv ha).1.waiting
    rwa [Traversal.AwaitsImported, hsame]
  | skipped _ hw =>
    obtain ⟨l, -, rfl⟩ := Run.ends_zoom.mp hw
    exact ht
  | package hp hw =>
    obtain ⟨version, haw⟩ := awaits_of_awaitPackage hT hS hv hw
    rw [Traversal.AwaitsImported, haw.waiting]
    exact List.forall_mem_append.mpr ⟨ht, List.forall_mem_singleton.mpr ⟨_, _, hp, rfl⟩⟩

theorem Follows.imported {rs : List Reference} {is : List Followed} (hT : T.Meet (quiet S))
    (hS : ∀ s, S s → s.settings = st) (h : Follows T rules rs t s is t' s') (hs : S s)
    (ht : t.AwaitsImported) : t'.AwaitsImported := by
  induction h with
  | done => exact ht
  | skipped hl _ ih =>
    exact ih ((keeps_locate _ _).ends hT hs hl).2 (imported_of_locate hT hS hs hl ht)
  | resolved hl _ ih =>
    have hlocated := imported_of_locate hT hS hs hl ht
    exact ih ((keeps_locate _ _).ends hT hs hl).2 hlocated

theorem Scans.imported {files : List String} {is : List Followed} (hT : T.Meet (quiet S))
    (hS : ∀ s, S s → s.settings = st) (h : Scans T rules files t s is t' s') (hs : S s)
    (ht : t.AwaitsImported) : t'.AwaitsImported := by
  induction h with
  | done => exact ht
  | file hf _ ih => exact ih (hf.chooses hT hS hs).1 (hf.imported hT hS hs ht)

/-- Imports can name the packages that come in a pass. -/
theorem Pass.imported {depth : Nat} {p : Passage} (hT : T.Meet (quiet S))
    (hS : ∀ s, S s → s.settings = st) (hd : ∀ s, S s → ∀ d r, (d, r) ∈ s.delivered → Cache.Keyed d.1 r)
    (h : Pass T shelf rules depth p t s t' s') (hs : S s) : ∀ n ∈ p.nodes, n.key.Imported := by
  obtain ⟨hcur, hscan, hfetch, -⟩ := h
  have hv := ((Work.lawful_contextIsCurrent _).ends hT hs hcur).2
  have hx := (hscan.chooses hT hS hv).1
  have hwaiting : p.scanned.AwaitsImported := hscan.imported hT hS hv nofun
  have hkeys : p.nodes.map Node.key = p.requested :=
    Cache.keys_of_keyed (Cache.good_of_fetchAll hT hd hx hfetch)
  intro n hn
  have hrequested : n.key ∈ p.requested := hkeys ▸ List.mem_map_of_mem hn
  obtain ⟨w, hw, hkey⟩ := List.mem_map.mp (mem_newKeys.mp hrequested).1
  exact hkey ▸ hwaiting w hw

theorem Passes.imported {depth : Nat} {level left : List String} {ps : List Passage}
    (hT : T.Meet (quiet S)) (hS : ∀ s, S s → s.settings = st)
    (hd : ∀ s, S s → ∀ d r, (d, r) ∈ s.delivered → Cache.Keyed d.1 r)
    (h : Passes T shelf rules depth level t s ps left u v) (hs : S s) :
    ∀ n ∈ ps.flatMap Passage.nodes, n.key.Imported := by
  induction h with
  | done => exact nofun
  | pass _ hpass _ ih =>
    rw [List.flatMap_cons]
    exact List.forall_mem_append.mpr
      ⟨hpass.imported hT hS hd hs, ih (hpass.canonical hT hS hd hs).1⟩

/-! ## The files of the packages -/

/-- A file of the bundle has been brought by one of some packages: it is a source file of the package, at its
place. -/
def Brought (st : Settings) (nodes : List Node) (bundle : Bundle) (file : String) (key : PackageKey) :
    Prop :=
  ∃ n ∈ nodes, n.key = key ∧ ∃ path content, n.files.get? path = some content ∧
    endsWith sourceEnding path.toList = true ∧ file = n.pathFor st path ∧ bundle.get? file = some content

/-- The files that are noted as files of packages have been brought by them. -/
def Traversal.Attributes (st : Settings) (nodes : List Node) (t : Traversal) : Prop :=
  ∀ file key, t.context.filePackages.get? file = some key → Brought st nodes t.bundle file key

lemma Brought.mono {b b' : Bundle} {file : String} {key : PackageKey} (h : Brought st nodes b file key)
    (hb : b.entries <+: b'.entries) : Brought st nodes b' file key := by
  obtain ⟨n, hn, hkey, path, content, hfile, hsource, hplace, hcontent⟩ := h
  exact ⟨n, hn, hkey, path, content, hfile, hsource, hplace, Table.get?_of_prefix hb hcontent⟩

lemma prefix_withPackageFile {path content : String} (h : t.bundle.contains (n.pathFor st path) = false) :
    t.bundle.entries <+: (t.withPackageFile st n path content).bundle.entries := by
  have hentries := Table.entries_insert_new (by simpa using h) content
  exact ⟨_, hentries.symm⟩

lemma upheld_attributes (st : Settings) (nodes : List Node) :
    Upheld st nodes (Traversal.Attributes st nodes) where
  keeps t t' h ht file key hfile := by
    rw [h.context.filePackages] at hfile
    exact (ht file key hfile).mono h.entries
  adds t n path content hn hget hsource hnew ht file key hfile := by
    by_cases hplace : n.pathFor st path = file
    · subst hplace
      have hkey : some n.key = some key := (Table.get?_insert_self _ _ _).symm.trans hfile
      exact ⟨n, hn, Option.some.inj hkey, path, content, hget, hsource, rfl,
        Table.get?_insert_self _ _ _⟩
    · have hold : t.context.filePackages.get? file = some key :=
        (Table.get?_insert_ne _ hplace _).symm.trans hfile
      exact (ht file key hold).mono (prefix_withPackageFile hnew)

/-- If no files are noted as files of packages when some passes begin, those that are noted afterwards have
been brought by the packages that were fetched. -/
theorem Passes.attributes {depth : Nat} {level left : List String} {ps : List Passage}
    (hT : T.Meet (quiet S)) (hS : ∀ s, S s → s.settings = st)
    (h : Passes T shelf rules depth level t s ps left u v) (hs : S s)
    (ht : t.context.filePackages = ∅) : u.Attributes st (ps.flatMap Passage.nodes) := by
  refine h.upholds hT hS (upheld_attributes st _) (fun _ hn => hn) hs fun file key hfile => ?_
  rw [ht] at hfile
  exact nomatch hfile

/-! ## Builds among others -/

/-- A build that returns a bundle, whatever else goes on, has prepared a traversal and made passes, and leaves
the state of the run as it is after them, but for the note of the bundle. -/
theorem exists_passes_of_returned {R : Type} {work : R → Work (Except Fault Bundle × Context)} {s₀ : Service}
    {crowd : Crowd Service Question Question.Answer R (Except Fault Bundle × Context)} {id : Nat}
    {b : Builder} {budget : Nat} {entry content : String} {c c' : Context} {bundle : Bundle}
    (hwork : ∀ r, (work r).Steady Spares Helper)
    (hs₀ : (Cache.supplying st Cache.Keyed).Accords s₀) (hreach : Crowd.Reachable work s₀ crowd)
    (hbuild : ∀ r, .begun id r ∈ crowd.history → work r = build b budget entry content c)
    (hret : .returned id (.ok bundle, c') ∈ crowd.history) :
    (amongOthers st id crowd.history).Meet (quiet (Cache.supplying st Cache.Keyed).Accords) ∧
    ∃ s rules t v ps left w x, (Cache.supplying st Cache.Keyed).Accords s ∧
      Run.Ends (amongOthers st id crowd.history) (prepare b entry content) { context := c } s (.ok rules) t v ∧
      Passes (amongOthers st id crowd.history) b.shelf rules 0 [entry] t v ps left w x ∧
      bundle = w.bundle ∧ ∃ bundle?, c' = { w.context with bundle? := bundle? } := by
  have hT : (amongOthers st id crowd.history).Meet (quiet (Cache.supplying st Cache.Keyed).Accords) :=
    ⟨fun _ _ _ h => h, fun _ _ _ h => h, fun _ _ _ => trivial⟩
  have hhonors : ∀ r g, (work r).Honors (Cache.supplying st Cache.Keyed) g fun _ _ => True :=
    fun r _ => Cache.honors_of_considerate Cache.keyed_cancelled (hwork r)
  obtain ⟨r, s, s', hr, hs, hends⟩ := hreach.returns hhonors hs₀ (Cache.hears_keyed crowd.history) hret
  rw [hbuild r hr] at hends
  obtain ⟨rules, t, v, complete, t', v', hprepare, htraverse, hbundle, hfinished, hstopped⟩ :=
    parts_of_build hends
  obtain ⟨ps, left, w, x, hpasses, -, hend⟩ := exists_passes htraverse
  refine ⟨hT, s, rules, t, v, ps, left, w, x, hs, hprepare, hpasses, ?_⟩
  rcases hend with hend | ⟨-, -, hspent, -⟩
  · obtain rfl := hend.eq_of_ok
    refine ⟨hbundle, ?_⟩
    cases complete with
    | true => exact ⟨some bundle, (hfinished rfl).1⟩
    | false => exact ⟨t'.context.bundle?, (hstopped rfl).1⟩
  · exact nomatch hspent

/-- What the last request that has returned a bundle notes of the files of packages, with its number. -/
def lastPackages? : List (Event Question Question.Answer Unit (Except Fault Bundle × Context)) →
    Option (Nat × List (String × PackageKey))
  | .returned id (.ok _, c) :: _ => some (id, c.filePackages.entries)
  | _ => none

/-- A build that is played in a world until it returns can be reached. -/
lemma exists_returned_of_play {w : Scenario.World} {entry content : String} {c : Context} {ns : List Nat}
    {id : Nat} {es : List (String × PackageKey)}
    (h : (((started w.service (build w.builder w.budget entry content c)).play w ns).bind
      fun d => lastPackages? d.history) = some (id, es)) :
    ∃ crowd bundle c', (started w.service (build w.builder w.budget entry content c)).play w ns = some crowd ∧
      Crowd.Reachable (fun _ : Unit => build w.builder w.budget entry content c) w.service crowd ∧
      .returned id (.ok bundle, c') ∈ crowd.history ∧ c'.filePackages.entries = es := by
  obtain ⟨crowd, hcrowd, hlast⟩ := Option.bind_eq_some_iff.mp h
  have hreach := ((Crowd.reachable_start (fun _ : Unit => build w.builder w.budget entry content c)
    w.service).call ()).play hcrowd
  unfold lastPackages? at hlast
  split at hlast
  · next id bundle c' past hhistory =>
    obtain ⟨rfl, hpackages⟩ := Prod.mk.inj (Option.some.inj hlast)
    refine ⟨crowd, bundle, c', hcrowd, hreach, ?_, hpackages⟩
    rw [hhistory]
    exact List.mem_cons_self
  · exact nomatch hlast

end Bundle

end SourceBundle
