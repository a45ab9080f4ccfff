/-
# One version for every package

However often and wherever the imports of a build name a package without a version, they all get the
version that the session keeps for it.  An import that names a version gets that one, and the session
does not notice.  Every package is requested once in a build, and all of its source files join the
bundle.

The session is followed through the passes of the traversal: what it keeps stays, and what it comes to
keep has been chosen for an import that leaves its version open.
-/
import SourceBundle.Proofs.Bundle.Complete
import SourceBundle.Proofs.Bundle.Passes
import SourceBundle.Proofs.Bundle.Settled
import SourceBundle.Proofs.Cache.Faithful
import SourceBundle.Proofs.Service.Play
import SourceBundle.Proofs.Sort

namespace SourceBundle.Bundle

open SourceBundle.Import SourceBundle.Text

/-! ## What imports resolve to -/

/-- An import names its file by itself: beside the importing file, or as a file of the bundle. -/
inductive NamesFile (st : Settings) (rules : List Remapping) (bundle : Bundle) (r : Reference) :
    String → Prop
  | relative : classify st (remap rules r.path).1 = .relative →
      NamesFile st rules bundle r (relativePath r.file (remap rules r.path).1)
  | found : classify st (remap rules r.path).1 ≠ .relative →
      bundle.contains (remap rules r.path).1 = true →
      NamesFile st rules bundle r (remap rules r.path).1

/-- An import names a file of a package, in a version that is the one of the session if the import
leaves it open. -/
structure NamesPackage (st : Settings) (rules : List Remapping) (session : Table String String)
    (r : Reference) (path : String) (p : PackageReference) (version : String) : Prop where
  reads : packageOf st rules r = .ok p
  path : path = PackageKey.pathFor ⟨p.fullName, version⟩ st p.subpath
  version : p.isOpen = true → session.get? p.fullName = some version

/-- An import of a package by its name alone has been followed. -/
def Asks (st : Settings) (rules : List Remapping) (name : String) (i : Followed) : Prop :=
  i.2.isSome = true ∧ ∃ p, packageOf st rules i.1 = .ok p ∧ p.isOpen = true ∧ p.fullName = name

/-- What an import of a level resolves to while its package may not have come yet. -/
def Expected (st : Settings) (rules : List Remapping) (t : Traversal) (i : Followed) : Prop :=
  ∀ path, i.2 = some path → NamesFile st rules t.bundle i.1 path ∨
    ∃ p version, NamesPackage st rules t.context.session i.1 path p version ∧
      waitingFor i.1 p version ∈ t.waiting

/-- What an import resolves to when its package has come. -/
def Resolved (st : Settings) (rules : List Remapping) (t : Traversal) (i : Followed) : Prop :=
  ∀ path, i.2 = some path → NamesFile st rules t.bundle i.1 path ∨
    ∃ p version, NamesPackage st rules t.context.session i.1 path p version ∧
      ⟨p.fullName, version⟩ ∈ t.fetched

/-- The versions that the session keeps stay, and new ones are those of packages that are asked for
by some imports. -/
structure Context.Settles (st : Settings) (rules : List Remapping) (is : List Followed)
    (c c' : Context) : Prop where
  kept : ∀ name v, c.session.get? name = some v → c'.session.get? name = some v
  origin : ∀ name v, c'.session.get? name = some v →
    c.session.get? name = some v ∨ ∃ i ∈ is, Asks st rules name i

/-- What following some imports does to the choices of a traversal. -/
structure Traversal.Chooses (st : Settings) (rules : List Remapping) (is : List Followed)
    (t t' : Traversal) : Prop where
  session : Context.Settles st rules is t.context t'.context
  fetched : t'.fetched = t.fetched
  bundle : t.bundle.entries <+: t'.bundle.entries
  waiting : t.waiting <+: t'.waiting
  expected : ∀ i ∈ is, Expected st rules t' i

variable {T : Terms Service Question Question.Answer} {S : Service → Prop} {st : Settings}
  {rules : List Remapping} {shelf budget : Nat} {entry content : String} {t t' u : Traversal}
  {s s' : Service} {r : Reference} {is js : List Followed} {c c' c'' : Context} {b : Builder}
  {bundle : Bundle}

/-! ## What stays when a traversal grows -/

lemma NamesFile.mono {b b' : Bundle} {path : String}
    (h : NamesFile st rules b r path) (hb : b.entries <+: b'.entries) :
    NamesFile st rules b' r path := by
  cases h with
  | relative hc => exact .relative hc
  | found hc hf =>
    obtain ⟨content, hv⟩ := Option.isSome_iff_exists.mp hf
    exact .found hc (Option.isSome_iff_exists.mpr ⟨content, Table.get?_of_prefix hb hv⟩)

lemma NamesPackage.mono {path version : String} {p : PackageReference}
    (h : NamesPackage st rules c.session r path p version)
    (hc : Context.Settles st rules is c c') : NamesPackage st rules c'.session r path p version :=
  ⟨h.reads, h.path, fun ho => hc.kept _ _ (h.version ho)⟩

namespace Context.Settles

lemma of_eq (h : c'.session = c.session) : Settles st rules is c c' :=
  ⟨fun _ _ hv => h ▸ hv, fun _ _ hv => Or.inl (h ▸ hv)⟩

lemma trans (h : Settles st rules is c c') (h' : Settles st rules js c' c'') :
    Settles st rules (is ++ js) c c'' where
  kept name v hv := h'.kept name v (h.kept name v hv)
  origin name v hv := by
    rcases h'.origin name v hv with hv | ⟨i, hi, ha⟩
    · rcases h.origin name v hv with hv | ⟨i, hi, ha⟩
      · exact Or.inl hv
      · exact Or.inr ⟨i, List.mem_append_left _ hi, ha⟩
    · exact Or.inr ⟨i, List.mem_append_right _ hi, ha⟩

end Context.Settles

lemma Expected.mono {i : Followed} (h : Expected st rules t i)
    (hb : t.bundle.entries <+: t'.bundle.entries) (hw : t.waiting <+: t'.waiting)
    (hc : Context.Settles st rules is t.context t'.context) : Expected st rules t' i := by
  intro path hp
  rcases h path hp with hf | ⟨p, version, hn, hmem⟩
  · exact Or.inl (hf.mono hb)
  · exact Or.inr ⟨p, version, hn.mono hc, hw.subset hmem⟩

lemma Resolved.mono {i : Followed} (h : Resolved st rules t i)
    (hb : t.bundle.entries <+: t'.bundle.entries) (hf : t.fetched <+: t'.fetched)
    (hc : Context.Settles st rules is t.context t'.context) : Resolved st rules t' i := by
  intro path hp
  rcases h path hp with hn | ⟨p, version, hn, hk⟩
  · exact Or.inl (hn.mono hb)
  · exact Or.inr ⟨p, version, hn.mono hc, hf.subset hk⟩

/-! ## What leaves the choices alone -/

/-- The session, the packages that have been fetched and the imports that wait are the same. -/
structure Traversal.SameChoices (t t' : Traversal) : Prop where
  session : t'.context.session = t.context.session
  fetched : t'.fetched = t.fetched
  waiting : t'.waiting = t.waiting

instance : IsPreorder Traversal Traversal.SameChoices where
  refl _ := ⟨rfl, rfl, rfl⟩
  trans _ _ _ h h' := ⟨h'.1.trans h.1, h'.2.trans h.2, h'.3.trans h.3⟩

instance : Traversal.Admits Traversal.SameChoices where
  file _ _ _ := ⟨rfl, rfl, rfl⟩
  books _ _ h := ⟨(congrArg Context.session h).trans rfl, rfl, rfl⟩

/-- The session is the same. -/
def Traversal.SameSession (t t' : Traversal) : Prop := t'.context.session = t.context.session

instance : IsPreorder Traversal Traversal.SameSession where
  refl _ := rfl
  trans _ _ _ h h' := Eq.trans h' h

open Traversal (SameChoices Chooses)

lemma Traversal.SameChoices.chooses (h : t.SameChoices t') (hg : t.Grows t')
    (hi : ∀ i ∈ is, Expected st rules t' i) : Chooses st rules is t t' :=
  ⟨.of_eq h.session, h.fetched, hg.entries, hg.waiting, hi⟩

lemma session_noteImport (rules : List Remapping) (r : Reference) (path : String) (c : Context) :
    (noteImport rules r path c).session = c.session := by
  have hrecord : ∀ (c : Context) file literal path,
      (c.record file literal path).session = c.session := by
    intro c file literal path
    unfold Context.record
    split <;> rfl
  unfold noteImport
  dsimp only
  split <;> simp only [hrecord] <;> rfl

/-- An import that names a version does not change the session, whatever comes of it. -/
lemma sameSession_awaitPackage {p : PackageReference} (hn : p.isOpen = false) :
    Run.Plain busily Traversal.SameSession (awaitPackage r p) := by
  unfold awaitPackage
  split
  · exact Run.Plain.throw _
  · refine Run.Plain.get.bind fun t => ?_
    have hchoose : ∀ parent?, Run.Plain busily Traversal.SameSession
        (choosing (Resolve.resolve p parent?)) :=
      fun parent? => (Resolve.sameSession_resolve hn).zoom fun _ _ h => h
    refine (hchoose _).bind fun resolved => ?_
    refine Run.Plain.bind (Run.Plain.modify fun t => rfl) fun _ => ?_
    exact keeps_settings.bind fun _ => Run.Plain.pure _

/-! ## Scanning files -/

/-- A located import has its file, or the package that it waits for has the version of the
session. -/
theorem chooses_of_locate {path? : Option String} (hT : T.Meet (quiet S))
    (hS : ∀ s, S s → s.settings = st) (hs : S s)
    (h : Run.Ends T (locate r (remap rules r.path).1) t s (.ok path?) t' s') :
    Chooses st rules [(r, path?)] t t' := by
  have hg := ((keeps_locate _ _).ends hT hs h).1
  obtain ⟨v, hv, hl⟩ := exists_locates hT hS hs h
  cases hl with
  | relative hc ha =>
    refine SameChoices.chooses ((admits_addLocal _ r).ends hT hv ha).1 hg ?_
    refine List.forall_mem_singleton.mpr fun path hp => ?_
    exact Or.inl (Option.some.inj hp ▸ .relative hc)
  | found hc ha =>
    refine SameChoices.chooses ((admits_addLocal _ r).ends hT hv ha).1 hg ?_
    refine List.forall_mem_singleton.mpr fun path hp => ?_
    exact Or.inl (Option.some.inj hp ▸ .found hc (contains_of_addLocal ha))
  | skipped _ hw =>
    refine SameChoices.chooses ((admits_collecting (Resolve.keeps_warn _)).ends hT hv hw).1 hg ?_
    exact List.forall_mem_singleton.mpr fun path hp => nomatch hp
  | @package p path hp hw =>
    obtain ⟨version, haw⟩ := awaits_of_awaitPackage hT hS hv hw
    refine ⟨⟨fun _ _ => haw.chosen.kept, fun name v hv => ?_⟩, haw.fetched, hg.entries, hg.waiting, ?_⟩
    · rcases haw.chosen.origin hv with hv | ⟨ho, hn⟩
      · exact Or.inl hv
      · exact Or.inr ⟨_, List.mem_singleton_self _, rfl, p, hp, ho, hn⟩
    · refine List.forall_mem_singleton.mpr fun path' hp' => ?_
      obtain rfl := Option.some.inj hp'
      refine Or.inr ⟨p, version, ⟨hp, haw.path, haw.chosen.keeps⟩, ?_⟩
      rw [haw.waiting]
      exact List.mem_append_right _ (List.mem_singleton_self _)

namespace Traversal.Chooses

lemma refl (t : Traversal) : Chooses st rules [] t t :=
  ⟨.of_eq rfl, rfl, List.prefix_refl _, List.prefix_refl _, by simp⟩

lemma trans (h : Chooses st rules is t u) (h' : Chooses st rules js u t') :
    Chooses st rules (is ++ js) t t' where
  session := h.session.trans h'.session
  fetched := h'.fetched.trans h.fetched
  bundle := h.bundle.trans h'.bundle
  waiting := h.waiting.trans h'.waiting
  expected i hi := by
    rcases List.mem_append.mp hi with hi | hi
    · exact (h.expected i hi).mono h'.bundle h'.waiting h'.session
    · exact h'.expected i hi

/-- To change the state of the run, apart from the session, is no choice. -/
lemma note {c : Context} (hc : c.session = t.context.session) :
    Chooses st rules [] t { t with context := c } :=
  ⟨.of_eq hc, rfl, List.prefix_refl _, List.prefix_refl _, by simp⟩

end Traversal.Chooses

theorem Follows.chooses {rs : List Reference} (hT : T.Meet (quiet S))
    (hS : ∀ s, S s → s.settings = st) (h : Follows T rules rs t s is t' s') (hs : S s) :
    S s' ∧ Chooses st rules is t t' := by
  induction h with
  | done => exact ⟨hs, .refl _⟩
  | skipped hl _ ih =>
    obtain ⟨hs', hc⟩ := ih ((keeps_locate _ _).ends hT hs hl).2
    exact ⟨hs', (chooses_of_locate hT hS hs hl).trans hc⟩
  | @resolved r rs is t u t' s v s' path hl _ ih =>
    obtain ⟨hs', hc⟩ := ih ((keeps_locate _ _).ends hT hs hl).2
    have hn : Chooses st rules [] u { u with context := noteImport rules r path u.context } :=
      .note (session_noteImport rules r path u.context)
    exact ⟨hs', (chooses_of_locate hT hS hs hl).trans (hn.trans hc)⟩

theorem Scans.chooses {files : List String} (hT : T.Meet (quiet S))
    (hS : ∀ s, S s → s.settings = st) (h : Scans T rules files t s is t' s') (hs : S s) :
    S s' ∧ Chooses st rules is t t' := by
  induction h with
  | done => exact ⟨hs, .refl _⟩
  | @file f fs is js t u t' s v s' hf _ ih =>
    have hmark : Chooses st rules [] t { t with context := t.context.markScanned f } := .note rfl
    obtain ⟨hv, hc⟩ := hf.chooses hT hS hs
    obtain ⟨hs', hc'⟩ := ih hv
    exact ⟨hs', (hmark.trans hc).trans hc'⟩

/-! ## Adding packages -/

/-- The source files of a package are in the bundle, at their places. -/
def SourcesIn (st : Settings) (n : Node) (bundle : Bundle) : Prop :=
  ∀ path content, n.files.get? path = some content → endsWith sourceEnding path.toList = true →
    bundle.contains (n.pathFor st path) = true

/-- Some packages are added: they are noted as fetched, their source files are in the bundle, and no
other choice is made. -/
structure Traversal.Joins (st : Settings) (nodes : List Node) (t t' : Traversal) : Prop where
  session : t'.context.session = t.context.session
  fetched : t'.fetched = t.fetched ++ nodes.map Node.key
  bundle : t.bundle.entries <+: t'.bundle.entries
  sources : ∀ n ∈ nodes, SourcesIn st n t'.bundle

lemma SourcesIn.mono {n : Node} {b b' : Bundle} (h : SourcesIn st n b)
    (hb : b.entries <+: b'.entries) : SourcesIn st n b' := by
  intro path content hf hp
  obtain ⟨content', hc⟩ := Option.isSome_iff_exists.mp (h path content hf hp)
  exact Option.isSome_iff_exists.mpr ⟨content', Table.get?_of_prefix hb hc⟩

/-- After a source file of a package has been added, it is in the bundle. -/
lemma contains_of_addPackageFile {node : Node} {path content : String} {a : Unit}
    (hS : ∀ s, S s → s.settings = st) (hs : S s)
    (h : Run.Ends T (addPackageFile node path content) t s (.ok a) t' s')
    (hp : endsWith sourceEnding path.toList = true) :
    t'.bundle.contains (node.pathFor st path) = true := by
  unfold addPackageFile at h
  rw [if_pos hp] at h
  obtain ⟨st', _, _, hst, h₁⟩ := Run.ends_bind_ok.mp h
  obtain ⟨rfl, rfl, rfl⟩ := settings_of_ends hst hS hs
  obtain ⟨_, _, _, hg, h₂⟩ := Run.ends_bind_ok.mp h₁
  obtain ⟨⟨⟩, rfl, rfl⟩ := Run.ends_get.mp hg
  split at h₂
  · next hc =>
    obtain ⟨-, rfl, -⟩ := Run.ends_pure.mp h₂
    exact hc
  · obtain ⟨_, u, v, -, h₃⟩ := Run.ends_bind_ok.mp h₂
    obtain ⟨_, u', v', -, hm⟩ := Run.ends_bind_ok.mp h₃
    obtain ⟨-, rfl, -⟩ := Run.ends_modify.mp hm
    exact Option.isSome_iff_exists.mpr ⟨content, Table.get?_insert_self _ _ _⟩

/-- After a package has been added, its source files are in the bundle. -/
theorem contains_of_addPackage {node : Node} {path content : String} {a : PUnit}
    (hT : T.Meet (quiet S)) (hS : ∀ s, S s → s.settings = st) (hs : S s)
    (h : Run.Ends T (addPackage node) t s (.ok a) t' s') (hf : node.files.get? path = some content)
    (hp : endsWith sourceEnding path.toList = true) :
    t'.bundle.contains (node.pathFor st path) = true := by
  have hmem : (path, content) ∈ node.files.sorted :=
    Table.mem_sorted.mpr (Table.get?_eq_some_iff.mp hf)
  have hkeeps : ∀ es : List (String × String), Run.Plain busily Traversal.Grows
      (es.forM fun e => addPackageFile node e.1 e.2) :=
    Run.Plain.forM fun e => keeps_addPackageFile node e.1 e.2
  obtain ⟨front, back, u, v, w, x, -, hfront, hfile, hback⟩ := Run.ends_forM_mem hmem h
  have hv := ((hkeeps front).ends hT hs hfront).2
  have hx := ((keeps_addPackageFile node path content).ends hT hv hfile).2
  exact ((hkeeps back).ends hT hx hback).1.contains (contains_of_addPackageFile hS hv hfile hp)

theorem joins_of_joinPackage {node : Node} {a : PUnit} (hT : T.Meet (quiet S))
    (hS : ∀ s, S s → s.settings = st) (hs : S s)
    (h : Run.Ends T (joinPackage shelf node) t s (.ok a) t' s') :
    S s' ∧ t.Joins st [node] t' := by
  have hg := (keeps_joinPackage shelf node).ends hT hs h
  obtain ⟨_, u, v, hm, h₁⟩ := Run.ends_bind_ok.mp h
  obtain ⟨-, rfl, rfl⟩ := Run.ends_modify.mp hm
  obtain ⟨_, u, v, hr, h₂⟩ := Run.ends_bind_ok.mp h₁
  have hu := ((admits_recordParent (I := SameChoices) node).ends hT hs hr)
  obtain ⟨_, w, x, ha, h₃⟩ := Run.ends_bind_ok.mp h₂
  have hw := ((admits_addPackage (I := SameChoices) node).ends hT hu.2 ha).1
  obtain ⟨-, rfl⟩ := Run.ends_lift.mp h₃
  refine ⟨hg.2, hw.session.trans hu.1.session, hw.fetched.trans hu.1.fetched, hg.1.entries, ?_⟩
  exact List.forall_mem_singleton.mpr fun path content => contains_of_addPackage hT hS hu.2 ha

theorem joins_of_forM {nodes : List Node} {a : PUnit} (hT : T.Meet (quiet S))
    (hS : ∀ s, S s → s.settings = st) (hs : S s)
    (h : Run.Ends T (nodes.forM (joinPackage shelf)) t s (.ok a) t' s') :
    S s' ∧ t.Joins st nodes t' := by
  induction nodes generalizing t s with
  | nil =>
    obtain ⟨-, rfl, rfl⟩ := Run.ends_pure.mp h
    exact ⟨hs, rfl, (List.append_nil _).symm, List.prefix_refl _, by simp⟩
  | cons n ns ih =>
    obtain ⟨_, u, v, hn, hns⟩ := Run.ends_bind_ok.mp h
    obtain ⟨hv, hj⟩ := joins_of_joinPackage hT hS hs hn
    obtain ⟨hs', hj'⟩ := ih hv hns
    refine ⟨hs', hj'.session.trans hj.session, ?_, hj.bundle.trans hj'.bundle, ?_⟩
    · rw [hj'.fetched, hj.fetched, List.append_assoc]
      rfl
    · exact List.forall_mem_cons.mpr ⟨(hj.sources n List.mem_cons_self).mono hj'.bundle, hj'.sources⟩

/-! ## The passes of a traversal -/

/-- What some passes bring about: the session only comes to keep what is asked for; every package is
requested once, and comes; every import that was followed has its file, in the version of the session
if it leaves that open; and the source files of all packages are in the bundle. -/
structure Canonical (st : Settings) (rules : List Remapping) (ps : List Passage)
    (t t' : Traversal) : Prop where
  session : Context.Settles st rules (ps.flatMap Passage.imports) t.context t'.context
  bundle : t.bundle.entries <+: t'.bundle.entries
  fetched : t'.fetched = t.fetched ++ ps.flatMap Passage.requested
  once : t.fetched.Nodup → t'.fetched.Nodup
  answered : ∀ p ∈ ps, p.nodes.map Node.key = p.requested
  resolved : ∀ p ∈ ps, ∀ i ∈ p.imports, Resolved st rules t' i
  sources : ∀ p ∈ ps, ∀ n ∈ p.nodes, SourcesIn st n t'.bundle

lemma mem_newKeys {key : PackageKey} :
    key ∈ t.newKeys ↔ key ∈ t.waiting.map Waiting.key ∧ key ∉ t.fetched := by
  unfold Traversal.newKeys
  rw [(PackageKey.perm_sort _).mem_iff, List.mem_eraseDups, List.mem_filter]
  simp

namespace Canonical

lemma refl (t : Traversal) : Canonical st rules [] t t where
  session := .of_eq rfl
  bundle := List.prefix_refl _
  fetched := (List.append_nil _).symm
  once h := h
  answered _ hp := absurd hp List.not_mem_nil
  resolved _ hp := absurd hp List.not_mem_nil
  sources _ hp := absurd hp List.not_mem_nil

lemma trans {ps qs : List Passage} (h : Canonical st rules ps t u) (h' : Canonical st rules qs u t') :
    Canonical st rules (ps ++ qs) t t' where
  session := by
    rw [List.flatMap_append]
    exact h.session.trans h'.session
  bundle := h.bundle.trans h'.bundle
  fetched := by rw [h'.fetched, h.fetched, List.flatMap_append, List.append_assoc]
  once hn := h'.once (h.once hn)
  answered := List.forall_mem_append.mpr ⟨h.answered, h'.answered⟩
  resolved := by
    refine List.forall_mem_append.mpr ⟨fun p hp i hi => ?_, h'.resolved⟩
    exact (h.resolved p hp i hi).mono h'.bundle (h'.fetched ▸ List.prefix_append _ _) h'.session
  sources := by
    refine List.forall_mem_append.mpr ⟨fun p hp n hn => ?_, h'.sources⟩
    exact (h.sources p hp n hn).mono h'.bundle

end Canonical

/-- A pass is canonical, if the packages that come are those that are requested. -/
theorem Pass.canonical {depth : Nat} {p : Passage} (hT : T.Meet (quiet S))
    (hS : ∀ s, S s → s.settings = st) (hd : ∀ s, S s → ∀ d r, (d, r) ∈ s.delivered → Cache.Keyed d.1 r)
    (h : Pass T shelf rules depth p t s t' s') (hs : S s) : S s' ∧ Canonical st rules [p] t t' := by
  obtain ⟨hcur, hscan, hfetch, hjoin, hcheck, hlog⟩ := h
  have hv := ((Work.lawful_contextIsCurrent _).ends hT hs hcur).2
  obtain ⟨hx, hc⟩ := hscan.chooses hT hS hv
  have hnodes := Cache.good_of_fetchAll hT hd hx hfetch
  have hy := (Routine.Obeys.ends (Cache.lawful_fetchAll _) hT hx hfetch).2
  obtain ⟨hz, hj⟩ := joins_of_forM hT hS hy hjoin
  have hs' := ((Work.lawful_log _).ends hT hz hlog).2
  have hkeys : p.nodes.map Node.key = p.requested := Cache.keys_of_keyed hnodes
  have hfetched : t'.fetched = t.fetched ++ p.requested := by
    rw [hj.fetched, hc.fetched, hkeys]
  refine ⟨hs', ?_, hc.bundle.trans hj.bundle, ?_, fun hn => ?_, ?_, ?_, ?_⟩
  · rw [List.flatMap_singleton, ← List.append_nil p.imports]
    exact hc.session.trans (.of_eq hj.session)
  · rw [List.flatMap_singleton, hfetched]
  · -- what is requested has not been fetched before
    rw [hfetched]
    refine hn.append p.scanned.nodup_newKeys fun key hk hnew => ?_
    exact (mem_newKeys.mp hnew).2 (hc.fetched ▸ hk)
  · exact List.forall_mem_singleton.mpr hkeys
  · refine List.forall_mem_singleton.mpr fun i hi path hp => ?_
    rcases hc.expected i hi path hp with hf | ⟨q, version, hq, hw⟩
    · exact Or.inl (hf.mono hj.bundle)
    · have hsettles : Context.Settles st rules [] _ _ := .of_eq hj.session
      refine Or.inr ⟨q, version, hq.mono hsettles, ?_⟩
      -- a package that is waited for has been fetched before, or is requested
      rw [hfetched, List.mem_append]
      by_cases hk : ⟨q.fullName, version⟩ ∈ t.fetched
      · exact Or.inl hk
      · refine Or.inr (mem_newKeys.mpr ⟨List.mem_map.mpr ⟨_, hw, rfl⟩, ?_⟩)
        rw [hc.fetched]
        exact hk
  · exact List.forall_mem_singleton.mpr hj.sources

/-- What passes bring about, however many there are. -/
theorem Passes.canonical {depth : Nat} {level level' : List String} {ps : List Passage}
    (hT : T.Meet (quiet S)) (hS : ∀ s, S s → s.settings = st)
    (hd : ∀ s, S s → ∀ d r, (d, r) ∈ s.delivered → Cache.Keyed d.1 r)
    (h : Passes T shelf rules depth level t s ps level' t' s') (hs : S s) :
    S s' ∧ Canonical st rules ps t t' := by
  induction h with
  | done => exact ⟨hs, .refl _⟩
  | pass _ hpass _ ih =>
    obtain ⟨hy, hp⟩ := hpass.canonical hT hS hd hs
    obtain ⟨hs', hps⟩ := ih hy
    exact ⟨hs', hp.trans hps⟩

/-! ## Builds -/

/-- The passes of a build: it goes by the remappings that the builder is given, if any, begins with the
entry as the only file, and stops before there are no files left only if it is no longer current. -/
structure Tour (T : Terms Service Question Question.Answer) (b : Builder) (entry content : String)
    (c : Context) (rules : List Remapping) (ps : List Passage) (left : List String) (complete : Bool)
    (t : Traversal) (s : Service) (u : Traversal) (v : Service) : Prop where
  given : ∀ given, b.remappings? = some given → rules = given
  context : c.Grows t.context
  choices : Traversal.SameChoices { context := c } t
  bundle : t.bundle = Table.empty.insert entry content
  passes : Passes T b.shelf rules 0 [entry] t s ps left u v
  halts : ∃ v', Halts T b.shelf rules entry (0 + ps.length) u v left (.ok complete) u v'

/-- A traversal that halts at its end or because it is stopped is left as it is. -/
lemma Halts.eq_of_ok {depth : Nat} {level : List String} {complete : Bool}
    (h : Halts T shelf rules entry depth t s level (.ok complete) t' s') : t' = t := by
  cases h <;> rfl

/-- A build that ends without a fault has made a tour. -/
theorem exists_tour (hT : T.Meet (quiet S)) (hs : S s)
    (h : (build b budget entry content c).Ends T s (.ok bundle, c') s') :
    ∃ rules ps left complete t x u y, Tour T b entry content c rules ps left complete t x u y ∧ S x ∧
      bundle = u.bundle ∧
      c' = if complete then { u.context with bundle? := some bundle } else u.context := by
  obtain ⟨rules, t, v, complete, t', v', hp, ht, hb, hc, hc'⟩ := parts_of_build h
  obtain ⟨hv, hgiven, hcontext, hbundle⟩ := ready_of_prepare hT hs hp
  have hchoices := ((admits_prepare (I := Traversal.SameChoices) (fun _ _ _ _ => ⟨rfl, rfl, rfl⟩)
    b entry content).ends hT hs hp).1
  obtain ⟨ps, left, u, y, hps, -, hend⟩ := exists_passes ht
  rcases hend with hend | ⟨-, -, hex, -⟩
  · obtain rfl := hend.eq_of_ok
    refine ⟨rules, ps, left, complete, t, v, t', y, ⟨hgiven, hcontext, hchoices, hbundle, hps, v', hend⟩,
      hv, hb, ?_⟩
    cases complete with
    | true => exact (hc rfl).1
    | false => exact (hc' rfl).1
  · exact nomatch hex

/-- A complete tour of a fresh run is closed. -/
theorem Tour.closed {ps : List Passage} {left : List String} (hT : T.Meet (quiet S))
    (hS : ∀ s, S s → s.settings = st) (h : Tour T b entry content c rules ps left true t s u s')
    (hs : S s) (hc : c.scanned = []) :
    Closed st rules entry content u.bundle u.context (ps.map Passage.level) := by
  obtain ⟨v', hend⟩ := h.halts
  have hw : Went T b entry content c rules (ps.map Passage.level) true t s u v' :=
    ⟨h.given, h.context, h.bundle, h.passes.course hend⟩
  exact hw.closed hT hS hs hc

/-- The choices of a build agree: the versions that the session keeps are those that were kept before
and those of packages that some imports ask for by their names alone; all these imports resolve to the
version that is kept; every package is requested once; and all its source files are in the bundle. -/
structure Consistent (st : Settings) (rules : List Remapping) (ps : List Passage) (c c' : Context)
    (bundle : Bundle) : Prop where
  session : Context.Settles st rules (ps.flatMap Passage.imports) c c'
  once : (ps.flatMap Passage.requested).Nodup
  answered : ∀ p ∈ ps, p.nodes.map Node.key = p.requested
  resolved : ∀ p ∈ ps, ∀ r path, (r, some path) ∈ p.imports →
    NamesFile st rules bundle r path ∨ ∃ q version,
      NamesPackage st rules c'.session r path q version ∧
      ⟨q.fullName, version⟩ ∈ ps.flatMap Passage.requested
  sources : ∀ p ∈ ps, ∀ n ∈ p.nodes, SourcesIn st n bundle

theorem Tour.consistent {ps : List Passage} {left : List String} {complete : Bool}
    (hT : T.Meet (quiet S)) (hS : ∀ s, S s → s.settings = st)
    (hd : ∀ s, S s → ∀ d r, (d, r) ∈ s.delivered → Cache.Keyed d.1 r)
    (h : Tour T b entry content c rules ps left complete t s u s') (hs : S s) :
    Consistent st rules ps c u.context u.bundle := by
  obtain ⟨-, hc⟩ := h.passes.canonical hT hS hd hs
  have hfetched : t.fetched = [] := h.choices.fetched
  have hu : u.fetched = ps.flatMap Passage.requested := by
    rw [hc.fetched, hfetched, List.nil_append]
  have hkept : Context.Settles st rules [] c t.context := .of_eq h.choices.session
  refine ⟨?_, ?_, hc.answered, fun p hp r path hi => ?_, hc.sources⟩
  · rw [← List.nil_append (ps.flatMap Passage.imports)]
    exact hkept.trans hc.session
  · exact hu ▸ hc.once (hfetched ▸ List.nodup_nil)
  · exact hu ▸ hc.resolved p hp _ hi path rfl

/-- The note of the bundle in the context changes nothing about the choices. -/
lemma Consistent.noteBundle {ps : List Passage} (h : Consistent st rules ps c c' bundle)
    (bundle? : Option Bundle) :
    Consistent st rules ps c { c' with bundle? := bundle? } bundle :=
  ⟨⟨h.session.kept, h.session.origin⟩, h.once, h.answered, h.resolved, h.sources⟩

/-- The terms of a request among others that all leave the packages to those who fetch them. -/
abbrev amongOthers {R P : Type} (st : Settings) (id : Nat)
    (h : List (Event Question Question.Answer R P)) : Terms Service Question Question.Answer :=
  Crowd.terms (fun _ => (Cache.supplying st Cache.Keyed).Accords) id h

/-- Whatever else goes on: the choices of a build that returns a bundle agree, and if it was not
stopped, the bundle is closed, so that they are the choices for all imports of all its files.  What
the session keeps is never changed by an import that names a version. -/
theorem one_version_per_package {R : Type} {work : R → Work (Except Fault Bundle × Context)}
    {s₀ : Service} {crowd : Crowd Service Question Question.Answer R (Except Fault Bundle × Context)}
    {id : Nat} (hwork : ∀ r, (work r).Steady Spares Helper)
    (hs₀ : (Cache.supplying st Cache.Keyed).Accords s₀) (hreach : Crowd.Reachable work s₀ crowd)
    (hbuild : ∀ r, .begun id r ∈ crowd.history → work r = build b budget entry content c)
    (hret : .returned id (.ok bundle, c') ∈ crowd.history) :
    (∃ rules ps left complete t s u v,
      Tour (amongOthers st id crowd.history) b entry content c rules ps left complete t s u v ∧
      bundle = u.bundle ∧ Consistent st rules ps c c' bundle ∧
      (complete = true → c.scanned = [] →
        Closed st rules entry content bundle c' (ps.map Passage.level))) ∧
    ∀ T r p t s result t' s', p.isOpen = false →
      Run.Ends T (awaitPackage r p) t s result t' s' → t'.context.session = t.context.session := by
  refine ⟨?_, fun T r p t s result t' s' hn h => ?_⟩
  · have hhonors : ∀ r g, (work r).Honors (Cache.supplying st Cache.Keyed) g fun _ _ => True :=
      fun r _ => Cache.honors_of_considerate Cache.keyed_cancelled (hwork r)
    obtain ⟨r, s, s', hr, hs, hends⟩ :=
      hreach.returns hhonors hs₀ (Cache.hears_keyed crowd.history) hret
    rw [hbuild r hr] at hends
    have hT : (amongOthers st id crowd.history).Meet
        (quiet (Cache.supplying st Cache.Keyed).Accords) :=
      ⟨fun _ _ _ h => h, fun _ _ _ h => h, fun _ _ _ => trivial⟩
    have hS : ∀ s, (Cache.supplying st Cache.Keyed).Accords s → s.settings = st :=
      fun s ⟨_, hs, _⟩ => hs
    obtain ⟨rules, ps, left, complete, t, x, u, y, htour, hx, rfl, rfl⟩ := exists_tour hT hs hends
    have hcons := htour.consistent hT hS (fun s ⟨_, _, hs⟩ => hs.delivered) hx
    refine ⟨rules, ps, left, complete, t, x, u, y, htour, rfl, ?_, ?_⟩
    · cases complete with
      | true => exact hcons.noteBundle _
      | false => exact hcons
    · rintro rfl hnew
      exact (htour.closed hT hS hx hnew).noteBundle _
  · exact ((sameSession_awaitPackage hn).ends (meet_quiet T) trivial h).1

/-- A registry that publishes two versions of a package. -/
def twinWorld : Scenario.World where
  service := { settings := { materialize := false }, index := { path := ".deps/index.json" } }
  store := .memory (.ofFiles [])
  catalog := Table.empty.insert "p" ((Table.empty.insert "1.0.0" (Table.empty.insert "A.sol" "")).insert
    "2.0.0" (Table.empty.insert "A.sol" ""))
  failures := []
  cues := []
  builder := ⟨0, some [], false⟩
  budget := 8

/-- A source that imports the package both with a version and without. -/
def twinEntry : String := "import \"p@1.0.0/A.sol\"; import \"p/A.sol\";"

/-- The build of this source, played until it returns. -/
def twinPlay :
    Option (Crowd Service Question Question.Answer Unit (Except Fault Bundle × Context)) :=
  (started twinWorld.service (build twinWorld.builder twinWorld.budget "m.sol" twinEntry
    { target := "m.sol" })).play twinWorld [0, 0, 0, 0, 0, 0, 1, 2, 1, 0, 0]

/-- What the last request that has returned gave: its number, the files of the bundle, and the
session. -/
def lastChoices? : List (Event Question Question.Answer Unit (Except Fault Bundle × Context)) →
    Option (Nat × List String × List (String × String))
  | .returned id (.ok bundle, c) :: _ => some (id, bundle.keys, c.session.entries)
  | _ => none

/-- In the build of this source the package comes in both versions, and the session keeps the one that
was chosen for the import without a version. -/
theorem one_version_per_package_twin :
    ∃ crowd bundle c', twinPlay = some crowd ∧ .returned 0 (.ok bundle, c') ∈ crowd.history ∧
      bundle.keys = ["m.sol", ".deps/npm/p@1.0.0/A.sol", ".deps/npm/p@2.0.0/A.sol"] ∧
      c'.session.entries = [("p", "2.0.0")] ∧
      (∃ rules ps left complete t s u v,
        Tour (amongOthers twinWorld.service.settings 0 crowd.history) twinWorld.builder "m.sol"
          twinEntry { target := "m.sol" } rules ps left complete t s u v ∧ bundle = u.bundle ∧
        Consistent twinWorld.service.settings rules ps { target := "m.sol" } c' bundle ∧
        (complete = true → ({ target := "m.sol" } : Context).scanned = [] →
          Closed twinWorld.service.settings rules "m.sol" twinEntry bundle c'
            (ps.map Passage.level))) := by
  have hplay : (twinPlay.bind fun w => lastChoices? w.history) =
      some (0, ["m.sol", ".deps/npm/p@1.0.0/A.sol", ".deps/npm/p@2.0.0/A.sol"], [("p", "2.0.0")]) := by
    decide +kernel
  obtain ⟨crowd, hcrowd, hlast⟩ := Option.bind_eq_some_iff.mp hplay
  obtain ⟨bundle, c', h, hhistory⟩ : ∃ bundle c' h,
      crowd.history = .returned 0 (.ok bundle, c') :: h ∧ bundle.keys = _ ∧ c'.session.entries = _ := by
    unfold lastChoices? at hlast
    split at hlast
    · next id bundle c' h he =>
      obtain ⟨rfl, hkeys⟩ := Prod.mk.inj (Option.some.inj hlast)
      obtain ⟨hkeys, hsession⟩ := Prod.mk.inj hkeys
      exact ⟨bundle, c', h, he, hkeys, hsession⟩
    · exact nomatch hlast
  have hret : .returned 0 (.ok bundle, c') ∈ crowd.history := by
    rw [hhistory.1]
    exact List.mem_cons_self
  have hreach : Crowd.Reachable (fun _ : Unit => build twinWorld.builder twinWorld.budget "m.sol"
      twinEntry { target := "m.sol" }) twinWorld.service crowd :=
    ((Crowd.reachable_start _ _).call ()).play hcrowd
  exact ⟨crowd, bundle, c', hcrowd, hret, hhistory.2.1, hhistory.2.2,
    (one_version_per_package (fun _ => spares_build _ _ _ _ _)
      ⟨[], rfl, Cache.faithful_new rfl rfl⟩ hreach (fun _ _ => rfl) hret).1⟩

end SourceBundle.Bundle
