/-
# What the index answers after a build

A complete build commits its records while it is current, and from then on the index answers for
every import of a scanned file with the last path that was recorded under its literal in this file.
That is the path that the import itself resolved to unless the record was displaced: by a later one
of the same file, that is remapped to the literal and resolved elsewhere.
-/
import SourceBundle.Proofs.Bundle.Complete
import SourceBundle.Proofs.Bundle.Records
import SourceBundle.Proofs.Index.Still

namespace SourceBundle

open SourceBundle.Import

/-- The index answers for an import with the path that it resolved to, or with nothing if it
resolved to itself. -/
def Index.Navigates (i : Index) (r : Reference) (path : String) : Prop :=
  i.lookup r.file r.path = if r.path = path then none else some path

instance (i : Index) (r : Reference) (path : String) : Decidable (i.Navigates r path) :=
  inferInstanceAs (Decidable (_ = _))

variable {T : Terms Service Question Question.Answer} {s s' : Service} {c c' : Context}

/-- A check of a run changes nothing but the permit that it shows. -/
lemma Work.noted_of_ends_contextIsCurrent {b : Bool}
    (h : (Work.contextIsCurrent c).Ends T s b s') : Noted s s' := by
  unfold contextIsCurrent isCurrent at h
  split at h
  · obtain ⟨-, rfl⟩ := h
    exact noted_refl s
  · obtain ⟨-, -, rfl⟩ := h
    exact ⟨Or.inr rfl, rfl⟩
  · obtain ⟨-, -, rfl⟩ := Work.ends_gets.mp h
    exact noted_refl _

namespace Bundle

variable {st : Settings} {rules : List Remapping} {budget : Nat} {entry content : String}
  {t t' : Traversal} {b : Builder} {bundle : Bundle}

/-- The records of a run are committed in one state, which leaves another, and from there the index
is saved. -/
structure Commits (T : Terms Service Question Question.Answer) (c : Context) (v u s' : Service) :
    Prop where
  current : c.CurrentIn v
  index : u.index = c.commit v.index
  saved : ∃ written, Attempt.Ends T Index.save u (.ok written) s'

/-- A commit enters the records of a run that is current, and of no other. -/
lemma index_of_ends_commit {done : Bool} (h : (commit c).Ends T s done s') :
    if done then c.CurrentIn s ∧ s'.index = c.commit s.index else ¬ c.CurrentIn s := by
  obtain ⟨current, v, hcheck, h₁⟩ := Routine.ends_bind.mp h
  have hv : v.index = s.index := by
    rw [(Work.noted_of_ends_contextIsCurrent hcheck).rest]
  cases current with
  | true =>
    obtain ⟨_, u, ⟨-, -, rfl⟩, rfl, rfl⟩ := Routine.ends_bind.mp h₁
    exact ⟨(Work.current_iff_of_ends hcheck).mp rfl, congrArg c.commit hv⟩
  | false =>
    obtain ⟨_, u, -, rfl, rfl⟩ := Routine.ends_bind.mp h₁
    exact fun hcur => nomatch (Work.current_iff_of_ends hcheck).mpr hcur

/-- To finish the traversal of a current run with an index commits its records. -/
lemma commits_of_finish {a : Unit} (hb : b.usesIndex = true) (hcur : t.context.CurrentIn s)
    (h : Run.Ends T (finish b entry) t s (.ok a) t' s') :
    ∃ v u, Commits T { t.context with bundle? := some t.bundle } v u s' := by
  obtain ⟨_, _, _, hg, h₁⟩ := Run.ends_bind_ok.mp h
  obtain ⟨⟨⟩, rfl, rfl⟩ := Run.ends_get.mp hg
  obtain ⟨_, _, _, hm, h₂⟩ := Run.ends_bind_ok.mp h₁
  obtain ⟨-, rfl, rfl⟩ := Run.ends_modify.mp hm
  obtain ⟨_, _, v, hl, h₃⟩ := Run.ends_bind_ok.mp h₂
  obtain ⟨_, ⟨-, -, rfl⟩, -, rfl⟩ := Stateful.ends_work.mp hl
  obtain ⟨_, _, _, hg', h₄⟩ := Run.ends_bind_ok.mp h₃
  obtain ⟨⟨⟩, rfl, rfl⟩ := Run.ends_get.mp hg'
  rw [if_pos hb] at h₄
  obtain ⟨committed, _, u, hc, h₅⟩ := Run.ends_bind_ok.mp h₄
  obtain ⟨_, hcommit, ⟨⟩, rfl⟩ := Stateful.ends_work.mp hc
  have hindex := index_of_ends_commit hcommit
  cases committed with
  | false => exact absurd hcur hindex
  | true =>
    obtain ⟨written, _, x, hs, h₆⟩ := Run.ends_bind_ok.mp h₅
    obtain ⟨hsave, rfl⟩ := Run.ends_lift.mp hs
    obtain ⟨-, -, rfl⟩ := Run.ends_pure.mp h₆
    exact ⟨_, u, hindex.1, hindex.2, written, hsave⟩

/-- While nobody else touches the records of the index, to save it leaves them alone. -/
lemma data_of_save {written : Bool} (ho : ∀ s s', T.others s s' → s'.index.data = s.index.data)
    (h : Attempt.Ends T Index.save s (.ok written) s') : s'.index.data = s.index.data := by
  let R : Service → Service → Prop := fun s s' => s'.index.data = s.index.data
  have : IsPreorder Service R := { refl := fun _ => rfl, trans := fun _ _ _ h h' => h'.trans h }
  have hsteady : (Index.save).run.Steady R Helper :=
    Index.modest_save.imp (fun _ _ (h : Still _ _) => h.data) fun _ h => h
  exact hsteady.ends ho h

/-! ## The records of a complete build -/

lemma file_of_mem_referencesOf {f : String} {r : Reference} (h : r ∈ referencesOf bundle f) :
    r.file = f := file_of_mem_extract h

/-- What a complete build of a fresh run has recorded. -/
lemma Went.recordOf {ls : List Level} {complete : Bool} {v v' : Service}
    (hw : Went T b entry content c rules ls complete t v t' v') (hc : t.context.records = ∅)
    (file literal : String) :
    t'.context.recordOf file literal =
      (pathsRecorded rules (ls.flatMap Level.imports) file literal).getLast? := by
  have hnone : t.context.recordOf file literal = none := by rw [Context.recordOf, hc]; rfl
  rw [hw.course.recordOf, hnone, Option.or_none]

lemma Went.proper {ls : List Level} {complete : Bool} {v v' : Service}
    (hw : Went T b entry content c rules ls complete t v t' v') (hc : t.context.records = ∅) :
    t'.context.Proper := by
  intro file literal path h
  rw [hw.recordOf hc] at h
  exact ne_of_mem_pathsRecorded (List.mem_of_getLast? h)

/-- Another path than that of an import is the last one recorded under its literal in its file. -/
def Displaced (rules : List Remapping) (is : List Followed) (r : Reference) (path : String) : Prop :=
  ∃ q, (pathsRecorded rules is r.file r.path).getLast? = some q ∧ q ≠ path

lemma mem_recordedAs (rules : List Remapping) (r : Reference) : r.path ∈ recordedAs rules r := by
  unfold recordedAs
  split <;> exact List.mem_cons_self

/-- If the index answers with the last path recorded, then it answers for an import as it should
unless its record was displaced. -/
lemma navigates_iff_not_displaced {i : Index} {is : List Followed} {r : Reference} {path : String}
    (hi : i.lookup r.file r.path = (pathsRecorded rules is r.file r.path).getLast?)
    (hr : (r, some path) ∈ is) : i.Navigates r path ↔ ¬ Displaced rules is r path := by
  unfold Index.Navigates Displaced
  rw [hi]
  by_cases hself : r.path = path
  · -- an import that resolved to itself has no record of its own
    rw [if_pos hself]
    constructor
    · rintro hnone ⟨q, hq, -⟩
      exact nomatch hnone.symm.trans hq
    · intro hd
      rw [Option.eq_none_iff_forall_ne_some]
      intro q hq
      refine hd ⟨q, hq, fun e => ?_⟩
      exact ne_of_mem_pathsRecorded (List.mem_of_getLast? hq) (hself.trans e.symm)
  · rw [if_neg hself]
    have hmem : path ∈ pathsRecorded rules is r.file r.path :=
      List.mem_filterMap.mpr ⟨_, hr, if_pos ⟨rfl, mem_recordedAs rules r, hself⟩⟩
    obtain ⟨q, hq⟩ := Option.isSome_iff_exists.mp (List.getLast?_isSome.mpr (List.ne_nil_of_mem hmem))
    rw [hq]
    constructor
    · rintro hp ⟨q', hq', hne⟩
      exact hne ((Option.some.inj hq').symm.trans (Option.some.inj hp))
    · intro hd
      by_contra hne
      exact hd ⟨q, rfl, fun e => hne (congrArg some e)⟩

/-- An import that was followed is one of a file of its level. -/
lemma reference_of_mem {ls : List Level} {c : Context} {r : Reference} {path? : Option String}
    (hls : ∀ l ∈ ls, l.Closed st rules bundle c) (hr : (r, path?) ∈ ls.flatMap Level.imports) :
    r.file ∈ ls.flatMap Level.files ∧ r ∈ referencesOf bundle r.file := by
  obtain ⟨l, hl, hrl⟩ := List.mem_flatMap.mp hr
  have href : r ∈ l.files.flatMap (referencesOf bundle) := by
    rw [← (hls l hl).imports]
    exact List.mem_map_of_mem (f := Prod.fst) hrl
  obtain ⟨f, hf, hrf⟩ := List.mem_flatMap.mp href
  obtain rfl := file_of_mem_referencesOf hrf
  exact ⟨List.mem_flatMap.mpr ⟨l, hl, hf⟩, hrf⟩

/-- A build of a fresh run that ends without a fault and is never superseded is complete, and all
imports that it followed are those of its bundle. -/
lemma exists_complete (hT : T.Within (unsuperseded st c)) (hst : s.settings = st)
    (hcur : c.CurrentIn s) (hscanned : c.scanned = [])
    (h : (build b budget entry content c).Ends T s (.ok bundle, c') s') :
    ∃ rules ls t v t' v', Went T b entry content c rules ls true t v t' v' ∧
      Traversal.SameNotes { context := c } t ∧ bundle = t'.bundle ∧
      c' = { t'.context with bundle? := some bundle } ∧
      t'.bundle.get? entry = some content ∧ t'.context.scanned = ls.flatMap Level.files ∧
      (∀ l ∈ ls, l.Closed st rules t'.bundle t'.context) ∧ t'.context.CurrentIn v' ∧
      Run.Ends T (finish b entry) t' v' (.ok ()) { t' with context := c' } s' := by
  have hmeet : T.Meet (quiet fun s => s.settings = st ∧ c.CurrentIn s) :=
    ⟨fun _ _ _ h => hT.own _ _ h, fun _ _ _ h => hT.others _ _ h, fun _ _ _ => trivial⟩
  obtain ⟨rules, ls, complete, t, v, t', v', hw, hv, ht, rfl, hc, -⟩ :=
    exists_went hmeet ⟨hst, hcur⟩ h
  have hnone : t.context.scanned = [] := by rw [hw.context.scanned, hscanned]; rfl
  have hready : Ready t [entry] := by
    rw [Ready, hw.bundle, hnone]
    rfl
  have hcurrent := (hw.context.sameRun.currentIn_iff · |>.mpr)
  obtain rfl : complete = true := hw.course.complete_of_current hmeet (fun _ hs => hs.1) hv hready
    fun s hs => hcurrent s hs.2
  obtain ⟨hv', hgrown, hprefix, -, hlevels⟩ :=
    hw.course.closed hmeet (fun _ hs => hs.1) hv hready
  refine ⟨rules, ls, t, v, t', v', hw, ht, rfl, (hc rfl).1, ?_, ?_, hlevels, ?_, (hc rfl).2⟩
  · refine Table.get?_of_prefix hprefix ?_
    rw [hw.bundle]
    exact Table.get?_insert_self _ _ _
  · rw [hgrown.scanned, hnone, List.nil_append]
  · exact (hgrown.sameRun.currentIn_iff v').mpr (hcurrent v' hv'.2)

/-- After a fresh build that finishes while it is current, in whatever company: the index has for
every scanned file the last path that was recorded under each literal, so it answers for an import
with its own path exactly if its record was not displaced; and it stays so while nobody else touches
the index. -/
theorem navigates_iff (hT : T.Within (unsuperseded st c)) (hst : s.settings = st)
    (hcur : c.CurrentIn s) (hscanned : c.scanned = []) (hrecords : c.records = ∅)
    (hb : b.usesIndex = true) (h : (build b budget entry content c).Ends T s (.ok bundle, c') s') :
    ∃ rules ls t v t' v' w u, Went T b entry content c rules ls true t v t' v' ∧
      c' = { t'.context with bundle? := some bundle } ∧ Commits T c' w u s' ∧
      (∀ file ∈ c'.scanned, ∀ literal, u.index.lookup file literal =
        (pathsRecorded rules (ls.flatMap Level.imports) file literal).getLast?) ∧
      (∀ r path, (r, some path) ∈ ls.flatMap Level.imports →
        (u.index.Navigates r path ↔ ¬ Displaced rules (ls.flatMap Level.imports) r path)) ∧
      ((∀ s s', T.others s s' → s'.index.data = s.index.data) →
        s'.index.data = u.index.data) := by
  obtain ⟨rules, ls, t, v, t', v', hw, ht, rfl, hc, -, hfiles, hlevels, hcurrent, hfinish⟩ :=
    exists_complete hT hst hcur hscanned h
  obtain ⟨w, u, hcommits⟩ := commits_of_finish hb hcurrent hfinish
  have hnone : t.context.records = ∅ := ht.records.trans hrecords
  have hindex : u.index = t'.context.commit w.index := hcommits.index
  have hlookup : ∀ file ∈ t'.context.scanned, ∀ literal, u.index.lookup file literal =
      (pathsRecorded rules (ls.flatMap Level.imports) file literal).getLast? := by
    intro file hf literal
    rw [hindex, Context.lookup_commit (hw.proper hnone),
      if_pos (Context.mem_committedFiles.mpr (Or.inl hf))]
    exact hw.recordOf hnone file literal
  refine ⟨rules, ls, t, v, t', v', w, u, hw, hc, hc ▸ hcommits, ?_, fun r path hr => ?_, fun ho => ?_⟩
  · rw [hc]
    exact hlookup
  · refine navigates_iff_not_displaced (hlookup r.file ?_ r.path) hr
    rw [hfiles]
    exact (reference_of_mem hlevels hr).1
  · obtain ⟨written, hsave⟩ := hcommits.saved
    exact data_of_save ho hsave

/-! ## A displaced record -/

/-- The terms of a run that is never superseded, while nobody else touches the records of the
index. -/
def undisplaced (st : Settings) (c : Context) : Terms Service Question Question.Answer :=
  { unsuperseded st c with
    others := fun s s' => (s'.settings = st ∧ c.CurrentIn s') ∧ s'.index.data = s.index.data }

lemma undisplaced_within (st : Settings) (c : Context) :
    (undisplaced st c).Within (unsuperseded st c) where
  own _ _ h := h
  others _ _ h := h.1
  answer _ _ h := h
  number _ h := h

/-- A workspace with one file, a registry with one package, and two rules: the first one leads to
where the second one begins. -/
def chainedWorld : Scenario.World where
  service := { settings := {}, index := { path := ".deps/index.json", loaded := true } }
  store := .memory (.ofFiles [("c/x.sol", "")])
  catalog := Table.empty.insert "b" (Table.empty.insert "1.0.0" (Table.empty.insert "x.sol" ""))
  failures := []
  cues := []
  builder := ⟨0, some [⟨"a/", "b/", ""⟩, ⟨"b/", "c/", ""⟩], true⟩
  budget := 8

/-- A source whose first import is remapped to the workspace file, and whose second import is
remapped to the text of the first one. -/
def chainedEntry : String := "import \"b/x.sol\";import \"a/x.sol\";"

/-- A fresh run for this source. -/
def chainedRun : Context := { target := "m.sol" }

/-- The answers in this world. -/
def chainedReply (q : Question) : q.Answer := (Scenario.reply chainedWorld q).1

/-- The work of the only helper: to fetch the package. -/
def fetchChained (s : Service) : Service :=
  (((Cache.deliver ⟨"b", "1.0.0"⟩ 0).alone chainedReply s).map Prod.snd).getD s

lemma fetchChained_keeps (s : Service) :
    Kept s (fetchChained s) ∧ Still s (fetchChained s) := by
  unfold fetchChained
  cases h : (Cache.deliver ⟨"b", "1.0.0"⟩ 0).alone chainedReply s with
  | none => exact ⟨refl_of Kept s, refl_of Still s⟩
  | some r =>
    have hkept := (Cache.lawful_deliver (L := quiet fun _ => True) ⟨"b", "1.0.0"⟩ 0).steady
      (fun _ => trivial) fun _ _ => trivial
    exact ⟨Routine.Steady.alone (R := Kept) hkept h, Routine.Steady.alone (K := Helper) (Cache.still_deliver _ 0) h⟩

/-- The build in this world: its second import comes to a file of the package, and the record of it
is found under the literals of both imports. -/
lemma exists_chained : ∃ bundle c' s',
    (build chainedWorld.builder chainedWorld.budget "m.sol" chainedEntry chainedRun).Ends
      (undisplaced {} chainedRun) chainedWorld.service (.ok bundle, c') s' ∧
      "c/x.sol" ∈ c'.importsOf "m.sol" ∧
      ∀ literal ∈ ["b/x.sol", "a/x.sol"],
        s'.index.lookup "m.sol" literal = some ".deps/npm/b@1.0.0/x.sol" := by
  have hrun : (((build chainedWorld.builder chainedWorld.budget "m.sol" chainedEntry
      chainedRun).aided chainedReply fetchChained chainedWorld.service).map fun r =>
        (r.1.1.toOption.isSome, r.1.2.importsOf "m.sol",
          ["b/x.sol", "a/x.sol"].map fun l => r.2.index.lookup "m.sol" l)) =
      some (true, ["c/x.sol", ".deps/npm/b@1.0.0/x.sol"],
        [some ".deps/npm/b@1.0.0/x.sol", some ".deps/npm/b@1.0.0/x.sol"]) := by
    decide +kernel
  obtain ⟨⟨⟨result, c'⟩, s'⟩, haided, hr⟩ := Option.map_eq_some_iff.mp hrun
  obtain ⟨hok, hr⟩ := Prod.mk.inj hr
  obtain ⟨hgraph, hlookup⟩ := Prod.mk.inj hr
  cases result with
  | error f => exact nomatch hok
  | ok bundle =>
    have hends := Routine.ends_of_aided (T := undisplaced {} chainedRun) (obeys_build _ _ _ _ _)
      ⟨fun _ _ _ h => h, fun _ _ _ h => h.1, fun _ _ h => h⟩
      (fun s t (hs : s.settings = {} ∧ chainedRun.CurrentIn s) hk =>
        ⟨hk.settings.trans hs.1, trivial⟩)
      (fun s hs => ⟨hs, rfl⟩)
      (fun s hs => ⟨⟨(fetchChained_keeps s).1.settings.trans hs.1, trivial⟩,
        (fetchChained_keeps s).2.data⟩)
      (fun _ => trivial) trivial ⟨rfl, trivial⟩ haided
    refine ⟨bundle, c', s', hends, ?_, ?_⟩
    · rw [show c'.importsOf "m.sol" = _ from hgraph]
      exact List.mem_cons_self
    · simpa using hlookup

/-- The index answers for an import of the build in this world with its own path, because no later
record displaces it. -/
theorem navigates_iff_chained :
    ∃ bundle c' s' rules ls t v t' v' w u,
      (build chainedWorld.builder chainedWorld.budget "m.sol" chainedEntry chainedRun).Ends
        (undisplaced {} chainedRun) chainedWorld.service (.ok bundle, c') s' ∧
      Went (undisplaced {} chainedRun) chainedWorld.builder "m.sol" chainedEntry chainedRun rules ls
        true t v t' v' ∧
      c' = { t'.context with bundle? := some bundle } ∧
      Commits (undisplaced {} chainedRun) c' w u s' ∧
      (∀ file ∈ c'.scanned, ∀ literal, u.index.lookup file literal =
        (pathsRecorded rules (ls.flatMap Level.imports) file literal).getLast?) ∧
      (∀ r path, (r, some path) ∈ ls.flatMap Level.imports →
        (u.index.Navigates r path ↔ ¬ Displaced rules (ls.flatMap Level.imports) r path)) ∧
      s'.index.data = u.index.data := by
  obtain ⟨bundle, c', s', h, -, -⟩ := exists_chained
  obtain ⟨rules, ls, t, v, t', v', w, u, hw, hc, hcommits, hlookup, hiff, hdata⟩ :=
    navigates_iff (undisplaced_within {} chainedRun) rfl trivial rfl rfl rfl h
  exact ⟨bundle, c', s', rules, ls, t, v, t', v', w, u, h, hw, hc, hcommits, hlookup, hiff,
    hdata fun _ _ ho => ho.2⟩

/-- The index does not answer for every import with the path that it resolved to, not even while
nobody else touches it. -/
theorem not_navigates_chained :
    ¬ ∀ (st : Settings) (b : Builder) (budget : Nat) (entry content : String) (c c' : Context)
      (s s' : Service) (bundle : Bundle), s.settings = st → c.CurrentIn s → c.scanned = [] →
      c.records = ∅ → b.usesIndex = true → s.index.loaded = true →
      (build b budget entry content c).Ends (undisplaced st c) s (.ok bundle, c') s' →
      ∀ rules ls t v t' v', Went (undisplaced st c) b entry content c rules ls true t v t' v' →
        c' = { t'.context with bundle? := some bundle } →
        ∀ r path, (r, some path) ∈ ls.flatMap Level.imports → s'.index.Navigates r path := by
  intro hall
  obtain ⟨bundle, c', s', h, hgraph, hlookup⟩ := exists_chained
  obtain ⟨rules, ls, t, v, t', v', hw, ht, rfl, hc, hentry, -, hlevels, -, -⟩ :=
    exists_complete (undisplaced_within {} chainedRun) rfl trivial rfl h
  -- the edge to the workspace file comes from one of the two imports
  have hedge : "c/x.sol" ∈ t'.context.importsOf "m.sol" := by
    rw [hc] at hgraph
    exact hgraph
  rcases hw.course.mem_importsOf hedge with hold | ⟨r, hr, hfile⟩
  · rw [ht.importsOf] at hold
    exact nomatch hold
  have hanswer := hall {} chainedWorld.builder _ _ _ chainedRun _ chainedWorld.service _ _ rfl
    trivial rfl rfl rfl rfl h _ _ _ _ _ _ hw hc _ _ hr
  have hliteral : r.path ∈ ["b/x.sol", "a/x.sol"] := by
    have href := (reference_of_mem hlevels hr).2
    rw [hfile, referencesOf, hentry] at href
    have hpaths : (extract chainedEntry "m.sol").map Reference.path = ["b/x.sol", "a/x.sol"] := by
      decide +kernel
    exact hpaths ▸ List.mem_map_of_mem (f := Reference.path) href
  rw [Index.Navigates, hfile, hlookup _ hliteral] at hanswer
  rcases List.mem_cons.mp hliteral with hp | hp
  · rw [hp] at hanswer
    exact absurd hanswer (by decide)
  · rw [List.mem_singleton.mp hp] at hanswer
    exact absurd hanswer (by decide)

end Bundle

end SourceBundle
