/-
# Builds that are complete

A build that ends without a fault either has been stopped, because its run was no longer current,
or it is complete.  The bundle of a complete build is closed: it has the entry as it was given, all
its files have been scanned, each of them in one level, and every import of every file resolved to
a file of the bundle or was skipped with a warning.
-/
import SourceBundle.Proofs.Bundle.Closure
import SourceBundle.Proofs.Bundle.Records
import SourceBundle.Proofs.Bundle.SameRun
import SourceBundle.Proofs.Routine.Alone
import SourceBundle.Scenario.Collaborators

namespace SourceBundle.Bundle

open SourceBundle.Import SourceBundle.Text

variable {T : Terms Service Question Question.Answer} {S : Service → Prop} {st : Settings}
  {rules : List Remapping} {shelf budget : Nat} {entry content : String} {t t' : Traversal}
  {s s' : Service} {b : Builder} {bundle : Bundle} {c c' : Context}

/-! ## The course of a build -/

/-- To finish a traversal notes its bundle in the context, and does nothing else to it. -/
lemma eq_of_finish {a : Unit} (h : Run.Ends T (finish b entry) t s (.ok a) t' s') :
    t' = { t with context := { t.context with bundle? := some t.bundle } } := by
  obtain ⟨_, _, _, hg, h₁⟩ := Run.ends_bind_ok.mp h
  obtain ⟨⟨⟩, rfl, rfl⟩ := Run.ends_get.mp hg
  obtain ⟨_, _, _, hm, h₂⟩ := Run.ends_bind_ok.mp h₁
  obtain ⟨-, rfl, rfl⟩ := Run.ends_modify.mp hm
  obtain ⟨_, _, v, hl, h₃⟩ := Run.ends_bind_ok.mp h₂
  obtain ⟨_, -, -, rfl⟩ := Stateful.ends_work.mp hl
  obtain ⟨_, _, _, hg', h₄⟩ := Run.ends_bind_ok.mp h₃
  obtain ⟨⟨⟩, rfl, rfl⟩ := Run.ends_get.mp hg'
  split at h₄
  · obtain ⟨committed, _, w, hc, h₅⟩ := Run.ends_bind_ok.mp h₄
    obtain ⟨_, -, -, rfl⟩ := Stateful.ends_work.mp hc
    split at h₅
    · obtain ⟨_, _, x, hs, h₆⟩ := Run.ends_bind_ok.mp h₅
      obtain ⟨-, rfl⟩ := Run.ends_lift.mp hs
      exact (Run.ends_pure.mp h₆).2.1
    · exact (Run.ends_pure.mp h₅).2.1
  · exact (Run.ends_pure.mp h₄).2.1

lemma eq_of_rulesOf {given : List Remapping} (hb : b.remappings? = some given)
    (h : Run.Ends T (rulesOf b) t s (.ok rules) t' s') : rules = given := by
  rw [rulesOf, hb] at h
  exact Except.ok.inj (Run.ends_pure.mp h).1

/-- A prepared traversal has the entry as its only file, and follows the remappings that the
builder is given, if it is given any. -/
lemma ready_of_prepare (hT : T.Meet (quiet S)) (hs : S s)
    (h : Run.Ends T (prepare b entry content) t s (.ok rules) t' s') :
    S s' ∧ (∀ given, b.remappings? = some given → rules = given) ∧
      t.context.Grows t'.context ∧ t'.bundle = Table.empty.insert entry content := by
  unfold prepare at h
  split at h
  case' isTrue =>
    obtain ⟨_, _, v, hl, h₀⟩ := Run.ends_bind_ok.mp h
    obtain ⟨hload, rfl⟩ := Run.ends_lift.mp hl
    replace hs : S v := (Routine.Obeys.ends Index.lawful_load hT hs hload).2
  case' isFalse => have h₀ := h
  all_goals
    obtain ⟨_, u, w, hr, h₁⟩ := Run.ends_bind_ok.mp h₀
    have hu := (notes_rulesOf b).ends hT hs hr
    obtain ⟨_, _, _, hg, h₂⟩ := Run.ends_bind_ok.mp h₁
    obtain ⟨⟨⟩, rfl, rfl⟩ := Run.ends_get.mp hg
    obtain ⟨_, x, y, hw, h₃⟩ := Run.ends_bind_ok.mp h₂
    have hx := (notes_collecting (Resolve.keeps_ofWorkspace _ _)).ends hT hu.2 hw
    obtain ⟨_, _, _, hm, h₄⟩ := Run.ends_bind_ok.mp h₃
    obtain ⟨-, rfl, rfl⟩ := Run.ends_modify.mp hm
    obtain ⟨⟨⟩, rfl, rfl⟩ := Run.ends_pure.mp h₄
    exact ⟨hx.2, fun given hb => eq_of_rulesOf hb hr,
      trans_of Context.Grows hu.1.grows.context hx.1.grows.context, rfl⟩

/-- The course of a build: it goes by the remappings that the builder is given, if any, and begins
with the entry as the only file. -/
structure Went (T : Terms Service Question Question.Answer) (b : Builder) (entry content : String)
    (c : Context) (rules : List Remapping) (ls : List Level) (complete : Bool) (t : Traversal)
    (s : Service) (t' : Traversal) (s' : Service) : Prop where
  given : ∀ given, b.remappings? = some given → rules = given
  context : c.Grows t.context
  bundle : t.bundle = Table.empty.insert entry content
  course : Course T b.shelf rules entry 0 [entry] t s ls complete t' s'

/-- A traversal that has been prepared and comes to its end has had a course. -/
theorem exists_went_of_parts {complete : Bool} {v v' : Service} (hT : T.Meet (quiet S)) (hs : S s)
    (hp : Run.Ends T (prepare b entry content) { context := c } s (.ok rules) t v)
    (ht : Run.Ends T (traverse b.shelf rules entry budget 0 [entry]) t v (.ok complete) t' v') :
    S v ∧ Traversal.SameNotes { context := c } t ∧
      ∃ ls, Went T b entry content c rules ls complete t v t' v' := by
  obtain ⟨hv, hgiven, hc, hb⟩ := ready_of_prepare hT hs hp
  obtain ⟨ls, hls⟩ := exists_course ht
  exact ⟨hv, ((sameNotes_prepare b entry content).ends hT hs hp).1, ls, hgiven, hc, hb, hls⟩

/-- A build that ends without a fault has been prepared, and its traversal has come to its end.  If
the traversal was complete, it was finished, and its bundle is noted in the context; if it was stopped,
nothing happened afterwards. -/
theorem parts_of_build (h : (build b budget entry content c).Ends T s (.ok bundle, c') s') :
    ∃ rules t v complete t' v',
      Run.Ends T (prepare b entry content) { context := c } s (.ok rules) t v ∧
      Run.Ends T (traverse b.shelf rules entry budget 0 [entry]) t v (.ok complete) t' v' ∧
      bundle = t'.bundle ∧
      (complete = true → c' = { t'.context with bundle? := some bundle } ∧
        Run.Ends T (finish b entry) t' v' (.ok ()) { t' with context := c' } s') ∧
      (complete = false → c' = t'.context ∧ s' = v') := by
  obtain ⟨⟨r, w⟩, x, hrun, he, rfl⟩ := Routine.ends_bind.mp h
  obtain ⟨rfl, rfl⟩ := Prod.mk.inj he
  obtain ⟨rules, t, v, hp, h₁⟩ := Run.ends_bind_ok.mp hrun
  obtain ⟨complete, t', v', ht, h₂⟩ := Run.ends_bind_ok.mp h₁
  refine ⟨rules, t, v, complete, t', v', hp, ht, ?_⟩
  -- only a complete traversal is finished; a stopped one gives its bundle as it stands
  cases complete with
  | true =>
    obtain ⟨_, u, _, hf, h₃⟩ := Run.ends_bind_ok.mp h₂
    obtain rfl := eq_of_finish hf
    obtain ⟨_, _, _, hg, h₄⟩ := Run.ends_bind_ok.mp h₃
    obtain ⟨⟨⟩, rfl, rfl⟩ := Run.ends_get.mp hg
    obtain ⟨⟨⟩, rfl, rfl⟩ := Run.ends_pure.mp h₄
    exact ⟨rfl, fun _ => ⟨rfl, hf⟩, nofun⟩
  | false =>
    obtain ⟨_, _, _, hg, h₄⟩ := Run.ends_bind_ok.mp h₂
    obtain ⟨⟨⟩, rfl, rfl⟩ := Run.ends_get.mp hg
    obtain ⟨⟨⟩, rfl, rfl⟩ := Run.ends_pure.mp h₄
    exact ⟨rfl, nofun, fun _ => ⟨rfl, rfl⟩⟩

/-- A build that ends without a fault has had a course. -/
theorem exists_went (hT : T.Meet (quiet S)) (hs : S s)
    (h : (build b budget entry content c).Ends T s (.ok bundle, c') s') :
    ∃ rules ls complete t v t' v', Went T b entry content c rules ls complete t v t' v' ∧ S v ∧
      Traversal.SameNotes { context := c } t ∧ bundle = t'.bundle ∧
      (complete = true → c' = { t'.context with bundle? := some bundle } ∧
        Run.Ends T (finish b entry) t' v' (.ok ()) { t' with context := c' } s') ∧
      (complete = false → c' = t'.context ∧ s' = v') := by
  obtain ⟨rules, t, v, complete, t', v', hp, ht, hend⟩ := parts_of_build h
  obtain ⟨hv, hnotes, ls, hwent⟩ := exists_went_of_parts hT hs hp ht
  exact ⟨rules, ls, complete, t, v, t', v', hwent, hv, hnotes, hend⟩

/-! ## Complete builds -/

/-- A bundle is closed, as far as the levels of its traversal and the context of its run tell. -/
structure Closed (st : Settings) (rules : List Remapping) (entry content : String)
    (bundle : Bundle) (c : Context) (ls : List Level) : Prop where
  entry : bundle.get? entry = some content
  /-- Every file belongs to exactly one level. -/
  levels : ls.flatMap Level.files = bundle.keys ∧ bundle.keys.Nodup
  scanned : c.scanned = bundle.keys
  /-- Every import has been followed in the level of its file, and is settled. -/
  imports : ∀ f ∈ bundle.keys, ∀ r ∈ referencesOf bundle f, ∃ path?,
    (∃ l ∈ ls, f ∈ l.files ∧ (r, path?) ∈ l.imports) ∧ Settled st rules bundle c (r, path?)

/-- A complete build of a fresh run is closed. -/
theorem Went.closed {ls : List Level} (hT : T.Meet (quiet S)) (hS : ∀ s, S s → s.settings = st)
    (hw : Went T b entry content c rules ls true t s t' s') (hs : S s) (hc : c.scanned = []) :
    Closed st rules entry content t'.bundle t'.context ls := by
  have hscanned : t.context.scanned = [] := by rw [hw.context.scanned, hc]; rfl
  have hready : Ready t [entry] := by
    rw [Ready, hw.bundle, hscanned]
    rfl
  obtain ⟨-, hg, hb, hr, hls⟩ := hw.course.closed hT hS hs hready
  have hkeys : t'.bundle.keys = t'.context.scanned := by
    rw [hr rfl, List.append_nil]
  have hlevels : ls.flatMap Level.files = t'.bundle.keys := by
    rw [hkeys, hg.scanned, hscanned, List.nil_append]
  refine ⟨?_, ⟨hlevels, t'.bundle.distinct⟩, hkeys.symm, ?_⟩
  · refine Table.get?_of_prefix hb ?_
    rw [hw.bundle]
    exact Table.get?_insert_self _ _ _
  · intro f hf r hr
    obtain ⟨l, hl, hfl⟩ := List.mem_flatMap.mp (hlevels ▸ hf)
    have hmem : r ∈ l.imports.map Prod.fst := by
      rw [(hls l hl).imports]
      exact List.mem_flatMap.mpr ⟨f, hfl, hr⟩
    obtain ⟨⟨_, path?⟩, hi, rfl⟩ := List.mem_map.mp hmem
    exact ⟨path?, ⟨l, hl, hfl, hi⟩, (hls l hl).settled _ hi⟩

/-- The note of the bundle in the context changes nothing about the closure. -/
lemma Closed.noteBundle {ls : List Level} (h : Closed st rules entry content bundle c ls)
    (bundle? : Option Bundle) :
    Closed st rules entry content bundle { c with bundle? := bundle? } ls where
  entry := h.entry
  levels := h.levels
  scanned := h.scanned
  imports f hf r hr := by
    obtain ⟨_ | path, hl, hi⟩ := h.imports f hf r hr
    · exact ⟨none, hl, hi⟩
    · exact ⟨some path, hl, hi⟩

/-- A traversal is not stopped while its run is current. -/
theorem Course.complete_of_current {depth : Nat} {level : List String} {ls : List Level}
    {complete : Bool} (hT : T.Meet (quiet S)) (hS : ∀ s, S s → s.settings = st)
    (h : Course T shelf rules entry depth level t s ls complete t' s') (hs : S s)
    (hr : Ready t level) (hcur : ∀ s, S s → t.context.CurrentIn s) : complete = true := by
  induction h with
  | complete => rfl
  | stopped hc => exact (Work.current_iff_of_ends hc).mpr (hcur _ hs)
  | level hc hscan hcomp _ ih =>
    -- the context has grown in the level, but it is still that of the same run
    have hv := ((Work.lawful_contextIsCurrent _).ends hT hs hc).2
    obtain ⟨hy, hg, -, hr', -⟩ := closed_of_level hT hS hv hr hscan hcomp
    exact ih hy hr' fun s hs => (hg.sameRun.currentIn_iff s).mpr (hcur s hs)

/-- The terms of a run that is never superseded: neither its own steps nor those of others change
the settings, and it is current after all of them.  The collaborators give any answers. -/
def unsuperseded (st : Settings) (c : Context) : Terms Service Question Question.Answer where
  own _ s := s.settings = st ∧ c.CurrentIn s
  others _ s := s.settings = st ∧ c.CurrentIn s
  answer _ _ := True
  number _ := True

lemma unsuperseded_meet (st : Settings) (c : Context) :
    (unsuperseded st c).Meet (quiet fun s => s.settings = st ∧ c.CurrentIn s) where
  own _ _ _ h := h
  others _ _ _ h := h
  answer _ _ h := h

/-- The bundle of a fresh run that is never superseded is closed. -/
theorem build_closed (hst : s.settings = st) (hcur : c.CurrentIn s) (hnew : c.scanned = [])
    (h : (build b budget entry content c).Ends (unsuperseded st c) s (.ok bundle, c') s') :
    ∃ rules ls t v t' v', Went (unsuperseded st c) b entry content c rules ls true t v t' v' ∧
      Closed st rules entry content bundle c' ls := by
  have hT := unsuperseded_meet st c
  obtain ⟨rules, ls, complete, t, v, t', v', hw, hv, -, hb, hc, -⟩ :=
    exists_went hT ⟨hst, hcur⟩ h
  have hready : Ready t [entry] := by
    rw [Ready, hw.bundle, hw.context.scanned, hnew]
    rfl
  obtain rfl : complete = true := hw.course.complete_of_current hT (fun _ hs => hs.1) hv hready
    fun s hs => (hw.context.sameRun.currentIn_iff s).mpr hs.2
  obtain ⟨rfl, -⟩ := hc rfl
  subst hb
  exact ⟨rules, ls, t, v, t', v', hw, (hw.closed hT (fun _ hs => hs.1) hv hnew).noteBundle _⟩

/-- A workspace with one file, whose import names no package, and a builder without remappings that
does not use the index. -/
def smallWorld : Scenario.World where
  service := { settings := {}, index := { path := "" } }
  store := .memory (.ofFiles [("lib/b.sol", "import \"@b\";")])
  catalog := ∅
  failures := []
  cues := []
  builder := ⟨0, some [], false⟩
  budget := 8

/-- A source that imports the file of the small world. -/
def smallEntry : String := "import \"./lib/b.sol\";"

/-- A fresh run for the entry of the small world. -/
def smallRun : Context := { target := "a.sol" }

theorem build_closed_small :
    ∃ bundle c' s', bundle.keys = ["a.sol", "lib/b.sol"] ∧
      (build smallWorld.builder smallWorld.budget "a.sol" smallEntry smallRun).Ends
        (unsuperseded {} smallRun) smallWorld.service (.ok bundle, c') s' ∧
      ∃ rules ls t v t' v',
        Went (unsuperseded {} smallRun) smallWorld.builder "a.sol" smallEntry smallRun rules ls true
          t v t' v' ∧
        Closed {} rules "a.sol" smallEntry bundle c' ls := by
  have hkeys : (((build smallWorld.builder smallWorld.budget "a.sol" smallEntry smallRun).alone
      (fun q => (Scenario.reply smallWorld q).1) smallWorld.service).map
        fun r => r.1.1.toOption.map Table.keys) = some (some ["a.sol", "lib/b.sol"]) := by
    decide +kernel
  obtain ⟨⟨⟨result, c'⟩, s'⟩, halone, hr⟩ := Option.map_eq_some_iff.mp hkeys
  obtain ⟨bundle, hb, hk⟩ := Option.map_eq_some_iff.mp hr
  cases result with
  | error f => exact nomatch hb
  | ok bundle' =>
    obtain rfl := Option.some.inj hb
    have hends := Routine.ends_of_alone (obeys_build _ _ _ _ _) (unsuperseded_meet {} smallRun)
      (fun s t hs hk => ⟨hk.settings.trans hs.1, trivial⟩) (fun s hs => hs) (fun _ => trivial)
      ⟨rfl, trivial⟩ halone
    exact ⟨bundle', c', s', hk, hends, build_closed rfl trivial rfl hends⟩

end SourceBundle.Bundle
