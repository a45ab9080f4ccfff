/-
# A build has finitely many levels

A workspace in memory has finitely many files, and a registry publishes finitely many packages.  As a
build writes nothing but files of published packages, each at its place, no other texts come to be read,
and the paths to which these lead are finitely many: the places of the files, under their normal forms,
and the imports of the texts, as they are or as a rule remaps them.  No path comes on a level twice, so
there are not more levels than such paths; and each level comes to its end.
-/
import SourceBundle.Proofs.Bundle.Finish
import SourceBundle.Proofs.Bundle.Restock
import SourceBundle.Proofs.Path
import SourceBundle.Proofs.Service.Play

namespace SourceBundle

open SourceBundle.Import SourceBundle.Text

/-! ## Imports as they are remapped -/

namespace Import

/-- The literals of the imports of a text. -/
def imported (text : String) : List String := (extract text ".sol").map Reference.path

lemma path_mem_imported {text file : String} {r : Reference} (h : r ∈ extract text file) :
    r.path ∈ imported text := by
  unfold extract at h
  split at h
  · obtain ⟨span, hspan, rfl⟩ := List.mem_map.mp h
    refine List.mem_map.mpr ⟨⟨".sol", String.ofList (span.cut text.toList), span⟩, ?_, rfl⟩
    unfold extract
    rw [if_pos (by decide)]
    exact List.mem_map.mpr ⟨span, hspan, rfl⟩
  · exact nomatch h

/-- An import as it is, and as each of some rules remaps it. -/
def spelled (rules : List Remapping) (literal : String) : List String :=
  literal :: rules.filterMap fun r => r.remapped? literal

lemma remap_mem_spelled {rules all : List Remapping} (h : ∀ r ∈ rules, r ∈ all) (literal : String) :
    (remap rules literal).1 ∈ spelled all literal := by
  unfold remap
  split
  · exact List.mem_cons_self
  · split
    · next hf =>
      obtain ⟨rule, hrule, hmap⟩ := List.exists_of_findSome?_eq_some hf
      obtain ⟨t, ht, hpair⟩ := Option.map_eq_some_iff.mp hmap
      obtain ⟨rfl, rfl⟩ := Prod.mk.inj hpair
      exact List.mem_cons_of_mem _ (List.mem_filterMap.mpr ⟨_, h _ hrule, ht⟩)
    · exact List.mem_cons_self

end Import

open Bundle

/-! ## The paths to which a stock leads -/

namespace Stock

/-- The paths to which a build can come that begins with an entry file. -/
def paths (K : Stock) (b : Builder) (entry content : String) : List String :=
  entry :: (K.places.flatMap Workspace.Memory.spellings ++
    K.nodes.flatMap (fun n => n.files.keys.map (n.pathFor K.settings)) ++
    (content :: K.texts).flatMap fun text => (imported text).flatMap (spelled (b.rulesIn K)))

theorem encloses (K : Stock) {b : Builder} {rules : List Remapping} (h : ∀ r ∈ rules, r ∈ b.rulesIn K)
    (entry content : String) :
    Encloses K.terms K.settings rules K.nodes (K.paths b entry content) (content :: K.texts) where
  read path text ha := List.mem_cons_of_mem _ ha.2
  normal path text ha := by
    refine List.mem_cons_of_mem _ (List.mem_append_left _ (List.mem_append_left _ ?_))
    exact List.mem_flatMap.mpr ⟨_, ha.1, Workspace.Memory.mem_spellings path⟩
  named text htext file r hr := by
    refine List.mem_cons_of_mem _ (List.mem_append_right _ (List.mem_flatMap.mpr ⟨text, htext, ?_⟩))
    exact List.mem_flatMap.mpr ⟨r.path, path_mem_imported hr, remap_mem_spelled h r.path⟩
  fetched n hn path text hf := by
    have hkey : path ∈ n.files.keys := Table.get?_isSome_iff.mp ⟨text, hf⟩
    refine ⟨?_, List.mem_cons_of_mem _ (K.stored n hn path text hf).2⟩
    refine List.mem_cons_of_mem _ (List.mem_append_left _ (List.mem_append_right _ ?_))
    exact List.mem_flatMap.mpr ⟨n, hn, List.mem_map_of_mem hkey⟩

end Stock

variable {K : Stock} {b : Builder} {budget : Nat} {entry content : String} {c : Context}

namespace Bundle

/-- The files of the bundle are the same. -/
def Traversal.SameBundle (t t' : Traversal) : Prop := t'.bundle = t.bundle

instance : IsPreorder Traversal Traversal.SameBundle where
  refl _ := rfl
  trans _ _ _ h h' := Eq.trans h' h

/-- To finish a traversal adds no files. -/
lemma sameBundle_finish (b : Builder) (entry : String) :
    Run.Keeps Law.free Traversal.SameBundle (finish b entry) := by
  refine Run.Keeps.get.bind fun t => ?_
  refine Run.Keeps.bind (Run.Keeps.modify fun t => rfl) fun _ => ?_
  refine (Stateful.keeps_work (Routine.lawful_free _)).bind fun _ => Run.Keeps.get.bind fun t => ?_
  split
  · refine (Stateful.keeps_work (Routine.lawful_free _)).bind fun committed => ?_
    split
    · exact (Stateful.keeps_task (Routine.lawful_free _)).bind fun _ => Run.Keeps.pure _
    · exact Run.Keeps.pure _
  · exact Run.Keeps.pure _

/-- A build whose journey has come to its end has the bundle of this journey as its result, or fails. -/
lemma bundle_of_conclude (b : Builder) (entry : String) (complete : Bool) (t : Traversal) :
    (conclude b entry (.ok complete, t)).Obeys Law.free fun r =>
      ∀ bundle, r.1 = .ok bundle → bundle = t.bundle := by
  have hend : Run.Obeys Law.free (do pure (← getThe Traversal).bundle : Traversing Bundle)
      fun t r _ => ∀ bundle, r = .ok bundle → bundle = t.bundle := by
    rintro u _ ⟨⟩
    rfl
  have harrive : Run.Obeys Law.free (arrive b entry complete)
      fun t r _ => ∀ bundle, r = .ok bundle → bundle = t.bundle := by
    cases complete with
    | false => exact hend
    | true =>
      refine Run.Obeys.bind (sameBundle_finish b entry) (fun _ => hend) (fun _ _ _ _ => nofun) ?_
      exact fun t _ u r _ hu hr bundle hok => (hr bundle hok).trans hu
  exact Routine.Obeys.bind (harrive t) fun _ h => h

/-- What is to be told of a build that has a result: its preparation has failed, or it has gone through
levels, not more than some number, and has halted before its budget was spent.  If it has not failed,
its bundle is the one that the levels have made up. -/
def Leveled (K : Stock) (b : Builder) (bound : Nat) (entry content : String) (c : Context)
    (r : Except Fault Bundle) : Prop :=
  (∃ f s t s', Run.Ends K.terms (prepare b entry content) { context := c } s (.error f) t s' ∧
    r = .error f) ∨
  ∃ rules s₀ t s ps left u v result t' s',
    Run.Ends K.terms (prepare b entry content) { context := c } s₀ (.ok rules) t s ∧
      Levels K.terms b.shelf rules bound entry t s ps left u v ∧
      Halts K.terms b.shelf rules entry ps.length u v left result t' s' ∧
      (∀ f, result = .error f → r = .error f) ∧ ∀ bundle, r = .ok bundle → bundle = u.bundle

/-- A build whose budget is not less than the number of the paths to which it can come goes through
levels. -/
theorem leveled_of_journey {s s' : Service} {p : Except Fault Bool × Traversal}
    (hb : (K.paths b entry content).length ≤ budget) (hs : K.pact.Accords s)
    (h : ((journey b budget entry content).run { context := c }).Ends K.terms s p s') :
    (conclude b entry p).Obeys Law.free fun r =>
      Leveled K b (K.paths b entry content).length entry content c r.1 := by
  obtain ⟨result, t'⟩ := p
  rcases Run.ends_bind.mp h with ⟨f, hp, rfl⟩ | ⟨rules, t, v, hp, ht⟩
  · exact Or.inl ⟨f, s, t', s', hp, rfl⟩
  · have hrules := (yields_prepare b entry content).ends K.meets hs hp
    obtain ⟨hv, -, -, hbundle⟩ := ready_of_prepare K.meets_quiet hs hp
    obtain ⟨ps, left, u, x, hlevels, hhalts⟩ := exists_levels K.meets_quiet (fun _ h => h.choose_spec.1)
      (fun _ h => h.choose_spec.2.delivered) (K.encloses hrules entry content) hv hbundle
      List.mem_cons_self List.mem_cons_self hb ht
    cases result with
    | ok complete =>
      obtain rfl := hhalts.eq_of_ok
      exact (bundle_of_conclude b entry complete t').imp fun r hr =>
        Or.inr ⟨rules, s, t, v, ps, left, t', x, _, t', s', hp, hlevels, hhalts, nofun, hr⟩
    | error f =>
      refine Or.inr ⟨rules, s, t, v, ps, left, u, x, _, t', s', hp, hlevels, hhalts, ?_, nofun⟩
      exact fun _ h => congrArg Except.error (Except.error.inj h)

end Bundle

/-! ## Finite worlds -/

namespace Scenario.World

variable {R P : Type} {w : World} {m : Workspace.Memory}

/-- The packages that are published. -/
def nodes (w : World) : List Node :=
  w.catalog.entries.flatMap fun e => e.2.entries.map fun v => ⟨⟨e.1, v.1⟩, v.2⟩

lemma mem_nodes {name version : String} {files : Table String String}
    (h : publishedFiles w name version = .ok files) : ⟨⟨name, version⟩, files⟩ ∈ w.nodes := by
  unfold publishedFiles at h
  split at h
  · next found hfound =>
    obtain rfl := Except.ok.inj h
    obtain ⟨versions, hname, hversion⟩ := Option.bind_eq_some_iff.mp hfound
    exact List.mem_flatMap.mpr ⟨_, Table.get?_eq_some_iff.mp hname,
      List.mem_map.mpr ⟨_, Table.get?_eq_some_iff.mp hversion, rfl⟩⟩
  · exact nomatch h

/-- What a build can come by in a world whose workspace is in memory. -/
def stock (w : World) (m : Workspace.Memory) : Stock where
  settings := w.service.settings
  nodes := w.nodes
  places := m.files.keys ++ w.nodes.flatMap fun n =>
    n.files.keys.map fun path => Workspace.Memory.normal (n.pathFor w.service.settings path)
  texts := m.files.values ++ w.nodes.flatMap fun n => n.files.values
  stored n hn path text hf := by
    have hentry := Table.get?_eq_some_iff.mp hf
    refine ⟨List.mem_append_right _ (List.mem_flatMap.mpr ⟨n, hn, List.mem_map_of_mem ?_⟩),
      List.mem_append_right _ (List.mem_flatMap.mpr ⟨n, hn, ?_⟩)⟩
    · exact List.mem_map_of_mem hentry
    · exact List.mem_map_of_mem hentry

/-- The answers of a history are those of a world, in the order in which they have been given; but any
call may also have failed. -/
def Tells (w : World) : List (Event Question Question.Answer R P) → Prop
  | [] => True
  | .answered _ q a :: h => (a = w.answer h q ∨ ∃ f, a = .error f) ∧ w.Tells h
  | _ :: h => w.Tells h

/-- After a history the workspace has texts of a stock only, at places of the stock. -/
def Stocked (w : World) (K : Stock) (h : List (Event Question Question.Answer R P)) : Prop :=
  ∃ m, (w.after h).store = .memory m ∧
    ∀ place text, m.files.get? place = some text → place ∈ K.places ∧ text ∈ K.texts

lemma catalog_reply (w : World) (q : Question) : (reply w q).2.catalog = w.catalog := by
  cases q <;> rfl

lemma catalog_after (w : World) (h : List (Event Question Question.Answer R P)) :
    (w.after h).catalog = w.catalog := by
  induction h with
  | nil => rfl
  | cons e h ih =>
    cases e with
    | answered id q a => exact (catalog_reply _ q).trans ih
    | _ => exact ih

lemma publishedFiles_after (w : World) (h : List (Event Question Question.Answer R P))
    (name version : String) : publishedFiles (w.after h) name version = publishedFiles w name version := by
  unfold publishedFiles
  rw [catalog_after]

lemma Tells.earlier {e : Event Question Question.Answer R P} {h : List (Event Question Question.Answer R P)}
    (ht : w.Tells (e :: h)) : w.Tells h := by
  cases e with
  | answered id q a => exact ht.2
  | _ => exact ht

/-- Only published packages come from a world. -/
lemma Tells.hears {h : List (Event Question Question.Answer R P)} (ht : w.Tells h) :
    (w.stock m).pact.Hears h := by
  intro id q a hmem
  induction h with
  | nil => exact nomatch hmem
  | cons e h ih =>
    rcases List.mem_cons.mp hmem with rfl | hmem
    · cases q with
      | files name version =>
        rintro n hn
        rcases ht.1 with rfl | ⟨f, rfl⟩
        · have hanswer : w.answer h (.files name version) = publishedFiles w name version :=
            publishedFiles_after w h name version
          rw [hanswer] at hn
          cases hf : publishedFiles w name version with
          | error f =>
            rw [hf] at hn
            exact nomatch hn
          | ok files =>
            rw [hf] at hn
            obtain rfl := Except.ok.inj hn
            exact mem_nodes hf
        · exact nomatch hn
      | _ => trivial
    · exact ih ht.earlier hmem

/-- Who writes nothing but files of the packages keeps the workspace within the stock, and reads what
is in stock. -/
lemma careful (w : World) (m : Workspace.Memory) :
    Crowd.Careful (R := R) (P := P) (w.stock m).pact (w.stock m).law w.Tells (w.Stocked (w.stock m)) where
  state _ h := h
  helped := rfl
  notes e h hne hclean := by
    cases e with
    | answered id q a => exact absurd rfl (hne id q a)
    | _ => exact hclean
  answers id q a h := by
    rintro ⟨m', hstore, hfiles⟩ hq ⟨ha, -⟩
    cases q with
    | read path =>
      refine ⟨⟨m', hstore, hfiles⟩, ?_⟩
      cases a with
      | error f => trivial
      | ok text =>
        rcases ha with ha | ⟨f, hf⟩
        · have hanswer : w.answer h (.read path) = (m'.read path).mapError .workspace := by
            show (w.after h).store.read path = _
            rw [hstore]
            rfl
          rw [hanswer, Workspace.Memory.read] at ha
          split at ha
          · next content hread =>
            obtain rfl := Except.ok.inj ha
            exact hfiles _ _ hread
          · exact nomatch ha
        · exact nomatch hf
    | write path content =>
      obtain ⟨n, hn, sub, hsub, rfl⟩ := hq
      refine ⟨⟨m'.write (n.pathFor w.service.settings sub) content, ?_, fun place text hget => ?_⟩, trivial⟩
      · show (reply (w.after h) (.write _ _)).2.store = _
        unfold reply
        rw [hstore]
        rfl
      · have hstored := (w.stock m).stored n hn sub content hsub
        by_cases hplace : Workspace.Memory.normal (n.pathFor w.service.settings sub) = place
        · subst hplace
          obtain rfl := Option.some.inj ((Table.get?_insert_self _ _ _).symm.trans hget)
          exact hstored
        · exact hfiles place text ((Table.get?_insert_ne _ hplace _).symm.trans hget)
    | mkdir path =>
      refine ⟨⟨m'.mkdir path, ?_, fun place text hget => hfiles place text ?_⟩, trivial⟩
      · show (reply (w.after h) (.mkdir _)).2.store = _
        unfold reply
        rw [hstore]
        rfl
      · unfold Workspace.Memory.mkdir at hget
        split at hget <;> exact hget
    | _ => exact ⟨⟨m', hstore, hfiles⟩, trivial⟩

lemma stocked_begun (hm : w.store = .memory m) (id : Nat) (r : R) :
    w.Stocked (P := P) (w.stock m) [.begun id r] := by
  refine ⟨m, hm, fun place text hget => ?_⟩
  have hentry := Table.get?_eq_some_iff.mp hget
  exact ⟨List.mem_append_left _ (List.mem_map_of_mem hentry),
    List.mem_append_left _ (List.mem_map_of_mem hentry)⟩

end Scenario.World

namespace Bundle

open Crowd

/-- In a finite world a build that nobody else disturbs comes to its end, after not more levels than
there are paths to which it can come. -/
theorem build_levels {w : Scenario.World} {m : Workspace.Memory} (hm : w.store = .memory m)
    (hidle : w.service.Idle) (hs : (w.stock m).pact.Accords w.service) (b : Builder)
    (entry content : String) {budget : Nat}
    (hb : ((w.stock m).paths b entry content).length ≤ budget) (c : Context) :
    Inevitable (fun d => ∃ r, .returned 0 r ∈ d.history)
      (started w.service (build b budget entry content c)) ∧
    ∀ d, Relation.ReflTransGen Turn (started w.service (build b budget entry content c)) d →
      w.Tells d.history → ∀ id r, .returned id r ∈ d.history →
        Leveled (w.stock m) b ((w.stock m).paths b entry content).length entry content c r.1 := by
  have hhonors : ∀ orders, (build b budget entry content c).Honors (w.stock m).pact orders
      fun _ _ => True := fun orders =>
    Cache.honors_of_considerate (fun _ => nofun) (spares_build b budget entry content c)
  constructor
  · have hbegun : Deserted Index.AtRest ({
        state := w.service, fresh := 1, history := [.begun 0 ()] } :
        Users Unit (Except Fault Bundle × Context)) :=
      ⟨rfl, hidle.inflight, hidle.numbers, hidle.index⟩
    have hends := finishes_build b budget entry content c _ _ 0 _ hbegun _ .done some
    rw [Routine.bind_done] at hends
    refine hends.imp ?_
    rintro d (hno | ⟨r, c', -, rfl⟩)
    · exact hno.elim
    · exact ⟨r, List.mem_cons_self⟩
  · rw [build_eq_bind] at hhonors ⊢
    intro d hturns htells id r hr
    have hlevels : ∀ p s s', (w.stock m).pact.Accords s → (w.stock m).pact.Accords s' →
        ((journey b budget entry content).run { context := c }).Ends (w.stock m).terms s p s' →
        (conclude b entry p).Obeys Law.free fun r =>
          Leveled (w.stock m) b ((w.stock m).paths b entry content).length entry content c r.1 :=
      fun p s s' hs _ h => leveled_of_journey hb hs h
    exact returned_of_turns (w.careful m)
      ⟨fun _ _ => Scenario.World.Tells.earlier, fun _ => Scenario.World.Tells.hears⟩ hlevels
      (lawful_journey b budget entry content _) hhonors hs (Scenario.World.stocked_begun hm 0 ()) hturns
      htells hr

/-- Two files that import each other. -/
def circularFiles : Workspace.Memory :=
  .ofFiles [("a.sol", "import \"./b.sol\";"), ("b.sol", "import \"./a.sol\";")]

/-- Two files of the workspace import each other, and so do two packages of the registry. -/
def circularWorld : Scenario.World where
  service := { settings := {}, index := { path := ".deps/index.json", loaded := true } }
  store := .memory circularFiles
  catalog := (Table.empty.insert "p" (Table.empty.insert "1.0.0"
    (Table.empty.insert "x.sol" "import \"q/y.sol\";"))).insert "q" (Table.empty.insert "2.0.0"
    (Table.empty.insert "y.sol" "import \"p/x.sol\";"))
  failures := []
  cues := []
  builder := ⟨0, none, true⟩
  budget := 64

/-- A file that imports itself, one of the two files and one of the two packages. -/
def circularSource : String := "import \"./m.sol\";import \"./a.sol\";import \"p/x.sol\";"

/-- The build of a source that is in a circle with itself goes through levels and ends. -/
theorem build_levels_circular :
    circularWorld.store = .memory circularFiles ∧ circularWorld.service.Idle ∧
      (circularWorld.stock circularFiles).pact.Accords circularWorld.service ∧
      ((circularWorld.stock circularFiles).paths circularWorld.builder "m.sol" circularSource).length ≤ 64 ∧
      Inevitable (fun d => ∃ r, .returned 0 r ∈ d.history)
        (started circularWorld.service
          (build circularWorld.builder 64 "m.sol" circularSource { target := "m.sol" })) ∧
      ∀ d, Relation.ReflTransGen Turn (started circularWorld.service
          (build circularWorld.builder 64 "m.sol" circularSource { target := "m.sol" })) d →
        circularWorld.Tells d.history → ∀ id r, .returned id r ∈ d.history →
          Leveled (circularWorld.stock circularFiles) circularWorld.builder
            ((circularWorld.stock circularFiles).paths circularWorld.builder "m.sol"
              circularSource).length "m.sol" circularSource { target := "m.sol" } r.1 := by
  have hidle : circularWorld.service.Idle := ⟨fun _ => rfl, nofun, ⟨rfl, Or.inl rfl, nofun⟩⟩
  have haccords : (circularWorld.stock circularFiles).pact.Accords circularWorld.service :=
    ⟨[], rfl, Cache.faithful_new rfl rfl⟩
  have hbudget : ((circularWorld.stock circularFiles).paths circularWorld.builder "m.sol"
      circularSource).length ≤ 64 := by decide +kernel
  exact ⟨rfl, hidle, haccords, hbudget, build_levels rfl hidle haccords _ _ _ hbudget _⟩

end Bundle

end SourceBundle
