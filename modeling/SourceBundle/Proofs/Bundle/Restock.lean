/-
# What a build writes on its way

Until its last level a build writes nothing to the workspace but files of packages that it has fetched,
each at its place.  So while only some packages can be fetched, no other files appear there.  The law of
a stock says this, and reckons with a workspace in which there are some texts only, at some places; the
rules that a build loads are then in these texts.
-/
import SourceBundle.Proofs.Bundle.Levels
import SourceBundle.Proofs.Routine.Parts

namespace SourceBundle

open SourceBundle.Import SourceBundle.Text

/-- What a build can come by; it has in store what can be written from it. -/
structure Stock where
  /-- The settings. -/
  settings : Settings
  /-- The packages that can be fetched. -/
  nodes : List Node
  /-- The places in the workspace at which there can be a file. -/
  places : List String
  /-- The texts that there can be in the workspace. -/
  texts : List String
  stored : ∀ n ∈ nodes, ∀ path text, n.files.get? path = some text →
    Workspace.Memory.normal (n.pathFor settings path) ∈ places ∧ text ∈ texts

namespace Stock

/-- A question that writes nothing but files of the packages, each at its place. -/
def Restocks (K : Stock) : Question → Prop
  | .write path content =>
    ∃ n ∈ K.nodes, ∃ sub, n.files.get? sub = some content ∧ path = n.pathFor K.settings sub
  | _ => True

/-- What is read is one of the texts, at one of the places. -/
def Offers (K : Stock) : (q : Question) → q.Answer → Prop
  | .read path, .ok text => Workspace.Memory.normal path ∈ K.places ∧ text ∈ K.texts
  | _, _ => True

/-- What is agreed on about packages: those that come are among the packages of the stock. -/
def pact (K : Stock) : Pact (List PackageKey) Service Question Question.Answer :=
  Cache.supplying K.settings (Bundle.Among K.nodes)

/-- The law of a build until its last level: it writes nothing but files of the packages. -/
def law (K : Stock) : Law Service Question Question.Answer where
  state := K.pact.Accords
  answer := K.Offers
  change _ _ := True
  question := K.Restocks
  helped := K.Restocks

/-- The terms on which a build works that has such a stock. -/
def terms (K : Stock) : Terms Service Question Question.Answer := K.pact.terms K.law

end Stock

variable {K : Stock} {α ρ : Type}

instance : IsPreorder (List PackageKey) K.pact.grows :=
  inferInstanceAs (IsPreorder _ (Cache.supplying K.settings (Bundle.Among K.nodes)).grows)

lemma Stock.meets : K.terms.Meet K.law := ⟨fun _ _ _ h => h, fun _ _ _ h => h, fun _ _ h => h⟩

lemma Stock.meets_quiet : K.terms.Meet (quiet K.pact.Accords) :=
  ⟨fun _ _ _ h => h, fun _ _ _ h => h, fun _ _ _ => trivial⟩

lemma Stock.restocks_of_not_changes {q : Question} (h : q.changes = false) : K.Restocks q := by
  cases q with
  | write path content => exact nomatch h
  | _ => trivial

instance : Lenient K.law :=
  ⟨fun _ _ _ => trivial, fun _ h _ => Stock.restocks_of_not_changes h,
    fun _ h _ => Stock.restocks_of_not_changes h⟩

/-! ## The ways to do a part of the work -/

lemma Task.yields_work {x : Work α} (h : x.Lawful K.law) :
    Attempt.Yields K.law (Task.work x) fun _ => True :=
  Attempt.Yields.of_lawful (Task.lawful_work h)

lemma Stateful.yields_work {x : Work α} (h : x.Lawful K.law) :
    Run.Yields K.law (Stateful.work x : Stateful ρ α) fun _ => True :=
  fun _ => Routine.Obeys.bind h fun _ _ _ _ => trivial

/-- Plain runs that do not write obey the law. -/
lemma Run.Plain.yields {I : ρ → ρ → Prop} {x : Stateful ρ α}
    (h : Run.Plain (plainly false fun _ => False) I x) : Run.Yields K.law x fun _ => True :=
  fun t => (h t).lenient.imp fun _ _ _ _ => trivial

/-- The settings are those of the stock. -/
lemma Task.yields_settings : Attempt.Yields K.law (Task.work Work.settings) (K.settings = ·) := by
  rintro s ⟨_, hst, -⟩
  refine ⟨trivial, ?_⟩
  rintro _ ⟨⟩
  exact hst.symm

lemma Stateful.yields_settings :
    Run.Yields K.law (Stateful.work Work.settings : Stateful ρ Settings) (K.settings = ·) := by
  rintro _ s ⟨_, hst, -⟩
  refine ⟨trivial, ?_⟩
  rintro _ ⟨⟩
  exact hst.symm

/-! ## Reading the workspace -/

namespace Workspace

/-- What is read is one of the texts. -/
lemma yields_read (path : String) : Attempt.Yields K.law (Work.read path) (· ∈ K.texts) := by
  refine ⟨trivial, ?_⟩
  rintro _ h text rfl
  exact h.2

lemma yields_readTwice (path : String) : Attempt.Yields K.law (readTwice path) (· ∈ K.texts) := by
  refine Attempt.Yields.tryCatch (yields_read path) fun f => ?_
  cases f with
  | workspace f => exact (Task.yields_work (Work.lawful_log _)).bind fun _ _ => yields_read path
  | _ => exact Attempt.Yields.throw _

lemma yields_readOptional (path : String) :
    Attempt.Yields K.law (readOptional path) fun text? => ∀ text ∈ text?, text ∈ K.texts := by
  have hprobe : Attempt.Lawful K.law (Work.probe path) := Routine.Lawful.put trivial
  refine Attempt.Yields.tryCatch ?_ fun f => ?_
  · refine (Attempt.Yields.of_lawful hprobe).bind fun there _ => ?_
    split
    · exact (yields_readTwice path).bind fun text htext => Attempt.Yields.pure (by simpa using htext)
    · exact Attempt.Yields.pure nofun
  · cases f <;> exact Attempt.Yields.throw _

end Workspace

/-! ## Rules that are loaded -/

namespace Resolve

/-- The rules in a text, if it is read as a file of rules or as a project configuration. -/
def rulesIn (s : Settings) (text : String) : List Remapping :=
  Remapping.ofLines s.remappingsFile (lines text) ++
    match configLines s.projectConfigFile text with
    | .ok (.ok ls) => Remapping.ofLines s.projectConfigFile ls
    | _ => []

lemma mem_rulesIn_of_config {s : Settings} {text : String} {ls : List String} {r : Remapping}
    (h : configLines s.projectConfigFile text = .ok (.ok ls))
    (hr : r ∈ Remapping.ofLines s.projectConfigFile ls) : r ∈ rulesIn s text := by
  unfold rulesIn
  rw [h]
  exact List.mem_append_right _ hr

lemma yields_readRules (origin : String) (ls : List String) :
    Run.Yields K.law (Stateful.work (readRules origin ls) : Warned (List Remapping))
      (· = Remapping.ofLines origin ls) := by
  have hlogs : (Work.logAll ((Remapping.malformedLines origin ls).map .malformedRemapping)).Lawful K.law :=
    (Work.plain_logAll _).lenient
  refine fun t => Routine.Obeys.bind (Routine.Obeys.bind hlogs fun _ _ => rfl) ?_
  rintro _ rfl _ ⟨⟩
  rfl

lemma yields_outcome (e : Except Fault α) :
    Run.Yields K.law (Stateful.outcome e : Warned α) (e = .ok ·) :=
  fun _ _ h => h

lemma yields_logged {post : List Remapping → Prop} (record : LogRecord) {all : List Remapping}
    (h : post all) : Run.Yields K.law (do
      Stateful.work (Work.log record)
      pure all : Warned (List Remapping)) post :=
  (Stateful.yields_work (Work.lawful_log record)).bind fun _ _ => Run.Yields.pure h

/-- The rules that are loaded are in the texts. -/
lemma yields_loadRemappings (use? : Option Bool) (collect : Bool) :
    Run.Yields K.law (loadRemappings use? collect)
      fun rules => ∀ r ∈ rules, r ∈ K.texts.flatMap (rulesIn K.settings) := by
  have hnothing : Run.Yields K.law (pure [] : Warned (List Remapping))
      fun rules => ∀ r ∈ rules, r ∈ K.texts.flatMap (rulesIn K.settings) := Run.Yields.pure nofun
  have hunused : Run.Yields K.law (pure none : Warned (Option String))
      fun text? => ∀ text ∈ text?, text ∈ K.texts := Run.Yields.pure nofun
  unfold loadRemappings
  refine Stateful.yields_settings.bind ?_
  rintro _ rfl
  refine Stateful.yields_settings.bind ?_
  rintro _ rfl
  refine (Run.Yields.lift (Workspace.yields_readOptional _)).bind fun content? hcontent => ?_
  -- the rules of their own file
  cases content?
  case' none => refine hnothing.bind fun front hfront => ?_
  case' some content =>
    refine (yields_readRules _ _).bind fun front hrules => ?_
    have hfront : ∀ r ∈ front, r ∈ K.texts.flatMap (rulesIn K.settings) := fun r hmem =>
      List.mem_flatMap.mpr ⟨content, hcontent content rfl, List.mem_append_left _ (hrules ▸ hmem)⟩
  all_goals
    refine Stateful.yields_settings.bind ?_
    rintro _ rfl
    cases use?.getD K.settings.useFileConfiguration
    case' false => refine hunused.bind fun config? hconfig => ?_
    case' true =>
      refine (Run.Yields.lift (Workspace.yields_readOptional _)).bind fun config? hconfig => ?_
    -- the rules of the project configuration
    all_goals
      cases config?
      case none =>
        exact hnothing.bind fun back hback =>
          yields_logged _ (List.forall_mem_append.mpr ⟨hfront, hback⟩)
      case some config =>
        refine (yields_outcome _).bind fun result hresult => ?_
        split
        case h_1 ls =>
          refine (yields_readRules _ _).bind fun back hrules => yields_logged _ ?_
          refine List.forall_mem_append.mpr ⟨hfront, fun r hmem => ?_⟩
          exact List.mem_flatMap.mpr ⟨config, hconfig config rfl,
            mem_rulesIn_of_config hresult (hrules ▸ hmem)⟩
        case h_2 f =>
          split
          case' isTrue => refine (Run.Plain.yields (keeps_warn _)).bind fun _ _ => ?_
          case' isFalse => refine (Run.Plain.yields (keeps_log (J := WarningLog.Extends) _)).bind fun _ _ => ?_
          all_goals
            exact hnothing.bind fun back hback =>
              yields_logged _ (List.forall_mem_append.mpr ⟨hfront, hback⟩)

end Resolve

/-! ## Fetching and writing packages -/

/-- The packages that a build gets are among those that can be fetched. -/
lemma Cache.yields_fetchAll (keys : List PackageKey) :
    Attempt.Yields K.law (fetchAll keys) fun ns => ∀ n ∈ ns, n ∈ K.nodes := by
  have hgather : Attempt.Yields K.law (gather keys)
      fun rs => ∀ ns, rs.mapM id = .ok ns → ∀ n ∈ ns, n ∈ K.nodes := by
    refine Routine.Obeys.bind (lawful_startAll keys) fun ds _ w => ?_
    cases w with
    | cancelled => exact nofun
    | ready =>
      rintro s ⟨orders, -, hs⟩
      refine ⟨trivial, ?_⟩
      rintro _ ⟨⟩ ns hns
      exact Bundle.mem_of_among (good_of_lookups hs.delivered hns)
  unfold fetchAll
  split
  · exact Attempt.Yields.pure nofun
  · exact hgather.bind fun rs hrs ns hns => hrs ns hns

namespace Bundle

lemma yields_ensureDirectory (path : String) :
    Attempt.Yields K.law (Workspace.ensureDirectory path) fun _ => True := by
  have hput : ∀ q : Question, K.Restocks q → Attempt.Yields K.law (Work.put q) fun _ => True :=
    fun q hq => Attempt.Yields.of_lawful (Routine.Lawful.put hq)
  unfold Workspace.ensureDirectory
  split
  · exact Attempt.Yields.pure trivial
  · refine (hput (.probe _) trivial).bind fun there _ => ?_
    split
    · exact hput (.mkdir _) trivial
    · exact Attempt.Yields.pure trivial

lemma yields_writePackage {n : Node} (hn : n ∈ K.nodes) :
    Attempt.Yields K.law (writePackage n) fun _ => True := by
  refine Attempt.Yields.forM ?_
  rintro ⟨path, content⟩ he
  refine Task.yields_settings.bind ?_
  rintro _ rfl
  refine (yields_ensureDirectory _).bind fun _ _ => Attempt.Yields.of_lawful (Routine.Lawful.put ?_)
  exact ⟨n, hn, path, Table.get?_eq_some_iff.mpr he, rfl⟩

lemma yields_materialize {n : Node} (hn : n ∈ K.nodes) (shelf : Nat) :
    Attempt.Yields K.law (materialize shelf n) fun _ => True := by
  refine (Task.yields_work (lawful_gets id)).bind fun s _ => ?_
  split
  · exact Attempt.Yields.pure trivial
  · refine Attempt.Yields.tryCatch ((yields_writePackage hn).bind fun _ _ => ?_) fun f => ?_
    · exact Task.yields_work (lawful_modify fun _ => ⟨rfl, rfl, rfl⟩)
    · cases f with
      | workspace f => exact Task.yields_work (Work.lawful_log _)
      | _ => exact Attempt.Yields.throw _

/-! ## Levels -/

lemma yields_joinPackage {n : Node} (hn : n ∈ K.nodes) (shelf : Nat) :
    Run.Yields K.law (joinPackage shelf n) fun _ => True := by
  refine (Run.Yields.modify _).bind fun _ _ => ?_
  refine (Run.Plain.yields (notes_recordParent n)).bind fun _ _ => ?_
  refine (Run.Plain.yields (keeps_addPackage n)).bind fun _ _ => ?_
  exact Run.Yields.lift (yields_materialize hn shelf)

lemma yields_completeLevel (shelf depth scanned : Nat) :
    Run.Yields K.law (completeLevel shelf depth scanned) fun _ => True := by
  refine Run.Yields.get.bind fun t _ => ?_
  refine (Run.Yields.lift (Cache.yields_fetchAll _)).bind fun ns hns => ?_
  refine (Run.Yields.forM fun n hn => yields_joinPackage (hns n hn) shelf).bind fun _ _ => ?_
  refine (Run.Plain.yields (keeps_checkWaiting _)).bind fun _ _ => ?_
  refine (Stateful.yields_work (Work.lawful_log _)).bind fun _ _ => ?_
  exact Run.Yields.get.bind fun _ _ => Run.Yields.pure trivial

lemma yields_traverseLevel (shelf : Nat) (rules : List Remapping) (depth : Nat) (level : List String) :
    Run.Yields K.law (traverseLevel shelf rules depth level) fun _ => True := by
  refine (Run.Yields.modify _).bind fun _ _ => ?_
  refine (Run.Plain.yields (Run.Plain.forM (proper_scan rules) level)).bind fun _ _ => ?_
  exact yields_completeLevel _ _ _

lemma yields_traverse (shelf : Nat) (rules : List Remapping) (entry : String) (budget depth : Nat)
    (level : List String) :
    Run.Yields K.law (traverse shelf rules entry budget depth level) fun _ => True := by
  induction budget generalizing depth level with
  | zero =>
    cases level with
    | nil => exact Run.Yields.pure trivial
    | cons file files => exact Run.Yields.throw _
  | succ budget ih =>
    cases level with
    | nil => exact Run.Yields.pure trivial
    | cons file files =>
      refine Run.Yields.get.bind fun t _ => ?_
      refine (Stateful.yields_work (Work.lawful_contextIsCurrent _)).bind fun current _ => ?_
      cases current with
      | false =>
        exact (Stateful.yields_work (Work.lawful_log _)).bind fun _ _ => Run.Yields.pure trivial
      | true => exact (yields_traverseLevel _ _ _ _).bind fun next _ => ih (depth + 1) next

/-! ## The way of a build to its last level -/

/-- The rules that a builder can come by. -/
def Builder.rulesIn (b : Builder) (K : Stock) : List Remapping :=
  b.remappings?.getD (K.texts.flatMap (Resolve.rulesIn K.settings))

lemma yields_rulesOf (b : Builder) :
    Run.Yields K.law (rulesOf b) fun rules => ∀ r ∈ rules, r ∈ b.rulesIn K := by
  unfold rulesOf Builder.rulesIn
  cases b.remappings? with
  | some rules => exact Run.Yields.pure fun _ h => h
  | none => exact Run.Yields.zoom (Resolve.yields_loadRemappings _ _)

/-- The rules of a prepared traversal are among those that its builder can come by. -/
lemma yields_prepare (b : Builder) (entry content : String) :
    Run.Yields K.law (prepare b entry content) fun rules => ∀ r ∈ rules, r ∈ b.rulesIn K := by
  have hset : Run.Yields K.law (setOut b entry content) fun rules => ∀ r ∈ rules, r ∈ b.rulesIn K := by
    refine (yields_rulesOf b).bind fun rules hrules => Run.Yields.get.bind fun t _ => ?_
    refine (Run.Yields.zoom (Run.Plain.yields
      (Resolve.keeps_ofWorkspace (J := WarningLog.Extends) _ _))).bind fun r _ => ?_
    exact (Run.Yields.modify _).bind fun _ _ => Run.Yields.pure hrules
  cases hb : b.usesIndex with
  | true =>
    rw [prepare_of_usesIndex hb]
    exact (Run.Yields.lift (Attempt.Yields.of_lawful Index.lawful_load)).bind fun _ _ => hset
  | false =>
    rw [prepare_of_not_usesIndex hb]
    exact hset

/-- A build from its preparation to its last level. -/
def journey (b : Builder) (budget : Nat) (entry content : String) : Traversing Bool := do
  let rules ← prepare b entry content
  traverse b.shelf rules entry budget 0 [entry]

/-- What a build does after its journey, if that has not failed. -/
def conclude (b : Builder) (entry : String) (p : Except Fault Bool × Traversal) :
    Work (Except Fault Bundle × Context) := do
  let (result, t) ← (Stateful.outcome p.1 >>= arrive b entry).begin p.2
  pure (result, t.context)

/-- Until its last level a build writes nothing but files of packages that can be fetched. -/
theorem lawful_journey (b : Builder) (budget : Nat) (entry content : String) (t : Traversal) :
    ((journey b budget entry content).run t).Lawful K.law :=
  Routine.Lawful.of_obeys
    ((yields_prepare b entry content).bind (fun _ _ => yields_traverse _ _ _ budget _ _) t)

lemma build_eq_bind (b : Builder) (budget : Nat) (entry content : String) (c : Context) :
    build b budget entry content c =
      ((journey b budget entry content).run { context := c }).bind (conclude b entry) := by
  have hrun : run b budget entry content = journey b budget entry content >>= arrive b entry := by
    unfold run journey
    rw [bind_assoc]
    rfl
  unfold build
  rw [hrun]
  show Routine.bind (Routine.bind _ _) _ = _
  rw [Routine.bind_assoc]
  rfl

end Bundle

end SourceBundle
