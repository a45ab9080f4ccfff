/-
# Which rules are loaded

The rules of the workspace are those of their own file, and behind them those of the project configuration.
So whatever the configuration holds, it changes nothing for an import to which a rule of the file applies, and
a configuration that is malformed has no rules.

There is one exception: a configuration with a number that is too long is not passed over, but ends the
loading.  Then not even the rules of their own file are there.
-/
import SourceBundle.Proofs.Import.Rules
import SourceBundle.Proofs.Json.LongNumber
import SourceBundle.Proofs.Service.Kept
import SourceBundle.Proofs.Service.Sound
import SourceBundle.Resolve.Sources

namespace SourceBundle

open SourceBundle.Import SourceBundle.Text

variable {α β ρ : Type} {st : Settings} {files files' : String → Option String}

/-! ## Workspaces with given files -/

/-- Nobody changes the settings, and the workspace answers from the given files.  Nothing is asked of others,
and nothing is written. -/
def served (st : Settings) (files : String → Option String) : Law Service Question Question.Answer where
  state s := s.settings = st
  answer
    | .probe path, a => a = .ok (files path).isSome
    | .read path, a => ∀ text, files path = some text → a = .ok text
    | _, _ => True
  change s t := t.settings = s.settings
  question q := ∃ path, q = .probe path ∨ q = .read path
  helped _ := False

/-- In every company a task comes out like this, if the workspace has these files. -/
def Task.ComesOut (st : Settings) (files : String → Option String) (x : Task α)
    (r : Except Fault α) : Prop :=
  x.run.Obeys (served st files) (· = r)

/-- In every company a run comes out like this, if the workspace has these files. -/
def Stateful.ComesOut (st : Settings) (files : String → Option String) (x : Stateful ρ α)
    (r : Except Fault α) : Prop :=
  Run.Obeys (served st files) x fun _ r' _ => r' = r

/-- A routine that obeys a law can come to a result. -/
lemma Routine.Obeys.exists_result {L : Law Service Question Question.Answer} {x : Work α} {post : α → Prop}
    (h : x.Obeys L post) {s : Service} (hs : L.state s) (hanswer : ∀ q, ∃ a, L.answer q a) :
    ∃ a, post a := by
  induction x with
  | done a => exact ⟨a, h⟩
  | step change next ih => exact ih s (h s hs).2
  | ask q next ih =>
    obtain ⟨a, ha⟩ := hanswer q
    exact ih a (h.2 a ha)
  | wait turns until_ next ih => exact ih .ready (h .ready)
  | spawn child next _ ih => exact ih 0 (h.2 0)

namespace Task.ComesOut

variable {x : Task α} {f : α → Task β} {a : α} {r : Except Fault β}

lemma pure (a : α) : Task.ComesOut st files (Pure.pure a : Task α) (.ok a) := rfl

lemma bind (hx : Task.ComesOut st files x (.ok a)) (hf : Task.ComesOut st files (f a) r) :
    Task.ComesOut st files (x >>= f) r := by
  refine Routine.Obeys.bind hx ?_
  rintro _ rfl
  exact hf

/-- Nothing is caught when there is no fault. -/
lemma handle (hx : Task.ComesOut st files x (.ok a)) (h : Fault → Option (Task α)) :
    Task.ComesOut st files (x.handle h) (.ok a) := by
  unfold Task.ComesOut
  rw [Task.run_handle]
  refine Routine.Obeys.bind hx ?_
  rintro _ rfl
  rfl

lemma probe (path : String) : Task.ComesOut st files (Work.probe path) (.ok (files path).isSome) :=
  ⟨⟨path, Or.inl rfl⟩, fun _ ha => ha⟩

lemma read {path text : String} (h : files path = some text) :
    Task.ComesOut st files (Work.read path) (.ok text) :=
  ⟨⟨path, Or.inr rfl⟩, fun _ ha => ha text h⟩

lemma readOptional (path : String) :
    Task.ComesOut st files (Workspace.readOptional path) (.ok (files path)) := by
  refine handle ((probe path).bind ?_) _
  cases h : files path with
  | none => exact pure none
  | some text => exact ((read h).handle _).bind (pure (some text))

end Task.ComesOut

namespace Stateful.ComesOut

variable {x : Stateful ρ α} {f : α → Stateful ρ β} {a : α} {r : Except Fault β}

lemma pure (a : α) : Stateful.ComesOut st files (Pure.pure a : Stateful ρ α) (.ok a) := fun _ => rfl

lemma bind (hx : Stateful.ComesOut st files x (.ok a)) (hf : Stateful.ComesOut st files (f a) r) :
    Stateful.ComesOut st files (x >>= f) r := by
  intro t
  rw [Run.run_bind]
  refine Routine.Obeys.bind (hx t) ?_
  rintro ⟨_, u⟩ rfl
  exact hf u

/-- A fault ends a run. -/
lemma bind_error {e : Fault} (hx : Stateful.ComesOut st files x (.error e)) :
    Stateful.ComesOut st files (x >>= f) (.error e) := by
  intro t
  rw [Run.run_bind]
  refine Routine.Obeys.bind (hx t) ?_
  rintro ⟨_, u⟩ rfl
  rfl

lemma task {x : Task α} {r : Except Fault α} (h : Task.ComesOut st files x r) :
    Stateful.ComesOut st files (Stateful.task x : Stateful ρ α) r :=
  fun _ => Routine.Obeys.bind h fun _ hr => hr

lemma outcome (e : Except Fault α) : Stateful.ComesOut st files (Stateful.outcome e : Stateful ρ α) e :=
  fun _ => rfl

lemma work {x : Work α} (h : x.Obeys (served st files) (· = a)) :
    Stateful.ComesOut st files (Stateful.work x : Stateful ρ α) (.ok a) :=
  fun _ => Routine.Obeys.bind h fun _ ha => congrArg Except.ok ha

lemma settings : Stateful.ComesOut st files (Stateful.work Work.settings : Stateful ρ Settings) (.ok st) :=
  work fun _ hs => ⟨rfl, hs⟩

lemma log (l : LogRecord) :
    Stateful.ComesOut st files (Stateful.work (Work.log l) : Stateful ρ Unit) (.ok ()) :=
  work fun _ _ => ⟨rfl, rfl⟩

/-- How a run comes out is determined by the files. -/
theorem unique {x : Stateful ρ α} {r r' : Except Fault α} (h : Stateful.ComesOut st files x r)
    (h' : Stateful.ComesOut st files x r') (t : ρ) : r = r' := by
  have hanswer : ∀ q, ∃ a, (served st files).answer q a := by
    intro q
    cases q with
    | probe path => exact ⟨_, rfl⟩
    | read path => exact ⟨.ok ((files path).getD ""), fun text h => by rw [h]; rfl⟩
    | _ => exact ⟨.error .cancelled, trivial⟩
  obtain ⟨p, hp, hp'⟩ := ((h t).and (h' t)).exists_result
    (s := { settings := st, index := { path := "" } }) rfl hanswer
  exact hp.symm.trans hp'

end Stateful.ComesOut

namespace Resolve

/-! ## Loading -/

variable {path : String} {content? : Option String} {use? : Option Bool} {collect : Bool}
  {rules : List Remapping}

lemma comesOut_logAll (ls : List LogRecord) : (Work.logAll ls).Obeys (served st files) (· = ()) := by
  induction ls with
  | nil => rfl
  | cons l ls ih =>
    have hlog : (Work.log l).Obeys (served st files) (· = ()) := fun _ _ => ⟨rfl, rfl⟩
    exact hlog.bind fun _ _ => ih

lemma comesOut_readRules (origin : String) (ls : List String) :
    Stateful.ComesOut st files (Stateful.work (readRules origin ls) : Warned (List Remapping))
      (.ok (Remapping.ofLines origin ls)) :=
  .work (Routine.Obeys.bind (comesOut_logAll _) fun _ _ => rfl)

lemma comesOut_warn (w : Warning) : Stateful.ComesOut st files (warn w) (.ok ()) := by
  intro l
  show Routine.Obeys _
    ((if !l.knows w then (do set (l.add w); Stateful.work (Work.log (.warned w)) : Warned Unit)
      else pure ()).run l) _
  split
  · exact fun _ _ => ⟨rfl, rfl⟩
  · rfl

/-- The rules that a project configuration adds. -/
def rulesOfConfig (path : String) : Option String → Except Fault (List Remapping)
  | none => .ok []
  | some content =>
    match configLines path content with
    | .error e => .error e
    | .ok (.error _) => .ok []
    | .ok (.ok ls) => .ok (Remapping.ofLines path ls)

/-- The project configuration, if it is used. -/
def usedConfig (st : Settings) (use? : Option Bool) (files : String → Option String) : Option String :=
  if use?.getD st.useFileConfiguration then files st.projectConfigFile else none

/-- The rules in their own file. -/
def rulesOfText (st : Settings) (files : String → Option String) : List Remapping :=
  Remapping.ofLines st.remappingsFile (((files st.remappingsFile).map lines).getD [])

/-- The rules that are loaded are those of their own file, and behind them those of the configuration. -/
theorem comesOut_loadRemappings (st : Settings) (files : String → Option String) (use? : Option Bool)
    (collect : Bool) :
    Stateful.ComesOut st files (loadRemappings use? collect)
      ((rulesOfConfig st.projectConfigFile (usedConfig st use? files)).map (rulesOfText st files ++ ·)) := by
  have hend : ∀ all : List Remapping, Stateful.ComesOut st files (do
      Stateful.work (Work.log (.remappingsLoaded all.length))
      pure all : Warned (List Remapping)) (.ok all) := fun all => (Stateful.ComesOut.log _).bind (.pure all)
  unfold loadRemappings rulesOfText usedConfig
  refine Stateful.ComesOut.settings.bind (Stateful.ComesOut.settings.bind ?_)
  refine (Stateful.ComesOut.task (.readOptional _)).bind ?_
  -- the rules of their own file
  cases files st.remappingsFile
  case' none => refine (Stateful.ComesOut.pure []).bind ?_
  case' some content => refine (comesOut_readRules _ _).bind ?_
  all_goals
    refine Stateful.ComesOut.settings.bind ?_
    cases use?.getD st.useFileConfiguration
    case false => exact (Stateful.ComesOut.pure none).bind ((Stateful.ComesOut.pure []).bind (hend _))
    case true =>
      refine (Stateful.ComesOut.task (.readOptional _)).bind ?_
      -- the rules of the project configuration
      cases files st.projectConfigFile with
      | none => exact (Stateful.ComesOut.pure []).bind (hend _)
      | some content =>
        have hlines : ∀ {result}, configLines st.projectConfigFile content = result →
            Stateful.ComesOut st files (Stateful.outcome (configLines st.projectConfigFile content) :
              Warned (Except ParseFault (List String))) result :=
          fun h => h ▸ .outcome _
        rw [if_pos rfl, rulesOfConfig]
        cases hresult : configLines st.projectConfigFile content with
        | error e => exact (hlines hresult).bind_error
        | ok result =>
          cases result with
          | ok ls => exact (hlines hresult).bind ((comesOut_readRules _ _).bind (hend _))
          | error f =>
            refine (hlines hresult).bind ?_
            cases collect
            · exact (Stateful.ComesOut.log _).bind ((Stateful.ComesOut.pure []).bind (hend _))
            · exact (comesOut_warn _).bind ((Stateful.ComesOut.pure []).bind (hend _))

/-! ## What a project configuration adds -/

/-- What a project configuration adds to the rules: nothing if there is none, or it is malformed; and else the
rules among its lines. -/
inductive Contributes (path : String) : Option String → List Remapping → Prop
  | absent : Contributes path none []
  | valid {content : String} {config : Json} {ls : List String} {rules : List Remapping} :
    Json.read content = .ok config → Entries config ls → Rules path ls rules →
      Contributes path (some content) rules
  | malformed {content : String} {complaint : Json.Complaint} {pos : Nat} :
    Json.read content = .error (.misfit complaint pos) → Contributes path (some content) []
  | misshapen {content : String} {config : Json} :
    Json.read content = .ok config → (∀ ls, ¬ Entries config ls) → Contributes path (some content) []

theorem exists_contributes (path : String) (h : ∀ content ∈ content?, Json.Measured content) :
    ∃ more, rulesOfConfig path content? = .ok more ∧ Contributes path content? more := by
  cases content? with
  | none => exact ⟨[], rfl, .absent⟩
  | some content =>
    rw [rulesOfConfig, configLines]
    cases hread : Json.read content with
    | error f =>
      cases f with
      | misfit complaint pos => exact ⟨[], rfl, .malformed hread⟩
      | numberTooLong => exact absurd hread (h content rfl)
    | ok config =>
      cases hlines : Remapping.linesOfConfig config with
      | ok ls =>
        refine ⟨Remapping.ofLines path ls, ?_, ?_⟩
        · dsimp only
          rw [hlines]
        · exact .valid hread (linesOfConfig_eq_ok_iff.mp hlines) (rules_ofLines path ls)
      | error f =>
        refine ⟨[], ?_, .misshapen hread fun ls hls => ?_⟩
        · dsimp only
          rw [hlines]
        · exact nomatch hlines.symm.trans (linesOfConfig_eq_ok_iff.mpr hls)

/-- A number that is too long ends the loading. -/
theorem comesOut_of_not_measured {content : String} (hused : usedConfig st use? files = some content)
    (h : ¬ Json.Measured content) :
    Stateful.ComesOut st files (loadRemappings use? collect) (.error .numberTooLong) := by
  have hconfig : rulesOfConfig st.projectConfigFile (some content) = .error .numberTooLong := by
    rw [rulesOfConfig, configLines, not_not.mp h]
  have hload := comesOut_loadRemappings st files use? collect
  rw [hused, hconfig] at hload
  exact hload

/-! ## The rules of their own file -/

/-- In two workspaces with the same rules in their own file: those come first, and are followed by those of
the project configuration, and whether an import is relative or one of them applies to it, the configuration
changes nothing of what becomes of it. -/
def Undisturbed (st : Settings) (use? : Option Bool) (collect : Bool)
    (files files' : String → Option String) : Prop :=
  ∃ rules more more',
    Rules st.remappingsFile (((files st.remappingsFile).map lines).getD []) rules ∧
    Contributes st.projectConfigFile (usedConfig st use? files) more ∧
    Contributes st.projectConfigFile (usedConfig st use? files') more' ∧
    Stateful.ComesOut st files (loadRemappings use? collect) (.ok (rules ++ more)) ∧
    Stateful.ComesOut st files' (loadRemappings use? collect) (.ok (rules ++ more')) ∧
    ∀ literal, isRelative literal = true ∨ (∃ r ∈ rules, r.source.toList <+: literal.toList) →
      remap (rules ++ more) literal = remap (rules ++ more') literal

lemma undisturbed_of_measured (htext : files st.remappingsFile = files' st.remappingsFile)
    (h : ∀ content ∈ usedConfig st use? files, Json.Measured content)
    (h' : ∀ content ∈ usedConfig st use? files', Json.Measured content) :
    Undisturbed st use? collect files files' := by
  obtain ⟨more, hrules, hmore⟩ := exists_contributes st.projectConfigFile h
  obtain ⟨more', hrules', hmore'⟩ := exists_contributes st.projectConfigFile h'
  have hload := comesOut_loadRemappings st files use? collect
  have hload' := comesOut_loadRemappings st files' use? collect
  rw [hrules] at hload
  rw [hrules', rulesOfText, ← htext] at hload'
  refine ⟨rulesOfText st files, more, more', rules_ofLines _ _, hmore, hmore', hload, hload',
    fun literal hliteral => ?_⟩
  have hmatched : isRelative literal = true ∨
      ∃ r ∈ rulesOfText st files, r.source ≠ "" ∧ r.source.toList <+: literal.toList :=
    hliteral.imp_right fun ⟨r, hr, hsource⟩ => ⟨r, hr, (rules_ofLines _ _).source_ne hr, hsource⟩
  rw [remap_append hmatched, remap_append hmatched]

lemma measured_of_undisturbed (h : Undisturbed st use? collect files files') :
    (∀ content ∈ usedConfig st use? files, Json.Measured content) ∧
      ∀ content ∈ usedConfig st use? files', Json.Measured content := by
  obtain ⟨rules, more, more', -, -, -, hload, hload', -⟩ := h
  constructor
  · intro content hused
    by_contra hm
    exact nomatch hload.unique (comesOut_of_not_measured hused hm) {}
  · intro content hused
    by_contra hm
    exact nomatch hload'.unique (comesOut_of_not_measured hused hm) {}

/-- A workspace with one rule in its own file, and a project configuration. -/
def oneRule (config : String) : String → Option String
  | "remappings.txt" => some "a/=b/\n"
  | "remix.config.json" => some config
  | _ => none

/-- The configuration of a project whose version is a number of so many digits. -/
def versioned (n : Nat) : String :=
  String.ofList ("\x7b\"version\":".toList ++ (List.replicate n '1' ++ ['}']))

lemma not_measured_versioned {n : Nat} (hn : longestNumeral ≤ n) : ¬ Json.Measured (versioned (n + 1)) := by
  have htext : (versioned (n + 1)).toList =
      "\x7b\"version\":".toList ++ (List.replicate (n + 1) '1' ++ ['}']) := String.toList_ofList
  refine not_not.mpr ?_
  rw [Json.read, htext, Json.readChars_version_ones hn]

lemma disturbed_of_not_measured {config : String} (hm : ¬ Json.Measured config) :
    ¬ Undisturbed {} none true (oneRule config) (oneRule "") ∧
      Stateful.ComesOut {} (oneRule config) (loadRemappings none true) (.error .numberTooLong) :=
  ⟨fun h => hm ((measured_of_undisturbed h).1 config rfl), comesOut_of_not_measured rfl hm⟩

end Resolve

end SourceBundle
