/-
# What a configuration enters

Each entry of a configuration concerns one setting, so that a configuration can be read as a whole: a setting has
the value of the entry with its key, if there is one and its value fits, and else the previous value.  The order of
the entries does not matter then.

This is so unless some entry asks for a number that its setting cannot hold: an infinity where an integer is needed,
or an integer that is larger than all floating-point numbers.  Such an entry ends the application; what stands
behind it is not entered, and the address of the registry is left as it is.
-/
import Mathlib.Data.List.TakeWhile
import SourceBundle.Proofs.Table
import SourceBundle.Settings.Apply

namespace SourceBundle.Settings

variable {α : Type} {s : Settings} {es : List (String × Value)} {key : String} {v : Value}

/-! ## Settings with entries -/

/-- The value of a setting with some entries: that of the entry with its key, if it fits, and else the previous one. -/
def held (es : List (String × Value)) (key : String) (coerce : Value → Except Value.Misfit α) (previous : α) : α :=
  ((Table.look key es).bind fun v => (coerce v).toOption).getD previous

/-- The settings with some entries. -/
def entered (s : Settings) (es : List (String × Value)) : Settings where
  registryUrl := held es "registry_url" Value.toText s.registryUrl
  requestTimeout := held es "request_timeout" Value.toInt s.requestTimeout
  retryMax := held es "http_retry_max" Value.toInt s.retryMax
  retryDelay := held es "http_retry_base_delay" Value.toFloat s.retryDelay
  depsDir := held es "deps_dir" Value.toText s.depsDir
  packageDir := held es "deps_npm_dir" Value.toText s.packageDir
  indexFile := held es "resolution_index_file" Value.toText s.indexFile
  snapshotDir := held es "bundle_snapshot_dir" Value.toText s.snapshotDir
  remappingsFile := held es "remappings_file" Value.toText s.remappingsFile
  projectConfigFile := held es "project_config_file" Value.toText s.projectConfigFile
  useFileConfiguration := held es "use_file_configuration" (fun v => .ok v.toBool) s.useFileConfiguration
  materialize := held es "materialize_dependencies" (fun v => .ok v.toBool) s.materialize
  writeSnapshot := held es "write_bundle_snapshot" (fun v => .ok v.toBool) s.writeSnapshot

/-- The settings with the slash that the address of the registry ends with. -/
def withSlash (s : Settings) : Settings := { s with registryUrl := slashed s.registryUrl }

/-- An entry asks for a number that its setting cannot hold. -/
def overflows (e : String × Value) : Bool :=
  match e.2 with
  | .float x => (e.1 == "request_timeout" || e.1 == "http_retry_max") && !x.isNaN && x.isInf
  | .int n => e.1 == "http_retry_base_delay" && (Value.int n).toFloat.toOption.isNone
  | _ => false

/-- Entries with other keys come behind the first one. -/
lemma held_cons (hkey : key ∉ es.map Prod.fst) (v : Value) (key' : String)
    (coerce : Value → Except Value.Misfit α) (previous : α) :
    held ((key, v) :: es) key' coerce previous = held es key' coerce (held [(key, v)] key' coerce previous) := by
  by_cases hsame : key = key'
  · subst hsame
    have hnone : Table.look key es = none := by
      rwa [← Option.not_isSome_iff_eq_none, Table.isSome_look]
    simp [held, Table.look, hnone]
  · simp [held, Table.look, hsame]

lemma entered_cons (hkey : key ∉ es.map Prod.fst) (s : Settings) (v : Value) :
    entered s ((key, v) :: es) = entered (entered s [(key, v)]) es := by
  simp only [entered, held_cons hkey]

/-! ## One entry -/

lemma toInt_overflow_iff (hkey : key = "request_timeout" ∨ key = "http_retry_max") :
    v.toInt = .error .overflow ↔ overflows (key, v) = true := by
  have hint : (key == "request_timeout" || key == "http_retry_max") = true := by simpa using hkey
  have hfloat : (key == "http_retry_base_delay") = false := by rcases hkey with rfl | rfl <;> rfl
  cases v with
  | float x =>
    simp only [Value.toInt, overflows, hint, Bool.true_and]
    cases x.isNaN <;> cases x.isInf <;> simp
  | text t =>
    rw [Value.toInt]
    split <;> simp [overflows]
  | _ => simp [Value.toInt, overflows, hfloat]

lemma toFloat_overflow_iff :
    v.toFloat = .error .overflow ↔ overflows ("http_retry_base_delay", v) = true := by
  cases v with
  | int n =>
    simp only [overflows, beq_self_eq_true, Bool.true_and]
    rw [Value.toFloat]
    split <;> simp [Except.toOption]
  | text t =>
    rw [Value.toFloat]
    split <;> simp [overflows]
  | _ => simp [Value.toFloat, overflows]

lemma toText_ne_overflow (v : Value) : v.toText ≠ .error .overflow := by
  cases v <;> simp only [Value.toText] <;> (try split) <;> simp

/-- Only settings that are numbers can be given one that they cannot hold. -/
lemma overflows_eq_false (hkey : key ∉ ["request_timeout", "http_retry_max", "http_retry_base_delay"]) (v : Value) :
    overflows (key, v) = false := by
  simp only [List.mem_cons, List.not_mem_nil, or_false, not_or] at hkey
  cases v <;> simp [overflows, hkey]

/-- What an entry of a known setting does: its value is entered, or does not fit and changes nothing, or is a number
that the setting cannot hold. -/
inductive Does (key : String) (v : Value) (s : Settings) : Except Value.Misfit Settings → Prop
  /-- The value fits. -/
  | fits (holds : overflows (key, v) = false) : Does key v s (.ok (entered s [(key, v)]))
  /-- The value does not fit. -/
  | misfit (holds : overflows (key, v) = false) (same : entered s [(key, v)] = s) : Does key v s (.error .invalid)
  /-- The number is too large. -/
  | overflow (exceeds : overflows (key, v) = true) : Does key v s (.error .overflow)

/-- A setting does with a value what its type says of it. -/
lemma Does.of_coerce (coerce : Value → Except Value.Misfit α) (get : Settings → α)
    (put : α → Settings → Settings)
    (hentered : entered s [(key, v)] = put ((coerce v).toOption.getD (get s)) s) (hput : put (get s) s = s)
    (hoverflow : coerce v = .error .overflow ↔ overflows (key, v) = true) :
    Does key v s ((coerce v).map (put · s)) := by
  have hholds (h : coerce v ≠ .error .overflow) : overflows (key, v) = false :=
    Bool.eq_false_iff.mpr (mt hoverflow.mpr h)
  match hv : coerce v with
  | .ok x =>
    rw [hv] at hentered
    have hfits := Does.fits (s := s) (hholds (by simp [hv]))
    rwa [hentered] at hfits
  | .error .invalid =>
    rw [hv] at hentered
    exact .misfit (hholds (by simp [hv])) (hentered.trans hput)
  | .error .overflow => exact .overflow (hoverflow.mp hv)

/-- A setting that is a text. -/
lemma does_text (get : Settings → String) (put : String → Settings → Settings)
    (hentered : entered s [(key, v)] = put (v.toText.toOption.getD (get s)) s) (hput : put (get s) s = s)
    (hkey : key ∉ ["request_timeout", "http_retry_max", "http_retry_base_delay"]) :
    Does key v s (v.toText.map (put · s)) :=
  .of_coerce Value.toText get put hentered hput (by simp [toText_ne_overflow, overflows_eq_false hkey])

/-- A setting that is a truth value. -/
lemma does_bool (get : Settings → Bool) (put : Bool → Settings → Settings)
    (hentered : entered s [(key, v)] = put v.toBool s) (hput : put (get s) s = s)
    (hkey : key ∉ ["request_timeout", "http_retry_max", "http_retry_base_delay"]) :
    Does key v s (.ok (put v.toBool s)) :=
  .of_coerce (fun v => .ok v.toBool) get put hentered hput (by simp [overflows_eq_false hkey])

/-- Every known setting does with a value what its type says of it. -/
lemma does_of_mem {e : Entry} (he : e ∈ known) (v : Value) (s : Settings) : Does e.key v s (e.apply v s) := by
  simp only [known, List.mem_cons, List.not_mem_nil, or_false] at he
  -- looking up a key among the thirteen is a computation, so that what is entered is the put value by `rfl`
  rcases he with rfl | rfl | rfl | rfl | rfl | rfl | rfl | rfl | rfl | rfl | rfl | rfl | rfl
  · exact does_text registryUrl (fun t s => { s with registryUrl := t }) rfl rfl (by decide)
  · exact .of_coerce Value.toInt requestTimeout (fun n s => { s with requestTimeout := n }) rfl rfl
      (toInt_overflow_iff (.inl rfl))
  · exact .of_coerce Value.toInt retryMax (fun n s => { s with retryMax := n }) rfl rfl
      (toInt_overflow_iff (.inr rfl))
  · exact .of_coerce Value.toFloat retryDelay (fun x s => { s with retryDelay := x }) rfl rfl
      toFloat_overflow_iff
  · exact does_text depsDir (fun t s => { s with depsDir := t }) rfl rfl (by decide)
  · exact does_text packageDir (fun t s => { s with packageDir := t }) rfl rfl (by decide)
  · exact does_text indexFile (fun t s => { s with indexFile := t }) rfl rfl (by decide)
  · exact does_text snapshotDir (fun t s => { s with snapshotDir := t }) rfl rfl (by decide)
  · exact does_text remappingsFile (fun t s => { s with remappingsFile := t }) rfl rfl (by decide)
  · exact does_text projectConfigFile (fun t s => { s with projectConfigFile := t }) rfl rfl (by decide)
  · exact does_bool useFileConfiguration (fun b s => { s with useFileConfiguration := b }) rfl rfl (by decide)
  · exact does_bool materialize (fun b s => { s with materialize := b }) rfl rfl (by decide)
  · exact does_bool writeSnapshot (fun b s => { s with writeSnapshot := b }) rfl rfl (by decide)

/-- An entry without a known key changes nothing. -/
lemma of_unknown (hkey : key ∉ known.map Entry.key) (v : Value) (s : Settings) :
    entered s [(key, v)] = s ∧ overflows (key, v) = false := by
  simp only [known, List.map_cons, List.map_nil, List.mem_cons, List.not_mem_nil, or_false, not_or] at hkey
  have hheld {α : Type} {key' : String} (hne : key ≠ key') (coerce : Value → Except Value.Misfit α) (previous : α) :
      held [(key, v)] key' coerce previous = previous := by
    simp [held, Table.look, hne]
  constructor
  · simp only [entered, hheld, hkey, ne_eq, not_false_eq_true]
  · exact overflows_eq_false (by simp [hkey]) v

/-- An entry is entered, unless it asks for a number that its setting cannot hold. -/
lemma entry_eq {a : Applied} (hgoes : a.overflowed = false) (key : String) (v : Value) :
    (a.entry key v).overflowed = overflows (key, v) ∧
      (a.entry key v).settings = if overflows (key, v) then a.settings else entered a.settings [(key, v)] := by
  rw [Applied.entry, if_neg (by simp [hgoes])]
  split
  · next hfind =>
    have hkey : key ∉ known.map Entry.key := by
      intro hmem
      obtain ⟨e, he, rfl⟩ := List.mem_map.mp hmem
      exact List.find?_eq_none.mp hfind e he (beq_self_eq_true e.key)
    obtain ⟨hsame, hholds⟩ := of_unknown hkey v a.settings
    simp [hsame, hholds, hgoes]
  · next e hfind =>
    have hkey : e.key = key := by simpa using List.find?_some hfind
    have hdoes := does_of_mem (List.mem_of_find?_eq_some hfind) v a.settings
    rw [hkey] at hdoes
    generalize e.apply v a.settings = result at hdoes
    cases hdoes with
    | fits hholds => simp [hholds, hgoes]
    | misfit hholds hsame => simp [hholds, hgoes, hsame]
    | overflow hexceeds => simp [hexceeds]

/-! ## All entries -/

/-- The entries that stand before the first one that ends the application. -/
def upToOverflow (es : List (String × Value)) : List (String × Value) := es.takeWhile fun e => !overflows e

/-- After a number that its setting cannot hold nothing is entered any more. -/
lemma foldl_overflowed {a : Applied} (hends : a.overflowed = true) (es : List (String × Value)) :
    es.foldl (fun a e => a.entry e.1 e.2) a = a := by
  induction es with
  | nil => rfl
  | cons e es ih =>
    have hstays : a.entry e.1 e.2 = a := by rw [Applied.entry, if_pos hends]
    rw [List.foldl_cons, hstays, ih]

/-- The entries of a list are entered up to the first one that asks for too large a number. -/
lemma foldl_entry {a : Applied} (hd : (es.map Prod.fst).Nodup) (hgoes : a.overflowed = false) :
    (es.foldl (fun a e => a.entry e.1 e.2) a).overflowed = es.any overflows ∧
      (es.foldl (fun a e => a.entry e.1 e.2) a).settings = entered a.settings (upToOverflow es) := by
  induction es generalizing a with
  | nil => exact ⟨hgoes, rfl⟩
  | cons e es ih =>
    obtain ⟨key, v⟩ := e
    obtain ⟨hkey, hd⟩ := List.nodup_cons.mp hd
    obtain ⟨hoverflowed, hsettings⟩ := entry_eq hgoes key v
    rw [List.foldl_cons, List.any_cons, upToOverflow, List.takeWhile_cons]
    cases hexceeds : overflows (key, v) with
    | true =>
      rw [hexceeds] at hoverflowed hsettings
      rw [foldl_overflowed hoverflowed, hoverflowed, hsettings]
      exact ⟨rfl, rfl⟩
    | false =>
      rw [hexceeds] at hoverflowed hsettings
      obtain ⟨hany, hentered⟩ := ih hd hoverflowed
      -- what is entered later concerns other settings, so that it may come on top of this entry
      have hrest : key ∉ (upToOverflow es).map Prod.fst := fun hmem =>
        hkey (((List.takeWhile_sublist _).map Prod.fst).subset hmem)
      rw [hany, hentered, hsettings]
      exact ⟨rfl, (entered_cons hrest a.settings v).symm⟩

/-- What is entered does not depend on the order of the entries. -/
lemma entered_perm {fs : List (String × Value)} (h : es.Perm fs) (hd : (fs.map Prod.fst).Nodup) (s : Settings) :
    entered s es = entered s fs := by
  simp only [entered, held, Table.look_perm h hd]

/-- The entries of a configuration are applied independently: the application comes to its end; each setting has the
value of its entry, if there is one and it fits, and else the previous value; the address of the registry ends with a
slash; and the order of the entries does not matter. -/
structure Independent (s : Settings) (c : Configuration) : Prop where
  ends : (apply s c).overflowed = false
  settings : (apply s c).settings = withSlash (entered s c.entries)
  slash : (apply s c).settings.registryUrl.toList.getLast? = some '/'
  order : ∀ c' : Configuration, c'.entries.Perm c.entries → (apply s c').settings = (apply s c).settings

lemma getLast?_slashed (address : String) : (slashed address).toList.getLast? = some '/' := by
  rw [slashed]
  split
  · next h => exact h
  · simp [String.toList_append]

/-- Without too large a number everything is entered. -/
lemma apply_of_holds {c : Configuration} (hholds : ∀ e ∈ c.entries, overflows e = false) (s : Settings) :
    (apply s c).overflowed = false ∧ (apply s c).settings = withSlash (entered s c.entries) := by
  obtain ⟨hany, hentered⟩ := foldl_entry (a := ⟨s, [], false⟩) c.distinct rfl
  have hnone : c.entries.any overflows = false := List.any_eq_false.mpr (by simpa using hholds)
  have hall : upToOverflow c.entries = c.entries := List.takeWhile_eq_self_iff.mpr (by simpa using hholds)
  rw [hnone] at hany
  rw [hall] at hentered
  rw [apply]
  dsimp only
  rw [if_neg (by simp [hany]), hentered]
  exact ⟨hany, rfl⟩

/-- With too large a number the entries in front of it are all that is entered. -/
lemma apply_of_overflows {c : Configuration} (hexceeds : ∃ e ∈ c.entries, overflows e = true) (s : Settings) :
    (apply s c).overflowed = true ∧ (apply s c).settings = entered s (upToOverflow c.entries) := by
  obtain ⟨hany, hentered⟩ := foldl_entry (a := ⟨s, [], false⟩) c.distinct rfl
  rw [List.any_eq_true.mpr hexceeds] at hany
  rw [apply]
  dsimp only
  rw [if_pos hany]
  exact ⟨hany, hentered⟩

/-- **Independent entries.**  The entries of a configuration are applied independently if and only if none of them asks
for a number that its setting cannot hold.  Otherwise just the entries in front of the first such one are entered, and
the address of the registry is left as it is. -/
theorem independent_iff (s : Settings) (c : Configuration) :
    (Independent s c ↔ ∀ e ∈ c.entries, overflows e = false) ∧
      ((∃ e ∈ c.entries, overflows e = true) →
        (apply s c).overflowed = true ∧ (apply s c).settings = entered s (upToOverflow c.entries)) := by
  refine ⟨⟨fun h e he => ?_, fun hholds => ?_⟩, fun hexceeds => apply_of_overflows hexceeds s⟩
  · by_contra hexceeds
    have hends := (apply_of_overflows ⟨e, he, by simpa using hexceeds⟩ s).1
    simp [h.ends] at hends
  · obtain ⟨hends, hsettings⟩ := apply_of_holds hholds s
    refine ⟨hends, hsettings, ?_, fun c' hperm => ?_⟩
    · rw [hsettings]
      exact getLast?_slashed (entered s c.entries).registryUrl
    · have hholds' : ∀ e ∈ c'.entries, overflows e = false := fun e he => hholds e (hperm.mem_iff.mp he)
      rw [(apply_of_holds hholds' s).2, hsettings, entered_perm hperm c.distinct]

/-- An infinite timeout, and an address. -/
def infiniteTimeout : Configuration :=
  Table.ofList [("request_timeout", .float (1.0 / 0.0)), ("registry_url", .text "https://r.example")]

theorem not_independent_infiniteTimeout : ¬ Independent {} infiniteTimeout := by
  intro h
  have hends : (apply {} infiniteTimeout).overflowed = true := by decide
  rw [h.ends] at hends
  cases hends

end SourceBundle.Settings
