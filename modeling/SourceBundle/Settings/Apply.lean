/-
# Applying a configuration

The entries of a configuration are applied one after the other.  An unknown key and a value that
does not fit are reported and change nothing; a number that its type cannot hold ends the
application where it stands.  Afterwards the address of the registry ends with a slash.
-/
import SourceBundle.Settings.Basic
import SourceBundle.Settings.Value
import SourceBundle.Table

namespace SourceBundle.Settings

/-- A configuration: values under their keys, in the order in which they are applied. -/
abbrev Configuration := Table String Value

/-- A setting: its key, and how a value changes the settings. -/
structure Entry where
  /-- The key. -/
  key : String
  /-- The settings with a value entered. -/
  apply : Value → Settings → Except Value.Misfit Settings

/-- The settings that a configuration can change. -/
def known : List Entry :=
  [⟨"registry_url", fun v s => v.toText.map fun t => { s with registryUrl := t }⟩,
    ⟨"request_timeout", fun v s => v.toInt.map fun n => { s with requestTimeout := n }⟩,
    ⟨"http_retry_max", fun v s => v.toInt.map fun n => { s with retryMax := n }⟩,
    ⟨"http_retry_base_delay", fun v s => v.toFloat.map fun x => { s with retryDelay := x }⟩,
    ⟨"deps_dir", fun v s => v.toText.map fun t => { s with depsDir := t }⟩,
    ⟨"deps_npm_dir", fun v s => v.toText.map fun t => { s with packageDir := t }⟩,
    ⟨"resolution_index_file", fun v s => v.toText.map fun t => { s with indexFile := t }⟩,
    ⟨"bundle_snapshot_dir", fun v s => v.toText.map fun t => { s with snapshotDir := t }⟩,
    ⟨"remappings_file", fun v s => v.toText.map fun t => { s with remappingsFile := t }⟩,
    ⟨"project_config_file", fun v s => v.toText.map fun t => { s with projectConfigFile := t }⟩,
    ⟨"use_file_configuration", fun v s => .ok { s with useFileConfiguration := v.toBool }⟩,
    ⟨"materialize_dependencies", fun v s => .ok { s with materialize := v.toBool }⟩,
    ⟨"write_bundle_snapshot", fun v s => .ok { s with writeSnapshot := v.toBool }⟩]

/-- What is reported about an entry. -/
inductive Notice
  /-- The key is unknown. -/
  | unknownKey (key : String)
  /-- The value does not fit. -/
  | invalidValue (key : String) (value : String)
deriving DecidableEq, Repr

/-- The notice in words. -/
def Notice.message : Notice → String
  | .unknownKey key => s!"Ignoring unknown configuration key: {key}"
  | .invalidValue key value => s!"Invalid value for {key}: {value}, keeping default"

/-- What has come of applying entries. -/
structure Applied where
  /-- The settings. -/
  settings : Settings
  /-- What was reported, oldest first. -/
  notices : List Notice
  /-- Whether a number was too large for its type. -/
  overflowed : Bool

/-- Apply one entry. -/
def Applied.entry (a : Applied) (key : String) (v : Value) : Applied :=
  if a.overflowed then a
  else
    match known.find? fun e => e.key == key with
    | none => { a with notices := a.notices ++ [.unknownKey key] }
    | some e =>
      match e.apply v a.settings with
      | .ok s => { a with settings := s }
      | .error .invalid => { a with notices := a.notices ++ [.invalidValue key v.shown] }
      | .error .overflow => { a with overflowed := true }

/-- An address with the slash that it ends with. -/
def slashed (address : String) : String :=
  if address.toList.getLast? = some '/' then address else address ++ "/"

/-- Apply a configuration. -/
def apply (s : Settings) (c : Configuration) : Applied :=
  let a := c.entries.foldl (fun a e => a.entry e.1 e.2) ⟨s, [], false⟩
  if a.overflowed then a
  else { a with settings := { a.settings with registryUrl := slashed a.settings.registryUrl } }

end SourceBundle.Settings
