/-
# Texts that cannot be read

Why the text of an import, of a declaration file or of a configuration is rejected, in words, and
what the rejected text was.
-/
import SourceBundle.Text.Quoted

namespace SourceBundle

/-- The kinds of document that must be a JSON object. -/
inductive DocumentKind
  /-- The declarations of a package. -/
  | manifest
  /-- The locked versions of a workspace. -/
  | lockfile
  /-- The settings of a project. -/
  | projectConfig
deriving DecidableEq, Repr

/-- The name of a kind of document. -/
def DocumentKind.word : DocumentKind → String
  | .manifest => "manifest"
  | .lockfile => "lockfile"
  | .projectConfig => "project config"

/-- The file that a kind of document is named by in a fault, if it is named at all. -/
def DocumentKind.file? : DocumentKind → Option String
  | .manifest => some "package.json"
  | .lockfile => some "package-lock.json"
  | .projectConfig => none

/-- Why a text is rejected. -/
inductive ParseFault
  /-- An import is empty or has blanks around it. -/
  | literal (text : String)
  /-- The scope of a package is no scope. -/
  | scope (text : String)
  /-- The name of a package is no name. -/
  | name (text : String)
  /-- The version after a package name is no version. -/
  | version (text : String)
  /-- The path inside a package has an empty component. -/
  | subpath (text : String)
  /-- A document is no JSON. -/
  | json (reason : String) (source : String)
  /-- A document is JSON, but no object. -/
  | noObject (kind : DocumentKind)
  /-- The remappings of a project configuration are no list of texts. -/
  | remappings
deriving DecidableEq, Repr

namespace ParseFault

/-- The fault in words. -/
def message : ParseFault → String
  | literal t => "Malformed import literal: " ++ Text.quoted t
  | scope t => "Malformed package scope in import: " ++ Text.quoted t
  | name t => "Malformed package name in import: " ++ Text.quoted t
  | version t => "Malformed version in import: " ++ Text.quoted t
  | subpath t => "Malformed subpath in import: " ++ Text.quoted t
  | json reason _ => s!"invalid JSON: {reason}"
  | noObject kind => s!"{kind.word} is not a JSON object"
  | remappings => "remappings must be a list of 'from=to' strings"

/-- The text or the file at fault, where it is named. -/
def source? : ParseFault → Option String
  | literal t | scope t | name t | version t | subpath t => some t
  | json _ source => some source
  | noObject kind => kind.file?
  | remappings => none

end ParseFault

end SourceBundle
