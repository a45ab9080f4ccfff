/-
# Package references

An import that names a file of a package: an optional scope, the name, an optional version behind
an at sign, and the path of the file inside the package, as in `@scope/name@1.2.3/dir/File.sol`.
-/
import SourceBundle.Fault.Parse
import SourceBundle.Text.Blank
import SourceBundle.Text.Cut

namespace SourceBundle.Import

open SourceBundle.Text

/-- A file of a package, as an import names it. -/
structure PackageReference where
  /-- The scope, with its at sign. -/
  scope? : Option String
  /-- The name inside the scope. -/
  name : String
  /-- The version or range behind the name. -/
  version? : Option String
  /-- The path inside the package; empty when only the package is named. -/
  subpath : String
deriving DecidableEq, Repr

namespace PackageReference

/-- The name under which a registry knows the package. -/
def fullName (r : PackageReference) : String :=
  match r.scope? with
  | none => r.name
  | some scope => s!"{scope}/{r.name}"

/-- The written form of a reference. -/
def render (r : PackageReference) : String :=
  r.fullName ++ (r.version?.elim "" ("@" ++ ·)) ++ (if r.subpath.isEmpty then "" else "/" ++ r.subpath)

end PackageReference

/-- Whether a character may stand in a scope or a name. -/
def isNameChar (c : Char) : Bool :=
  c.isAlphanum || c == '.' || c == '_' || c == '~' || c == '-'

/-- Whether a character may stand in a version or range. -/
def isVersionChar (c : Char) : Bool :=
  c.isAlphanum || c == '.' || c == '^' || c == '~' || c == '<' || c == '>' || c == '=' ||
    c == '*' || c == '+' || c == '-' || c == '|'

/-- Whether a text is a run of characters of a class, perhaps with one line feed behind it. -/
def isRun (cls : Char → Bool) (cs : List Char) : Bool :=
  let body := if cs.getLast? = some '\n' then cs.dropLast else cs
  !body.isEmpty && body.all cls

/-- Whether two slashes stand side by side. -/
def hasDoubleSlash : List Char → Bool
  | '/' :: '/' :: _ => true
  | _ :: rest => hasDoubleSlash rest
  | [] => false

/-- Take the scope off a literal. -/
def splitScope (literal : String) (cs : List Char) :
    Except ParseFault (Option String × List Char) :=
  match cs with
  | '@' :: _ =>
    match cutFirst '/' cs with
    | (scope, some rest) =>
      if isRun isNameChar (scope.drop 1) then .ok (some (String.ofList scope), rest)
      else .error (.scope literal)
    | (_, none) => .error (.scope literal)
  | _ => .ok (none, cs)

/-- Read a package reference. -/
def PackageReference.parse (literal : String) : Except ParseFault PackageReference := do
  let cs := literal.toList
  if cs.isEmpty || cs != trimChars cs then throw (.literal literal)
  let (scope?, rest) ← splitScope literal cs
  let (head, tail?) := cutFirst '/' rest
  let subpath := tail?.getD []
  let (name, version?) := cutFirst '@' head
  if !isRun isNameChar name then throw (.name literal)
  if !version?.all (isRun isVersionChar) then throw (.version literal)
  if subpath.head? = some '/' || hasDoubleSlash subpath then throw (.subpath literal)
  pure ⟨scope?, String.ofList name, version?.map String.ofList, String.ofList subpath⟩

end SourceBundle.Import
