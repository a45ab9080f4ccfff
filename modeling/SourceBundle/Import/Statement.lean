/-
# Import statements

The six forms of an import statement, and where they occur in a source file.  A form is a sequence
of tokens after the word `import`; it is looked for in the masked text, where a literal is a run of
spaces and line feeds between two quotes, and the path is then cut from the file itself.
-/
import SourceBundle.Import.Mask
import SourceBundle.Sort
import SourceBundle.Text.Blank
import SourceBundle.Text.Cut
import SourceBundle.Text.Word

namespace SourceBundle.Import

open SourceBundle.Text

/-- A part of an import statement. -/
inductive Token
  /-- Any number of blanks. -/
  | gap
  /-- At least one blank. -/
  | space
  /-- A run of word characters. -/
  | name
  /-- The given letters. -/
  | letters (w : List Char)
  /-- A list of symbols in braces. -/
  | braces
  /-- A quoted path. -/
  | path
deriving DecidableEq, Repr

/-- The forms of an import statement. -/
inductive Form
  /-- The path alone. -/
  | bare
  /-- The path under another name. -/
  | aliased
  /-- Some symbols of the file. -/
  | symbols
  /-- All symbols of the file under a name. -/
  | wildcard
  /-- A name for the file. -/
  | named
  /-- A name for the file and some of its symbols. -/
  | namedSymbols
deriving DecidableEq, Repr

/-- The end of a statement that names its path last. -/
def fromPath : List Token := [.letters "from".toList, .space, .path, .gap, .letters [';']]

/-- The tokens of a form after the word `import`. -/
def Form.tokens : Form → List Token
  | .bare => [.space, .path, .gap, .letters [';']]
  | .aliased => [.space, .path, .space, .letters "as".toList, .space, .name, .gap, .letters [';']]
  | .symbols => [.gap, .braces, .gap] ++ fromPath
  | .wildcard =>
    [.space, .letters ['*'], .space, .letters "as".toList, .space, .name, .space] ++ fromPath
  | .named => [.space, .name, .space] ++ fromPath
  | .namedSymbols => [.space, .name, .gap, .letters [','], .gap, .braces, .gap] ++ fromPath

/-- All forms. -/
def Form.all : List Form := [.bare, .aliased, .symbols, .wildcard, .named, .namedSymbols]

/-- A part of a text, by its offsets. -/
structure Span where
  /-- The offset of the first character. -/
  start : Nat
  /-- The offset behind the last character. -/
  stop : Nat
deriving DecidableEq, Repr

/-- What is left of a text, and the offset of its first character. -/
structure Place where
  /-- The offset. -/
  pos : Nat
  /-- The characters from there on. -/
  rest : List Char
deriving DecidableEq, Repr

/-- The place behind the first `n` characters. -/
def Place.forward (p : Place) (n : Nat) : Place := ⟨p.pos + n, p.rest.drop n⟩

/-- The place behind the longest run of characters of a class. -/
def Place.behind (p : Place) (cls : Char → Bool) : Place := p.forward (p.rest.takeWhile cls).length

/-- The place behind a run of at least one character of a class. -/
def Place.behindSome? (p : Place) (cls : Char → Bool) : Option Place :=
  if (p.rest.takeWhile cls).isEmpty then none else some (p.behind cls)

/-- Whether a character is a quote. -/
def isQuote (c : Char) : Bool := c == '\'' || c == '"'

/-- A quoted path: a quote, at least one character that is none, and the same quote. -/
def Place.quoted? (p : Place) : Option (Span × Place) :=
  match p.rest with
  | [] => none
  | q :: _ =>
    if isQuote q then do
      let inside := p.forward 1
      let behind ← inside.behindSome? fun c => !isQuote c
      if behind.rest.head? = some q then some (⟨inside.pos, behind.pos⟩, behind.forward 1) else none
    else none

/-- The place behind a token, and the path if the token is one. -/
def Token.match? (t : Token) (p : Place) : Option (Option Span × Place) :=
  match t with
  | .gap => some (none, p.behind isBlank)
  | .space => (p.behindSome? isBlank).map (none, ·)
  | .name => (p.behindSome? isWord).map (none, ·)
  | .letters w => if beginsWith w p.rest then some (none, p.forward w.length) else none
  | .braces =>
    if p.rest.head? = some '{' then
      let stop := p.behind (· != '}')
      if stop.rest.isEmpty then none else some (none, stop.forward 1)
    else none
  | .path => p.quoted?.map fun (s, p) => (some s, p)

/-- The place behind a sequence of tokens, and the last path among them. -/
def matchTokens? (found : Option Span) : List Token → Place → Option (Option Span × Place)
  | [], p => some (found, p)
  | t :: ts, p => do
    let (s, p) ← t.match? p
    matchTokens? (s.or found) ts p

/-- A statement of a form that begins at a place: its path, and the place behind it. -/
def Form.match? (f : Form) (p : Place) : Option (Span × Place) := do
  let (path, p) ← matchTokens? none (.letters "import".toList :: f.tokens) p
  let path ← path
  pure (path, p)

/-- The paths of the statements of a form from an offset on.  Statements do not overlap: `skip`
counts the characters of the last one that are still to be passed over.  The word `import` must
not continue another word, which `inWord` tells. -/
def Form.paths (f : Form) (skip : Nat) (inWord : Bool) (pos : Nat) : List Char → List Span
  | [] => []
  | c :: rest =>
    match skip with
    | skip + 1 => f.paths skip (isWord c) (pos + 1) rest
    | 0 =>
      match if inWord then none else f.match? ⟨pos, c :: rest⟩ with
      | some (path, stop) => path :: f.paths (stop.pos - pos - 1) (isWord c) (pos + 1) rest
      | none => f.paths 0 (isWord c) (pos + 1) rest

/-- Add a path unless one that begins at the same offset is already there. -/
def addPath (paths : List Span) (s : Span) : List Span :=
  if paths.any (·.start == s.start) then paths else paths ++ [s]

/-- The paths of all statements of a masked text, in the order of their offsets. -/
def pathsOf (masked : List Char) : List Span :=
  sortBy (fun a b => a.start ≤ b.start)
    ((Form.all.flatMap fun f => f.paths 0 false 0 masked).foldl addPath [])

/-- Whether a path is relative to the file that imports it. -/
def isRelative (path : String) : Bool :=
  beginsWith "./".toList path.toList || beginsWith "../".toList path.toList

/-- The endings, in lower case, of files that are compiled from their literal sources only. -/
def selfContainedEndings : List String := [".yul"]

/-- Whether import statements are looked for in a file. -/
def hasGrammar (path : String) : Bool :=
  let lower := path.toList.map Char.toLower
  !selfContainedEndings.any fun e => endsWith e.toList lower

/-- An import statement of a source file. -/
structure Reference where
  /-- The file that holds the statement. -/
  file : String
  /-- The path as written. -/
  path : String
  /-- Where the path stands in the file. -/
  span : Span
deriving DecidableEq, Repr

/-- The characters of a span. -/
def Span.cut (s : Span) (cs : List Char) : List Char := (cs.drop s.start).take (s.stop - s.start)

/-- The import statements of a file, in the order of the text. -/
def extract (content file : String) : List Reference :=
  if hasGrammar file then
    let cs := content.toList
    (pathsOf (maskFrom .code cs)).map fun s => ⟨file, String.ofList (s.cut cs), s⟩
  else []

end SourceBundle.Import
