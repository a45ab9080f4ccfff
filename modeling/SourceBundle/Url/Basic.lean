/-
# Addresses

Taking an address apart into scheme, authority, path, query and fragment, and the form in which an
address is logged: without the user, the password and the fragment, and with masked credentials.
-/
import SourceBundle.Text.Lowercase
import SourceBundle.Url.Host
import SourceBundle.Url.Redact

namespace SourceBundle

open SourceBundle.Text

/-- The parts of an address. -/
structure Url where
  /-- The scheme, in lower case. -/
  scheme : List Char
  /-- The user, the host and the port. -/
  authority : List Char
  /-- The path. -/
  path : List Char
  /-- The query, without its question mark. -/
  query : List Char
  /-- The fragment, without its hash. -/
  fragment : List Char
deriving DecidableEq, Repr

namespace Url

/-- Whether a character may stand in a scheme. -/
def isSchemeChar (c : Char) : Bool := c.isAlphanum || c == '+' || c == '-' || c == '.'

/-- Take the scheme off an address; it begins with a letter and ends at the first colon. -/
def splitScheme (cs : List Char) : List Char × List Char :=
  match cutFirst ':' cs with
  | (scheme, some rest) =>
    if (scheme.head?.any Char.isAlpha) && scheme.all isSchemeChar then
      (scheme.map Char.toLower, rest)
    else ([], cs)
  | (_, none) => ([], cs)

/-- Whether a character ends the authority. -/
def endsAuthority (c : Char) : Bool := c == '/' || c == '?' || c == '#'

/-- Take the authority off an address without scheme. -/
def splitAuthority (cs : List Char) : List Char × List Char :=
  match cs with
  | '/' :: '/' :: rest =>
    (rest.takeWhile (!endsAuthority ·), rest.dropWhile (!endsAuthority ·))
  | _ => ([], cs)

/-- The characters whose compatibility form holds one of those that separate the parts. -/
def disguised : List Nat :=
  [0x2047, 0x2048, 0x2049, 0x2100, 0x2101, 0x2105, 0x2106, 0x2A74, 0xFE13, 0xFE16, 0xFE55, 0xFE56,
    0xFE5F, 0xFE6B, 0xFF03, 0xFF0F, 0xFF1A, 0xFF1F, 0xFF20]

/-- Whether an authority can be taken apart: its brackets are balanced, hold an address, and no
character is a separator in disguise. -/
def isAuthority (cs : List Char) : Bool :=
  let opened := '[' ∈ cs
  let closed := ']' ∈ cs
  if opened != closed then false
  else if opened && !isBracketed (cutFirst ']' ((cutFirst '[' cs).2.getD [])).1 then false
  else cs.all fun c => c.toNat ∉ disguised

/-- Take an address apart; nothing when its authority is malformed.  Blanks and controls in front
are passed over, and line ends and tabs are ignored everywhere. -/
def split? (text : String) : Option Url :=
  let cs := (text.toList.dropWhile fun c => c.toNat ≤ 32).filter fun c =>
    c != '\t' && c != '\r' && c != '\n'
  let (scheme, cs) := splitScheme cs
  let (authority, cs) := splitAuthority cs
  if isAuthority authority then
    let (cs, fragment) := cutFirst '#' cs
    let (path, query) := cutFirst '?' cs
    some ⟨scheme, authority, path, query.getD [], fragment.getD []⟩
  else none

/-- The host and the port of an authority, as written: behind the last at sign, a host up to the
first colon, or one in brackets. -/
def hostPort (authority : List Char) : List Char × List Char :=
  let cs := match cutLast? '@' authority with
    | some (_, rest) => rest
    | none => authority
  match cutFirst '[' cs with
  | (_, some inner) =>
    let (host, rest) := cutFirst ']' inner
    (host, (cutFirst ':' (rest.getD [])).2.getD [])
  | (_, none) =>
    let (host, port) := cutFirst ':' cs
    (host, port.getD [])

/-- A host in lower case; a zone behind a percent sign keeps its case. -/
def lowerHost (host : List Char) : List Char :=
  let (name, zone) := cutFirst '%' host
  name.flatMap lowerChar ++ match zone with
    | some z => '%' :: z
    | none => []

/-- The number of a written port, if it is one: zero also for a missing one. -/
def portNumber? (port : List Char) : Option Nat :=
  if port.all Char.isDigit && port.length ≤ longestNumeral then
    let n := numberOf port
    if n ≤ 65535 then some n else none
  else none

/-- The schemes whose addresses always have an authority, even an empty one. -/
def hierarchical : List String :=
  ["ftp", "http", "gopher", "nntp", "telnet", "imap", "wais", "file", "mms", "https", "shttp",
    "snews", "prospero", "rtsp", "rtsps", "rtspu", "rsync", "svn", "svn+ssh", "sftp", "nfs", "git",
    "git+ssh", "ws", "wss"]

/-- The written form of an address. -/
def render (u : Url) : String :=
  let written :=
    if !u.authority.isEmpty || hierarchical.contains (String.ofList u.scheme) ||
        beginsWith ['/', '/'] u.path then
      '/' :: '/' :: u.authority ++
        (if u.path.isEmpty || u.path.head? = some '/' then u.path else '/' :: u.path)
    else u.path
  let written := if u.scheme.isEmpty then written else u.scheme ++ ':' :: written
  let written := if u.query.isEmpty then written else written ++ '?' :: u.query
  String.ofList (if u.fragment.isEmpty then written else written ++ '#' :: u.fragment)

/-- An address whose port is no number of a port. -/
structure PortFault where
deriving DecidableEq, Repr

/-- The form in which an address is logged.  One that cannot be taken apart is only redacted. -/
def safe (text : String) : Except PortFault String :=
  match split? text with
  | none => .ok (redact text)
  | some u =>
    let (host, port) := hostPort u.authority
    match portNumber? port with
    | none => .error {}
    | some n =>
      let authority := lowerHost host ++ if n = 0 then [] else ':' :: Nat.toDigits 10 n
      .ok (render ⟨u.scheme, authority, u.path, redactFrom .search u.query, []⟩)

end Url

end SourceBundle
