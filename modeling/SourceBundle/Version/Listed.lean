/-
# Listed ranges

The plain notation of ranges, to which a text is brought that is no declared range: blocks
separated by commas, all of which must hold.  Prereleases come naturally, unless a block ends with
a bare hyphen, and builds count where a block ends with a bare plus sign.
-/
import SourceBundle.Text.Quoted
import SourceBundle.Version.Range

namespace SourceBundle.Version

open SourceBundle.Text

/-- Why a text is no range. -/
inductive RangeFault
  /-- A block has another form. -/
  | block (text : String)
  /-- The parts of a block do not go together. -/
  | parts (text : String)
  /-- The identifiers of a block make no version. -/
  | identifiers (f : IdentifierFault)
  /-- A number has more digits than are read. -/
  | tooLong (digits : Nat)
deriving DecidableEq, Repr

/-- A number of too many digits, in words. -/
def tooLongMessage (digits : Nat) : String :=
  s!"Exceeds the limit ({longestNumeral} digits) for integer string conversion: value has {digits} digits; use sys.set_int_max_str_digits() to increase the limit"

/-- The fault in words. -/
def RangeFault.message : RangeFault → String
  | .block t => "Invalid simple block " ++ quoted t
  | .parts t => "Invalid simple spec: " ++ quoted t
  | .identifiers (.empty all) => "Invalid empty identifier '' in " ++ quoted all
  | .identifiers (.leadingZero i) => "Invalid leading zero in identifier " ++ quoted i
  | .identifiers (.tooLong n) => tooLongMessage n
  | .tooLong n => tooLongMessage n

/-- The notation of the blocks of listed ranges. -/
def listedNotation : Notation where
  signs := [("<=".toList, .compared .le), ("<".toList, .compared .lt), ("==".toList, .compared .eq),
    ("=".toList, .compared .eq), (">=".toList, .compared .ge), (">".toList, .compared .gt),
    ("!=".toList, .compared .ne), ("^".toList, .caret), ("~=".toList, .compatible),
    ("~".toList, .tilde), ([], .compared .eq)]
  wildcards := ['*']
  marked := false

/-- A clause of a listed range. -/
def listed (c : Comparison) (target : Version) : Clause := ⟨c, target, .natural, false⟩

/-- The first version that a sign excludes after the target, for the signs that name a series. -/
def Block.seriesEnd (b : Block) (target : Version) : Version :=
  match b.sign with
  | .caret =>
    if target.major != 0 then target.nextMajor
    else if target.minor != 0 then target.nextMinor
    else target.nextPatch
  | .compatible => if b.minor?.isNone || b.patch?.isNone then target.nextMajor else target.nextMinor
  | _ => if b.minor?.isNone then target.nextMajor else target.nextMinor

/-- The terms of a comparison with a block that has a first number. -/
def Block.comparedTerms (b : Block) (c : Comparison) (target : Version) : List (List Clause) :=
  let next? :=
    if b.minor?.isNone then some target.nextMajor
    else if b.patch?.isNone then some target.nextMinor
    else none
  let strict := b.build? = some []
  let always := b.prerelease? = some []
  match c, next? with
  | .eq, some next => [[listed .ge target], [listed .lt next]]
  | .eq, none => [[{ listed .eq target with strictBuild := strict }]]
  | .ne, some next => [[listed .lt target, listed .ge next]]
  | .ne, none =>
    if always then [[{ listed .ne target with rule := .always }]]
    else [[{ listed .ne target with strictBuild := strict }]]
  | .gt, some next => [[listed .ge next]]
  | .lt, _ => if always then [[{ listed .lt target with rule := .always }]] else [[listed .lt target]]
  | .le, some next => [[listed .lt next]]
  | c, _ => [[listed c target]]

/-- The terms of a block whose text is given.  Only the equality signs go with a build, and only
they and the sign for later versions go with a wildcard alone. -/
def Block.listedTerms (b : Block) (text : String) : Except RangeFault (List (List Clause)) := do
  let equality := b.sign = .compared .eq ∨ b.sign = .compared .ne
  if b.major?.isNone && b.sign != .compared .eq && b.sign != .compared .ge then throw (.parts text)
  let target ← b.target.mapError .identifiers
  if b.isPartial && b.hasIdentifiers then throw (.parts text)
  if b.build?.isSome && !equality then throw (.parts text)
  match b.major?, b.sign with
  | none, _ => pure [[listed .ge target]]
  | some _, .compared c => pure (b.comparedTerms c target)
  | some _, _ => pure [[listed .ge target], [listed .lt (b.seriesEnd target)]]

/-- The terms of the text of a block. -/
def listedBlock (cs : List Char) : Except RangeFault (List (List Clause)) :=
  match listedNotation.block cs with
  | .error .misfit => .error (.block (String.ofList cs))
  | .error (.tooLong n) => .error (.tooLong n)
  | .ok b => b.listedTerms (String.ofList cs)

/-- Read a listed range. -/
def Range.ofListed (text : String) : Except RangeFault Range := do
  let blocks ← (pieces ',' text.toList).mapM listedBlock
  pure ⟨[blocks.flatten]⟩

/-! ## Bringing a text to the notation -/

/-- Whether a character may stand in an end of a hyphen range. -/
def isEndChar (c : Char) : Bool := c.isAlphanum || c == '.' || c == '-' || c == '+'

/-- The two ends of a range written with a hyphen between blanks. -/
def hyphenEnds? (cs : List Char) : Option (List Char × List Char) := do
  let low := cs.takeWhile isEndChar
  let rest := cs.dropWhile isEndChar
  let gap := rest.takeWhile isBlank
  let rest := rest.dropWhile isBlank
  if low.isEmpty || gap.isEmpty then none
  let rest ← dropPrefix? ['-'] rest
  let gap := rest.takeWhile isBlank
  let high := rest.dropWhile isBlank
  if gap.isEmpty || high.isEmpty || !high.all isEndChar then none
  pure (low, high)

/-- A number of digits of any script, and what follows. -/
def wholeNumber? (cs : List Char) : Option (List Char × List Char) :=
  let ds := cs.takeWhile isDecimal
  if ds.isEmpty then none else some (ds, cs.dropWhile isDecimal)

/-- The value of a run of digits. -/
def numberValue (ds : List Char) : Except RangeFault Nat :=
  if ds.length > longestNumeral then .error (.tooLong ds.length) else .ok (numberOf ds)

/-- The numbers of a series: one or two of them, and in their place a wildcard for the next. -/
def series? (cs : List Char) : Option (List Char × Option (List Char)) := do
  let (major, rest) ← wholeNumber? cs
  match rest with
  | [] | ['.', 'x'] => some (major, none)
  | '.' :: rest =>
    let (minor, rest) ← wholeNumber? rest
    if rest = ['.', 'x'] then some (major, some minor) else none
  | _ => none

/-- Bring a range to the listed notation: two ends with a hyphen, and one or two numbers with a
wildcard.  Any other text stays exactly as it is, blanks included. -/
def normalize (text : String) : Except RangeFault String :=
  let cs := trimChars text.toList
  match hyphenEnds? cs with
  | some (low, high) => .ok s!">={String.ofList low},<={String.ofList high}"
  | none =>
    match series? (cs.map fun c => if c = '*' then 'x' else c.toLower) with
    | some (major, some minor) => do
      let major ← numberValue major
      let minor ← numberValue minor
      pure s!">={major}.{minor}.0,<{major}.{minor + 1}.0"
    | some (major, none) => do
      let major ← numberValue major
      pure s!">={major}.0.0,<{major + 1}.0.0"
    | none => .ok text

end SourceBundle.Version
