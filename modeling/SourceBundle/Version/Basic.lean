/-
# Versions

A version has three numbers, perhaps the identifiers of a prerelease, and perhaps those of a
build.  Precedence compares the numbers, then the prereleases; a version without prerelease comes
after all its prereleases, and builds do not count.
-/
import SourceBundle.Text.Blank
import SourceBundle.Text.Cut
import SourceBundle.Text.Digit

namespace SourceBundle

open SourceBundle.Text

/-- A version. -/
structure Version where
  /-- The first number. -/
  major : Nat
  /-- The second number. -/
  minor : Nat
  /-- The third number. -/
  patch : Nat
  /-- The identifiers of the prerelease; empty for a release. -/
  prerelease : List String
  /-- The identifiers of the build. -/
  build : List String
deriving DecidableEq, Repr

namespace Version

/-- The release with three given numbers. -/
def release (major minor patch : Nat) : Version := ⟨major, minor, patch, [], []⟩

/-- The version without prerelease and build. -/
def core (v : Version) : Version := release v.major v.minor v.patch

/-- The version without build. -/
def withoutBuild (v : Version) : Version := { v with build := [] }

/-- Whether two versions have the same three numbers. -/
def sameCore (v w : Version) : Bool :=
  v.major == w.major && v.minor == w.minor && v.patch == w.patch

/-- The printed form of a version. -/
def render (v : Version) : String :=
  s!"{v.major}.{v.minor}.{v.patch}" ++
    (if v.prerelease.isEmpty then "" else "-" ++ ".".intercalate v.prerelease) ++
    (if v.build.isEmpty then "" else "+" ++ ".".intercalate v.build)

/-! ## Precedence -/

/-- Whether an identifier is a number. -/
def isNumeric (i : String) : Bool := i.toList.all Char.isDigit

/-- The order of two identifiers: numbers by value and before words, words by their letters. -/
def compareIdentifiers (a b : String) : Ordering :=
  match isNumeric a, isNumeric b with
  | true, true => compare (numberOf a.toList) (numberOf b.toList)
  | true, false => .lt
  | false, true => .gt
  | false, false => compareOfLessAndEq a b

/-- The order of two lists of identifiers: by the first difference, else the shorter is first. -/
def compareLists : List String → List String → Ordering
  | [], [] => .eq
  | [], _ :: _ => .lt
  | _ :: _, [] => .gt
  | a :: as, b :: bs => (compareIdentifiers a b).then (compareLists as bs)

/-- The order of two prereleases, of which the missing one is last. -/
def comparePrereleases (a b : List String) : Ordering :=
  match a, b with
  | [], [] => .eq
  | [], _ :: _ => .gt
  | _ :: _, [] => .lt
  | a, b => compareLists a b

/-- The order of precedence. -/
def order (v w : Version) : Ordering :=
  (compare v.major w.major).then <| (compare v.minor w.minor).then <|
    (compare v.patch w.patch).then <| comparePrereleases v.prerelease w.prerelease

/-- Whether a version comes before another. -/
def before (v w : Version) : Bool := v.order w == .lt

/-! ## Successors -/

/-- The next version with a new first number: the release of a prerelease of such a version. -/
def nextMajor (v : Version) : Version :=
  if !v.prerelease.isEmpty && v.minor == 0 && v.patch == 0 then release v.major 0 0
  else release (v.major + 1) 0 0

/-- The next version with a new second number: the release of a prerelease of such a version. -/
def nextMinor (v : Version) : Version :=
  if !v.prerelease.isEmpty && v.patch == 0 then release v.major v.minor 0
  else release v.major (v.minor + 1) 0

/-- The next release: that of the prerelease itself, or the one with the next third number. -/
def nextPatch (v : Version) : Version :=
  if !v.prerelease.isEmpty then v.core else release v.major v.minor (v.patch + 1)

/-! ## Reading -/

/-- Why identifiers make no version. -/
inductive IdentifierFault
  /-- One of the identifiers is empty. -/
  | empty (all : String)
  /-- A number begins with a zero. -/
  | leadingZero (identifier : String)
  /-- A number has more digits than are read. -/
  | tooLong (digits : Nat)
deriving DecidableEq, Repr

/-- Check the identifiers of a prerelease, or with `zeros` those of a build. -/
def checkIdentifiers (zeros : Bool) (all : String) : List String → Except IdentifierFault Unit
  | [] => .ok ()
  | i :: rest =>
    if i.isEmpty then .error (.empty all)
    else if !zeros && i.length > 1 && i.toList.head? = some '0' && isNumeric i then
      .error (.leadingZero i)
    else checkIdentifiers zeros all rest

/-- The first number among identifiers that is too long to be read. -/
def longNumber? (ids : List String) : Option Nat :=
  (ids.find? fun i => isNumeric i && i.length > longestNumeral).map String.length

/-- The version with given numbers and the written forms of prerelease and build, of which an empty
one means none. -/
def make (major minor patch : Nat) (prerelease build : List Char) :
    Except IdentifierFault Version := do
  let split (cs : List Char) : List String :=
    if cs.isEmpty then [] else (pieces '.' cs).map String.ofList
  let pre := split prerelease
  let bld := split build
  checkIdentifiers false (String.ofList prerelease) pre
  checkIdentifiers true (String.ofList build) bld
  match longNumber? (pre ++ bld) with
  | some n => throw (.tooLong n)
  | none => pure ⟨major, minor, patch, pre, bld⟩

/-- Read a number in the digits of any script; it must not begin with the ASCII zero unless it is
that zero alone. -/
def readNumber? (cs : List Char) : Option (Nat × List Char) :=
  let ds := cs.takeWhile isDecimal
  if ds.isEmpty || (ds.length > 1 && ds.head? = some '0') || ds.length > longestNumeral then none
  else some (numberOf ds, cs.dropWhile isDecimal)

/-- Pass over a full stop. -/
def readDot? : List Char → Option (List Char)
  | '.' :: rest => some rest
  | _ => none

/-- Whether a character may stand in the identifiers of a prerelease or a build. -/
def isIdentifierChar (c : Char) : Bool := c.isAlphanum || c == '.' || c == '-'

/-- Read identifiers behind a mark: nothing when the mark is missing, and a failure when it is
there without any character behind it. -/
def readIdentifiers? (mark : Char) (cs : List Char) : Option (List Char × List Char) :=
  match cs with
  | [] => some ([], [])
  | c :: rest =>
    if c = mark then
      let ids := rest.takeWhile isIdentifierChar
      if ids.isEmpty then none else some (ids, rest.dropWhile isIdentifierChar)
    else some ([], cs)

/-- Read a version that stands alone. -/
def readChars? (cs : List Char) : Option Version := do
  let (major, cs) ← readNumber? cs
  let cs ← readDot? cs
  let (minor, cs) ← readNumber? cs
  let cs ← readDot? cs
  let (patch, cs) ← readNumber? cs
  let (pre, cs) ← readIdentifiers? '-' cs
  let (bld, cs) ← readIdentifiers? '+' cs
  if cs.isEmpty then (make major minor patch pre bld).toOption else none

/-- Whether a character may stand in front of a version. -/
def isMark (c : Char) : Bool := c == '=' || c == 'v'

/-- Read a version; blanks around it and equals signs or the letter v in front are passed over. -/
def parse? (text : String) : Option Version :=
  readChars? (trimChars ((trimChars text.toList).dropWhile isMark))

/-- Whether a text is a version rather than a range. -/
def isExact (text : String) : Bool := (parse? text).isSome

end Version

end SourceBundle
