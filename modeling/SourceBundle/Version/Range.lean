/-
# Ranges of versions

A clause compares a version with a target.  A range is a choice of groups; a group holds when all
of its terms hold, and a term is again a choice of clauses.  Which prereleases a clause lets in is
its own rule: all, those of the target's release only, or all that come naturally.
-/
import SourceBundle.Version.Basic

namespace SourceBundle.Version

/-- How a version is compared with a target. -/
inductive Comparison
  /-- The version is the target. -/
  | eq
  /-- The version is not the target. -/
  | ne
  /-- The version comes before the target. -/
  | lt
  /-- The version comes before the target or equals it. -/
  | le
  /-- The version comes after the target. -/
  | gt
  /-- The version comes after the target or equals it. -/
  | ge
deriving DecidableEq, Repr

/-- Which prereleases a clause admits. -/
inductive PrereleaseRule
  /-- All of them. -/
  | always
  /-- All but those of the very release that the clause excludes. -/
  | natural
  /-- Only those of the target's release. -/
  | samePatch
deriving DecidableEq, Repr

/-- A comparison with a target. -/
structure Clause where
  /-- The comparison. -/
  comparison : Comparison
  /-- What a version is compared with. -/
  target : Version
  /-- Which prereleases are admitted. -/
  rule : PrereleaseRule
  /-- Whether a target without build is equal only to versions without build. -/
  strictBuild : Bool
deriving DecidableEq, Repr

namespace Clause

/-- Whether builds count for a clause. -/
def countsBuild (c : Clause) : Bool := c.strictBuild || !c.target.build.isEmpty

/-- Whether a version is a prerelease of the release that the target is. -/
def isOwnPrerelease (c : Clause) (v : Version) : Bool :=
  !v.prerelease.isEmpty && c.rule == .natural && v.sameCore c.target &&
    c.target.prerelease.isEmpty

/-- Whether a version satisfies a clause. -/
def holds (c : Clause) (version : Version) : Bool :=
  let v := if c.countsBuild then version else version.withoutBuild
  if !v.prerelease.isEmpty && c.rule == .samePatch && !v.sameCore c.target then false
  else
    match c.comparison with
    | .eq => v == c.target
    | .ne => if !c.countsBuild && c.isOwnPrerelease v then false else v != c.target
    | .gt => v.order c.target == .gt
    | .ge => v.order c.target != .lt
    | .lt => if c.isOwnPrerelease v then false else v.order c.target == .lt
    | .le => v.order c.target != .gt

end Clause

/-- A range of versions, as a choice of groups of terms, each a choice of clauses. -/
structure Range where
  /-- The groups. -/
  groups : List (List (List Clause))
deriving DecidableEq, Repr

/-- Whether a version lies in a range. -/
def Range.contains (r : Range) (v : Version) : Bool :=
  r.groups.any fun group => group.all fun term => term.any fun c => c.holds v

/-! ## Blocks -/

/-- The sign in front of a block. -/
inductive Sign
  /-- A comparison. -/
  | compared (c : Comparison)
  /-- Versions compatible with the block: the leftmost number that is not zero stays. -/
  | caret
  /-- Versions with the same first two numbers. -/
  | tilde
  /-- Versions of the same series as the block. -/
  | compatible
deriving DecidableEq, Repr

/-- A sign and a version that may be partial: a number that is left out or written as a wildcard
is missing. -/
structure Block where
  /-- The sign. -/
  sign : Sign
  /-- The first number. -/
  major? : Option Nat
  /-- The second number. -/
  minor? : Option Nat
  /-- The third number. -/
  patch? : Option Nat
  /-- The text behind the hyphen, if there is a hyphen. -/
  prerelease? : Option (List Char)
  /-- The text behind the plus sign, if there is one. -/
  build? : Option (List Char)
deriving DecidableEq, Repr

/-- Why a text is no block. -/
inductive BlockFault
  /-- It has another form. -/
  | misfit
  /-- One of its numbers has more digits than are read. -/
  | tooLong (digits : Nat)
deriving DecidableEq, Repr

/-- The written signs of a notation, longer ones before their fronts. -/
structure Notation where
  /-- The signs and their meaning; the last one is empty. -/
  signs : List (List Char × Sign)
  /-- The characters that stand for a missing number. -/
  wildcards : List Char
  /-- Whether the letter v may stand in front of a block. -/
  marked : Bool

/-- A number or a wildcard, in its written form, and what follows. -/
def Notation.number? (n : Notation) (cs : List Char) : Option (List Char × List Char) :=
  match cs with
  | [] => none
  | c :: rest =>
    if c ∈ n.wildcards ∨ c = '0' then some ([c], rest)
    else if c.isDigit then some (cs.takeWhile Char.isDigit, cs.dropWhile Char.isDigit)
    else none

/-- A further number behind a full stop, if a full stop follows. -/
def Notation.further? (n : Notation) (cs : List Char) :
    Option (Option (List Char) × List Char) :=
  match cs with
  | '.' :: rest => (n.number? rest).map fun (d, rest) => (some d, rest)
  | _ => some (none, cs)

/-- The text behind a mark, if the mark follows. -/
def behindMark (mark : Char) (cs : List Char) : Option (List Char) × List Char :=
  match cs with
  | [] => (none, cs)
  | c :: rest =>
    if c = mark then (some (rest.takeWhile isIdentifierChar), rest.dropWhile isIdentifierChar)
    else (none, cs)

/-- The value of a written number; a wildcard and a missing number have none. -/
def numeral (ds : Option (List Char)) : Except BlockFault (Option Nat) :=
  match ds with
  | none => .ok none
  | some ds =>
    if !ds.all Char.isDigit then .ok none
    else if ds.length > SourceBundle.Text.longestNumeral then .error (.tooLong ds.length)
    else .ok (some (SourceBundle.Text.numberOf ds))

/-- The sign that a block begins with, and what follows. -/
def Notation.sign? (n : Notation) (cs : List Char) : Option (Sign × List Char) :=
  n.signs.findSome? fun (w, s) => (SourceBundle.Text.dropPrefix? w cs).map fun rest => (s, rest)

/-- The written parts of a block: sign, numbers, prerelease and build.  One line feed may stand at
the end. -/
def Notation.parts? (n : Notation) (cs : List Char) :
    Option (Sign × List (Option (List Char)) × Option (List Char) × Option (List Char)) := do
  let cs := if n.marked && cs.head? = some 'v' then cs.drop 1 else cs
  let (sign, cs) ← n.sign? cs
  let (major, cs) ← n.number? cs
  let (minor, cs) ← n.further? cs
  let (patch, cs) ← if minor.isSome then n.further? cs else some (none, cs)
  let (pre, cs) := behindMark '-' cs
  let (bld, cs) := behindMark '+' cs
  if cs = [] ∨ cs = ['\n'] then some (sign, [some major, minor, patch], pre, bld) else none

/-- Read a block. -/
def Notation.block (n : Notation) (cs : List Char) : Except BlockFault Block := do
  match n.parts? cs with
  | none => throw .misfit
  | some (sign, numbers, pre, bld) =>
    let ns ← numbers.mapM numeral
    pure ⟨sign, (ns[0]?).join, (ns[1]?).join, (ns[2]?).join, pre, bld⟩

/-- The numbers of a block up to the first missing one, with zeros in place of the others. -/
def Block.base (b : Block) : Version :=
  match b.major?, b.minor?, b.patch? with
  | none, _, _ => .release 0 0 0
  | some m, none, _ => .release m 0 0
  | some m, some n, none => .release m n 0
  | some m, some n, some p => .release m n p

/-- Whether one of the numbers of a block is missing. -/
def Block.isPartial (b : Block) : Bool :=
  b.major?.isNone || b.minor?.isNone || b.patch?.isNone

/-- Whether a block has a prerelease or a build that is not empty. -/
def Block.hasIdentifiers (b : Block) : Bool :=
  !(b.prerelease?.getD []).isEmpty || !(b.build?.getD []).isEmpty

/-- The version that a block names: of a partial one the numbers alone. -/
def Block.target (b : Block) : Except IdentifierFault Version :=
  if b.isPartial then .ok b.base
  else make b.base.major b.base.minor b.base.patch (b.prerelease?.getD []) (b.build?.getD [])

end SourceBundle.Version
