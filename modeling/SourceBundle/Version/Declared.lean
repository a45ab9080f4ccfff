/-
# Declared ranges

The ranges that packages declare: choices separated by two bars, each a list of blocks separated
by single spaces, or two ends joined by a hyphen between spaces.  Prereleases are admitted only
where a block names one of the same release.

The ends of a hyphen range are not checked before they are taken apart, so that an end of another
form is a fault of its own kind and not merely a range of another notation.
-/
import SourceBundle.Version.Range

namespace SourceBundle.Version

open SourceBundle.Text

/-- Why a text is no declared range. -/
inductive DeclaredFault
  /-- It has another form, or names no versions. -/
  | invalid
  /-- An end of a hyphen range has another form. -/
  | unreadableEnd
deriving DecidableEq, Repr

/-- The notation of the blocks of declared ranges. -/
def declaredNotation : Notation where
  signs := [("<=".toList, .compared .le), ("<".toList, .compared .lt), (">=".toList, .compared .ge),
    (">".toList, .compared .gt), ("=".toList, .compared .eq), ("^".toList, .caret),
    ("~".toList, .tilde), ([], .compared .eq)]
  wildcards := ['x', 'X', '*']
  marked := true

/-- A clause of a declared range. -/
def declared (c : Comparison) (target : Version) : Clause := ⟨c, target, .samePatch, false⟩

/-- The first version that a caret block excludes. -/
def Block.caretEnd (b : Block) : Version :=
  let t := b.base
  if t.major != 0 then t.nextMajor
  else if t.minor != 0 then t.nextMinor
  else if b.minor?.isNone then t.nextMajor
  else if b.patch?.isNone then t.nextMinor
  else t.nextPatch

/-- The clauses of a block whose target is given. -/
def Block.declaredClauses (b : Block) (target : Version) : Except DeclaredFault (List Clause) :=
  match b.major? with
  | none =>
    match b.sign with
    | .compared .eq | .compared .ge => .ok [declared .ge target]
    | _ => .error .invalid
  | some _ =>
    match b.sign with
    | .caret => .ok [declared .ge target, declared .lt b.caretEnd]
    | .tilde | .compatible =>
      let stop := if b.minor?.isNone then target.nextMajor else target.nextMinor
      .ok [declared .ge target, declared .lt stop]
    | .compared c =>
      let next? :=
        if b.minor?.isNone then some target.nextMajor
        else if b.patch?.isNone then some target.nextMinor
        else none
      .ok <| match c, next? with
        | .eq, some next => [declared .ge target, declared .lt next]
        | .gt, some next => [declared .ge next]
        | .le, some next => [declared .lt next]
        | c, _ => [declared c target]

/-- The clauses of the text of a block.  A build counts only for a block without another sign than
the equals sign. -/
def declaredBlock (cs : List Char) (misfit : DeclaredFault) : Except DeclaredFault (List Clause) :=
  match declaredNotation.block cs with
  | .error .misfit => .error misfit
  | .error (.tooLong _) => .error .invalid
  | .ok b =>
    let b := if b.sign = .compared .eq then b else { b with build? := none }
    match b.target with
    | .error _ => .error .invalid
    | .ok target =>
      if b.isPartial && b.hasIdentifiers then .error .invalid else b.declaredClauses target

/-- The clauses of a choice without blanks around it; an empty one admits every version. -/
def declaredClauses (cs : List Char) : Except DeclaredFault (List Clause) :=
  let cs := if cs.isEmpty then ">=0.0.0".toList else cs
  match splitWord " - ".toList 0 cs with
  | [_] => do
    let blocks ← (pieces ' ' cs).mapM fun block => declaredBlock block .invalid
    pure blocks.flatten
  | [low, high] => do
    let low ← declaredBlock ('>' :: '=' :: low) .unreadableEnd
    let high ← declaredBlock ('<' :: '=' :: high) .unreadableEnd
    pure (low ++ high)
  | _ => .error .invalid

/-- The bound that keeps prereleases admitted by a clause near its target. -/
def Clause.prereleaseBound? (c : Clause) : Option Clause :=
  let t := c.target
  match c.comparison with
  | .gt | .ge => some ⟨.lt, .release t.major t.minor (t.patch + 1), .always, false⟩
  | .lt | .le => some ⟨.ge, .release t.major t.minor 0, .always, false⟩
  | _ => none

/-- The groups of a choice.  If clauses name prereleases, a first group admits versions near them,
and the second group holds the clauses with the releases of those prereleases. -/
def declaredGroups (clauses : List Clause) : List (List Clause) :=
  let near := clauses.flatMap fun c =>
    if c.target.prerelease.isEmpty then [] else c.prereleaseBound?.toList ++ [c]
  let plain := clauses.map fun c =>
    if c.target.prerelease.isEmpty then c else declared c.comparison c.target.core
  if near.isEmpty then [plain] else [near, plain]

/-- Read a declared range. -/
def Range.ofDeclared (text : String) : Except DeclaredFault Range := do
  let groups ← (splitWord "||".toList 0 text.toList).mapM fun choice => do
    let clauses ← declaredClauses (trimChars choice)
    pure (declaredGroups clauses)
  pure ⟨groups.flatten.map fun g => g.map fun c => [c]⟩

end SourceBundle.Version
