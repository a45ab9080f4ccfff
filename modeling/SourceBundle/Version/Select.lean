/-
# Selecting a version

Of a list of published versions, the highest one that a range admits, or the highest release.
What is not a version at all is passed over, and of several versions of the same precedence the
first one is taken.
-/
import SourceBundle.Version.Declared
import SourceBundle.Version.Listed

namespace SourceBundle.Version

open SourceBundle.Text

/-- Why a text cannot be used as a range. -/
inductive SpecFault
  /-- It is a range of no notation. -/
  | invalid (f : RangeFault)
  /-- It is a hyphen range with an end that cannot be taken apart. -/
  | unreadableEnd
deriving DecidableEq, Repr

/-- The range that a text denotes: a declared range, or else a listed one. -/
def Range.ofText (text : String) : Except SpecFault Range :=
  match Range.ofDeclared text with
  | .ok r => .ok r
  | .error .unreadableEnd => .error .unreadableEnd
  | .error .invalid => (normalize text >>= Range.ofListed).mapError .invalid

/-- The fault of a range that is reported by no message of its own. -/
structure UnreadableEnd where
deriving DecidableEq, Repr

/-- Whether the version that a text denotes lies in the range that another text denotes. -/
def satisfies (version range : String) : Except UnreadableEnd Bool :=
  match parse? version with
  | none => .ok false
  | some v =>
    match Range.ofText range with
    | .ok r => .ok (r.contains v)
    | .error (.invalid _) => .ok false
    | .error .unreadableEnd => .error {}

/-- Whether a range names a prerelease: a digit, a hyphen, and a letter or digit. -/
def namesPrerelease : List Char → Bool
  | [] => false
  | d :: rest =>
    (match rest with
      | '-' :: c :: _ => isDecimal d && c.isAlphanum
      | _ => false) || namesPrerelease rest

/-- Whether the text of a range names a prerelease. -/
def includesPrerelease (range : String) : Bool := namesPrerelease range.toList

/-- Why no version is selected. -/
inductive NoChoice
  /-- There is none to select from. -/
  | noneAvailable
  /-- There is no release among them. -/
  | noRelease
  /-- The range cannot be read. -/
  | invalidRange (f : RangeFault)
  /-- The range admits none of them. -/
  | noMatch (range : String)
deriving DecidableEq, Repr

/-- The reason in words. -/
def NoChoice.message : NoChoice → String
  | .noneAvailable => "No versions available"
  | .noRelease => "No stable semantic versions found"
  | .invalidRange f => s!"Invalid semver spec: {f.message}"
  | .noMatch range => s!"No versions match spec '{range}'"

/-- The highest of some versions, of equal ones the first. -/
def highest : Version → List Version → Version
  | best, [] => best
  | best, v :: rest => highest (if best.before v then v else best) rest

/-- The versions among some texts, without the prereleases unless they are asked for. -/
def eligible (prereleases : Bool) (candidates : List String) : List Version :=
  candidates.filterMap fun c => (parse? c).filter fun v => prereleases || v.prerelease.isEmpty

/-- The printed form of the highest of some versions. -/
def choose (reason : NoChoice) : List Version → Except NoChoice String
  | [] => .error reason
  | v :: rest => .ok (highest v rest).render

/-- The highest release. -/
def pickLatest (candidates : List String) : Except NoChoice String :=
  if candidates.isEmpty then .error .noneAvailable
  else choose .noRelease (eligible false candidates)

/-- The highest version that a range admits; prereleases count only for a range that names one. -/
def pickRange (range : String) (candidates : List String) :
    Except UnreadableEnd (Except NoChoice String) :=
  match Range.ofText range with
  | .error .unreadableEnd => .error {}
  | .error (.invalid f) => .ok (.error (.invalidRange f))
  | .ok r =>
    .ok (choose (.noMatch range)
      ((eligible (includesPrerelease range) candidates).filter r.contains))

end SourceBundle.Version
