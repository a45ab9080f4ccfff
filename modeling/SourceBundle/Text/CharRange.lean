/-
# Sets of characters given by ranges

A character class of the Unicode database is written as an ascending list of closed ranges of
code points.  Membership is a walk that stops at the first range lying above the character.
-/

namespace SourceBundle.Text

/-- Whether a code point lies in one of the ranges of an ascending list. -/
def inRanges (n : Nat) : List (Nat × Nat) → Bool
  | [] => false
  | (lo, hi) :: rest => if n < lo then false else if n ≤ hi then true else inRanges n rest

end SourceBundle.Text
