/-!
# Code point ranges

A character class of the Unicode standard is a list of disjoint closed ranges in rising order,
and membership is a walk that stops at the first range beyond the code point.
-/

namespace Switchboard.Unicode

/-- Whether `n` lies in one of the rising ranges. -/
def inRanges : List (Nat × Nat) → Nat → Bool
  | [], _ => false
  | (lo, hi) :: rest, n => if n < lo then false else if n ≤ hi then true else inRanges rest n

end Switchboard.Unicode
