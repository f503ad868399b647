/-!
# Ranges of code points

Properties of characters are tables of ascending ranges. Looking one up walks the table and
stops at the first range that begins after the code point.
-/

namespace TimeSeries.Text

/-- Whether a code point lies in one of the ascending ranges, both ends included. -/
def inRanges : List (Nat × Nat) → Nat → Bool
  | [], _ => false
  | (lo, hi) :: rest, n => if n < lo then false else if n ≤ hi then true else inRanges rest n

end TimeSeries.Text
