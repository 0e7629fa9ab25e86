/-
Sets of code points as intervals in ascending order.
-/

namespace Formula

/-- Intervals of code points with both ends included, in ascending order and
apart from each other. -/
abbrev Ranges := List (Nat × Nat)

namespace Ranges

/-- Whether a code point is in one of the intervals. The search ends at the
first interval that begins beyond it. -/
def contains : Ranges → Nat → Bool
  | [], _ => false
  | (lo, hi) :: r, n => lo ≤ n && (n ≤ hi || contains r n)

end Ranges

end Formula
