/-!
Sets of code points, given as inclusive ranges in ascending order.
-/

namespace StackLowering.Text

/-- A set of code points: disjoint inclusive ranges, the lower ones first. -/
abbrev CodePoints := List (Nat × Nat)

/-- Whether a code point is in the set.  The search ends at the first range that
lies above it. -/
def CodePoints.contains : CodePoints → Nat → Bool
  | [], _ => false
  | (first, last) :: rest, n =>
      if n < first then false
      else if n ≤ last then true
      else contains rest n

end StackLowering.Text
