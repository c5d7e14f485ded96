/-! # Sets of code points

A set of code points is an ascending list of inclusive ranges. Membership looks no further than
the first range that ends beyond the code point. -/

namespace PercentFormat.Unicode

/-- Inclusive ranges of code points, ascending and apart from each other. -/
abbrev Ranges := List (Nat × Nat)

def Ranges.contains (n : Nat) : Ranges → Bool
  | [] => false
  | (lo, hi) :: rest => if n ≤ hi then decide (lo ≤ n) else Ranges.contains n rest

end PercentFormat.Unicode
