/-!
# Sets of characters given by ranges

A property of characters that a standard fixes by a table is kept as an
ascending list of closed ranges of code points.
-/

namespace Consult.Text

/-- Whether `n` lies in one of the ranges, which are listed in ascending order. -/
def inRanges (n : Nat) : List (Nat × Nat) → Bool
  | [] => false
  | (first, last) :: rest => if n < first then false else n ≤ last || inRanges n rest

end Consult.Text
