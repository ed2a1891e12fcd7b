/-!
# Sets of characters as ranges

A class of characters is a list of closed ranges of code points, ascending and apart. Membership
stops at the first range that lies above the character.
-/

namespace FactQuery.Text

/-- Whether the code point `n` lies in one of the ranges, which ascend. -/
def inRanges (n : Nat) : List (Nat × Nat) → Bool
  | [] => false
  | (lo, hi) :: ranges => if n < lo then false else n ≤ hi || inRanges n ranges

end FactQuery.Text
