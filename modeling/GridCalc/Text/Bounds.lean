/-!
# Sets of code points

A set is given by the sorted list of the places where it begins and ends: a code point belongs
to it when it is at or past an odd number of them. The tables of the other text modules are
such lists, with the code points of Unicode 14.
-/

set_option autoImplicit false

namespace GridCalc.Text

/-- Whether `n` lies in the set that begins and ends at the listed places. -/
def inside : List Nat → Nat → Bool
  | [], _ => false
  | b :: bs, n => decide (b ≤ n) && !inside bs n

end GridCalc.Text
