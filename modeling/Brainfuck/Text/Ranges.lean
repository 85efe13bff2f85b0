/-!
Membership in a set of numbers given as an ascending list of ranges.

The classes of characters in this library are such sets of code points. The search stops at the
first range that reaches the number, so a character at the front of a table is found at once.
-/

namespace Brainfuck.Text

/-- Whether a number lies in one of the ranges of an ascending list; both ends belong to a range. -/
def inRanges (code : Nat) : List (Nat × Nat) → Bool
  | [] => false
  | (low, high) :: rest => if code ≤ high then decide (low ≤ code) else inRanges code rest

end Brainfuck.Text
