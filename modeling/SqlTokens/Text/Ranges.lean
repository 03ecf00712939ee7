/-!
# Membership in sorted ranges

A property of characters that no short rule describes is kept as a table of ranges of code points,
in ascending order, and looked up by halving.
-/

namespace SqlTokens.Text

/-- Whether a number lies in one of the ranges with an index from `low` on and below `high`. -/
def inRangesBetween (ranges : Array (Nat × Nat)) (n low high : Nat) : Bool :=
  if _h : low < high then
    let middle := (low + high) / 2
    match ranges[middle]? with
    | none => false
    | some (first, last) =>
      if n < first then inRangesBetween ranges n low middle
      else if last < n then inRangesBetween ranges n (middle + 1) high
      else true
  else false
termination_by high - low

/-- Whether a number lies in one of the ranges of a table. Both ends of a range belong to it. -/
def inRanges (ranges : Array (Nat × Nat)) (n : Nat) : Bool :=
  inRangesBetween ranges n 0 ranges.size

end SqlTokens.Text
