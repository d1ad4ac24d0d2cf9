/-! # Character classes as ranges

A class of characters is a list of closed ranges of code points. -/

namespace Lifecycle.Text

/-- First and last code point of a range. -/
abbrev Range := Nat × Nat

/-- The code point lies in one of the ranges. -/
def inRanges (ranges : List Range) (n : Nat) : Bool :=
  ranges.any fun r => r.1 ≤ n && n ≤ r.2

theorem inRanges_iff {ranges : List Range} {n : Nat} :
    inRanges ranges n = true ↔ ∃ r ∈ ranges, r.1 ≤ n ∧ n ≤ r.2 := by
  simp [inRanges]

end Lifecycle.Text
