/-! # Sets of code points

A character class of a standard is a list of closed ranges of code points, in increasing order.

* `CodeRanges` — such a list.
* `CodeRanges.has` — membership of a character.
-/

namespace Licensing.Text

/-- Closed ranges of code points: `(first, last)`. -/
abbrev CodeRanges := List (Nat × Nat)

/-- Whether `c` lies in one of the ranges. -/
def CodeRanges.has (ranges : CodeRanges) (c : Char) : Bool :=
  ranges.any fun (first, last) => first ≤ c.toNat && c.toNat ≤ last

@[simp]
theorem CodeRanges.has_iff {ranges : CodeRanges} {c : Char} :
    ranges.has c = true ↔ ∃ r ∈ ranges, r.1 ≤ c.toNat ∧ c.toNat ≤ r.2 := by
  simp [CodeRanges.has, List.any_eq_true]

end Licensing.Text
