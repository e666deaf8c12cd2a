/-!
# Ranges of code points

A property of characters is given by a table: the inclusive ranges of code points that have it.
`inRanges` tests membership; a character has the property exactly when some range holds it
(`inRanges_eq_true_iff`).
-/

namespace BasicCompiler.Text

/-- `inRanges ranges c` tests whether one of the inclusive ranges holds the code point of `c`. -/
def inRanges (ranges : List (Nat × Nat)) (c : Char) : Bool :=
  ranges.any fun range => range.1 ≤ c.toNat && c.toNat ≤ range.2

/-- Membership in a table is membership in one of its ranges. -/
theorem inRanges_eq_true_iff {ranges : List (Nat × Nat)} {c : Char} :
    inRanges ranges c = true ↔ ∃ range ∈ ranges, range.1 ≤ c.toNat ∧ c.toNat ≤ range.2 := by
  simp [inRanges]

end BasicCompiler.Text
