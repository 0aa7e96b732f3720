/-!
# Sets of code points given by ranges

A property of characters that the Unicode standard lists, rather than
defines, is held as a list of inclusive ranges of code points. `inRanges`
is membership in such a list; the tables themselves stand in the modules
named for the properties.
-/

namespace ImpFront.Text

/-- Does the code point of `c` lie in one of the inclusive ranges? -/
def inRanges (ranges : List (Nat × Nat)) (c : Char) : Bool :=
  ranges.any fun range => range.1 ≤ c.toNat && c.toNat ≤ range.2

/-- Membership is membership in some range of the list. -/
theorem inRanges_iff {ranges : List (Nat × Nat)} {c : Char} :
    inRanges ranges c = true ↔
      ∃ range ∈ ranges, range.1 ≤ c.toNat ∧ c.toNat ≤ range.2 := by
  simp [inRanges]

end ImpFront.Text
