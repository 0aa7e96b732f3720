import ImpFront.Text.CodePoint

/-!
# White space

The twenty-five characters with the Unicode property White_Space. They
separate tokens and are otherwise without meaning. The list is wider than
`Char.isWhitespace`, which knows four of them.

## Main results

* `isWhiteSpace_of_isWhitespace` — every character of the narrower class
  is white space here too.
-/

namespace ImpFront.Text

/-- The ranges of the property White_Space. -/
def whiteSpaceRanges : List (Nat × Nat) :=
  [(0x09, 0x0D), (0x20, 0x20), (0x85, 0x85), (0xA0, 0xA0), (0x1680, 0x1680),
   (0x2000, 0x200A), (0x2028, 0x2029), (0x202F, 0x202F), (0x205F, 0x205F),
   (0x3000, 0x3000)]

/-- Is `c` a white-space character? -/
def isWhiteSpace (c : Char) : Bool := inRanges whiteSpaceRanges c

theorem isWhiteSpace_of_isWhitespace {c : Char} (h : c.isWhitespace = true) :
    isWhiteSpace c = true := by
  simp only [Char.isWhitespace, Bool.or_eq_true, decide_eq_true_eq] at h
  rcases h with ((rfl | rfl) | rfl) | rfl <;> decide

end ImpFront.Text
