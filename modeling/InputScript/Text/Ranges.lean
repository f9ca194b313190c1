/-!
# `InputScript.Text.Ranges`: character properties as lists of ranges

A property of characters is given by the ranges of code points that have it, both
ends included. `Ranges.has_iff` says what membership means. The ranges in this library
are those of version 17 of the standard.
-/

set_option autoImplicit false

namespace InputScript.Text

/-- The ranges of code points that have a property, both ends included. -/
abbrev Ranges := List (Nat × Nat)

/-- Whether a code point lies in one of the ranges. -/
def Ranges.has (ranges : Ranges) (n : Nat) : Bool :=
  ranges.any fun range => decide (range.1 ≤ n) && decide (n ≤ range.2)

/-- A code point is in the ranges when some range holds it. -/
theorem Ranges.has_iff (ranges : Ranges) (n : Nat) :
    ranges.has n = true ↔ ∃ range ∈ ranges, range.1 ≤ n ∧ n ≤ range.2 := by
  simp [Ranges.has]

end InputScript.Text
