/-!
# Classes of characters

A class of characters is listed as closed ranges of code points. The tables of the modules beside
this one are such lists, in ascending order.
-/

namespace Stepwise.Text

/-- Closed ranges of code points, `(first, last)`. -/
abbrev Ranges := List (Nat × Nat)

/-- Whether the character's code point lies in one of the ranges. -/
def Ranges.contains (ranges : Ranges) (c : Char) : Bool :=
  ranges.any fun (first, last) => first ≤ c.toNat && c.toNat ≤ last

theorem Ranges.contains_iff (ranges : Ranges) (c : Char) :
    ranges.contains c = true ↔ ∃ r ∈ ranges, r.1 ≤ c.toNat ∧ c.toNat ≤ r.2 := by
  simp [Ranges.contains]

end Stepwise.Text
