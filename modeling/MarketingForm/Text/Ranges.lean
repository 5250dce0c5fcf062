/-!
# Sets of characters as ranges

Unicode properties are tables of code point ranges, first and last included, in ascending order.
-/

namespace MarketingForm.Text

/-- Code point ranges in ascending order. -/
abbrev Ranges := List (Nat × Nat)

/-- Whether a code point lies in one of the ranges. -/
def Ranges.contains (rs : Ranges) (n : Nat) : Bool :=
  List.any rs fun r => r.1 ≤ n && n ≤ r.2

end MarketingForm.Text
