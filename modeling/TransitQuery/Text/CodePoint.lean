/-!
# Sets of characters

A property of characters is kept as the ranges of code points that have it, in rising order.

The tables of ranges are given with the properties they stand for, each in the module that uses it.
They follow the Unicode character database and are searched from the front; both ends of a range
belong to it. Nothing depends on the ranges being disjoint or sorted, since membership is that of
any range (`isWithin_iff`).
-/

namespace TransitQuery

namespace Text

/-- Whether the code point of a character lies in one of several ranges, both ends included. -/
def isWithin (ranges : List (Nat × Nat)) (c : Char) : Bool :=
  ranges.any fun r => r.1 ≤ c.toNat && c.toNat ≤ r.2

theorem isWithin_iff {ranges : List (Nat × Nat)} {c : Char} :
    isWithin ranges c = true ↔ ∃ r ∈ ranges, r.1 ≤ c.toNat ∧ c.toNat ≤ r.2 := by
  simp [isWithin]

end Text

end TransitQuery
