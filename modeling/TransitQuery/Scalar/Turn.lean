import TransitQuery.Scalar.Expansion

/-!
# The side of a turn in doubles

To which side a path turns is the sign of a determinant. `Double.turnDeterminant` computes it only
as exactly as its sign needs: first in plain doubles, which settles the matter when the result is
larger than its own error can be; then the determinant of the rounded differences exactly; then
with a first correction for the rounding of the differences; and at last exactly in full.

The sign is right as long as no product leaves the range of doubles. Beyond it the path may count
as straight where it turns.
-/

namespace TransitQuery

namespace Double

/-- Half the distance from one to the next double. -/
def roundingUnit : Float := (1 : Float) / Float.ofNat (1 <<< 53)

/-- The share of the sum of both products below which the plain determinant is not trusted. -/
def plainBound : Float := Float.ofScientific 33306690621773722 true 32

/-- The share below which the determinant of the rounded differences is not trusted. -/
def differenceBound : Float := (2 + 12 * roundingUnit) * roundingUnit

/-- The share below which the corrected determinant is not trusted. -/
def correctedBound : Float := (9 + 64 * roundingUnit) * roundingUnit * roundingUnit

/-- The share of the determinant itself that may be wrong in it. -/
def resultBound : Float := (3 + 8 * roundingUnit) * roundingUnit

/-- Whether a value is no smaller than its possible error. -/
def isBeyond (value bound : Float) : Bool :=
  value ≥ bound || -value ≥ bound

/-- The determinant of two vectors, each given with the errors of its parts, whose terms have the
given size. -/
def refinedDeterminant (ax ay bx byy : Rounded) (size : Float) : Float :=
  let b := Expansion.ofProducts ax.value byy.value ay.value bx.value
  let det := b.estimate
  if isBeyond det (differenceBound * size) then det
  -- differences without error leave nothing to correct
  else if ax.error == 0 && ay.error == 0 && bx.error == 0 && byy.error == 0 then det
  else
    let bound := correctedBound * size + resultBound * det.abs
    let det := det + ((ax.value * byy.error + byy.value * ax.error) -
      (ay.value * bx.error + bx.value * ay.error))
    if isBeyond det bound then det
    else
      let c := b.add (Expansion.ofProducts ax.error byy.value ay.error bx.value)
      let c := c.add (Expansion.ofProducts ax.value byy.error ay.value bx.error)
      (c.add (Expansion.ofProducts ax.error byy.error ay.error bx.error)).largest

/-- A value with the sign of the determinant of `a - c` and `b - c`. -/
def turnDeterminant (ax ay bx byy cx cy : Float) : Float :=
  let left := (ax - cx) * (byy - cy)
  let right := (ay - cy) * (bx - cx)
  let det := left - right
  let size := (left + right).abs
  if isBeyond det (plainBound * size) then det
  else
    refinedDeterminant (Rounded.difference ax cx) (Rounded.difference ay cy)
      (Rounded.difference bx cx) (Rounded.difference byy cy) size

/-- The sign of a scalar as a comparison with zero. -/
def signOf (x : Float) : Ordering :=
  if 0 < x then .gt else if x < 0 then .lt else .eq

/-- The turn at `b` on the way from `a` to `c`. -/
def turn (ax ay bx byy cx cy : Float) : Ordering :=
  signOf (turnDeterminant ax ay bx byy cx cy)

end Double

end TransitQuery
