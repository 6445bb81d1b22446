import TransitQuery.Scalar.Basic
import TransitQuery.Scalar.Turn

/-!
# Doubles as scalars

The scalar operations on double-precision numbers. Reading a numeral and the length of a vector are
correctly rounded, and the side of a turn is exact within the range of doubles. The trigonometric
functions are those of a machine, here the one on which the program runs.

The instance is a function of the three trigonometric functions that a machine provides
(`Double.scalar`), because these are not determined to the last bit anywhere; the rest is. A proof
about the program on doubles can take them as they come, or assume of them what it needs. Square
roots and the four operations are rounded to nearest, reading a numeral of any length gives the
nearest double with ties to even, and the length of a vector is found over the integers before it
is rounded once.

`radiansPerDegree` is the double nearest to a decimal of seventeen digits, not a quotient computed
from π.
-/

namespace TransitQuery

namespace Double

/-- Not a number. -/
def nan : Float := Float.ofBits Binary64.nanBits

/-- Infinity with a sign. -/
def infinite (negative : Bool) : Float :=
  let x := Float.ofBits Binary64.infinityBits
  if negative then -x else x

/-- The parts of a double. -/
def parts (x : Float) : Binary64 :=
  Binary64.ofBits x.toBits

/-- The double nearest to `digits · 10 ^ exponent`. Magnitudes far outside the range of doubles
are settled without computing the power. -/
def ofDecimal (digits : Nat) (exponent : Int) : Float :=
  let m := Numeral.magnitude digits exponent
  if digits = 0 ∨ m < -330 then 0
  else if 310 < m then infinite false
  else Float.ofScientific digits (exponent < 0) exponent.natAbs

/-- The double nearest to a numeral. -/
def ofNumeral : Numeral → Float
  | .nan => nan
  | .infinite negative => infinite negative
  | .finite negative digits exponent =>
    let x := ofDecimal digits exponent
    if negative then -x else x

/-- The double nearest to an integer. -/
def ofInt (i : Int) : Float :=
  ofNumeral (.finite (i < 0) i.natAbs 0)

/-- Whether a double is a number, and not infinite. -/
def isFinite (x : Float) : Bool :=
  match parts x with
  | .finite .. => true
  | _ => false

/-- Doubles as scalars, with the trigonometric functions of some machine. -/
@[reducible]
def scalar (sin cos : Float → Float) (atan2 : Float → Float → Float) : Scalar Float where
  decideLE := inferInstance
  decideLT := inferInstance
  ofInt := ofInt
  ofNumeral := ofNumeral
  toNumeral tie x := (parts x).shortest tie
  isFinite := isFinite
  sqrt := Float.sqrt
  sin := sin
  cos := cos
  atan2 := atan2
  hypot x y := Float.ofBits (Binary64.hypotBits (parts x) (parts y))
  radiansPerDegree := ofDecimal 17453292519943295 (-18)
  turn := turn
  toRat? x := (parts x).toRat?

end Double

instance : Scalar Float := Double.scalar Float.sin Float.cos Float.atan2

end TransitQuery
