import TransitQuery.Decimal.Shortest

/-!
# Scalars

Distances, coordinates and numeric cells are scalars. The program never asks more of a scalar
than the class `Scalar` offers, so that one definition of each computation serves both doubles,
on which the program runs, and the real numbers, over which its geometry is reasoned about.

Comparisons follow the arithmetic: with doubles, a value that is no number compares with nothing,
not even itself, so `x == x` tests for it.

There are two classes. `Coordinate` is what the relations between figures need, an order and the
side of a turn, and it leaves open how that side is found. `Scalar` adds arithmetic, the functions
of the sphere and the passage to and from decimal text. Texts are exchanged through `Numeral`, a
decimal number of any length, so that a printer chooses digits and never sees the bits of a double.

No laws are part of the classes, since doubles satisfy few of them. Where a proof needs one, such
as monotone rounding or a printer that is read back, it is a class or a hypothesis of its own in
the theory. `least` and `greatest` pass over what is no number, in either argument.
-/

namespace TransitQuery

/-- Order, equality and the side of a turn: all that is asked of a coordinate to tell how figures
lie to each other. -/
class Coordinate (R : Type) extends LE R, LT R, BEq R where
  decideLE : DecidableLE R
  decideLT : DecidableLT R
  /-- To which side the path through three positions, each given as two coordinates, turns at the
  second: `gt` to the left, `lt` to the right, `eq` if the three lie on one line. -/
  turn : R → R → R → R → R → R → Ordering

attribute [reducible, instance] Coordinate.decideLE Coordinate.decideLT

/-- Arithmetic, order and decimal text of the numbers that the program measures with. -/
class Scalar (R : Type) extends Coordinate R, Add R, Sub R, Mul R, Div R, Neg R where
  /-- The nearest scalar to an integer. -/
  ofInt : Int → R
  /-- The nearest scalar to a numeral. -/
  ofNumeral : Numeral → R
  /-- The fewest digits that read back as the scalar. -/
  toNumeral : Tie → R → Numeral
  /-- Whether the scalar is a number, and not infinite. -/
  isFinite : R → Bool
  sqrt : R → R
  sin : R → R
  cos : R → R
  /-- The angle of the direction whose vertical part comes first. -/
  atan2 : R → R → R
  /-- The length of the vector with the given parts. -/
  hypot : R → R → R
  /-- The length in radians of one degree of arc. -/
  radiansPerDegree : R
  /-- The value as a fraction, if it is one. -/
  toRat? : R → Option Rat

namespace Scalar

variable {R : Type} [Scalar R]

/-- The scalar zero. -/
def zero : R := ofInt 0

/-- The scalar one. -/
def one : R := ofInt 1

/-- The scalar two. -/
def two : R := ofInt 2

/-- The distance from zero. -/
def magnitude (x : R) : R :=
  if x < zero then -x else x

/-- The smaller of two scalars. One that is no number is passed over. -/
def least (x y : R) : R :=
  if x ≤ y then x else if y ≤ x then y else if x == x then x else y

/-- The greater of two scalars. One that is no number is passed over. -/
def greatest (x y : R) : R :=
  if y ≤ x then x else if x ≤ y then y else if x == x then x else y

/-- The least member of a list, if there is one. -/
def leastOf : List R → Option R
  | [] => none
  | x :: xs => some (xs.foldl least x)

/-- Moves a scalar into the interval from zero to one. -/
def clampUnit (x : R) : R :=
  if x < zero then zero else if one < x then one else x

/-- An angle given in degrees, in radians. -/
def radians (degrees : R) : R :=
  degrees * radiansPerDegree

/-- The characters of a scalar among words: never an exponent, no fraction on whole values. -/
def chars (x : R) : List Char :=
  (toNumeral .away x).plain

/-- The text of a scalar among words. -/
def text (x : R) : String :=
  String.ofList (chars x)

end Scalar

end TransitQuery
