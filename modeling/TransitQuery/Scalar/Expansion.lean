/-!
# Sums of doubles without rounding error

The rounding error of a sum or a product of two doubles is itself a double, unless the operation
leaves the range of doubles. So a sum that does not fit one double can be held as an expansion, a
list of doubles from the smallest to the largest whose exact sum is meant. `Expansion.add` adds
two of them without loss; the last member of an expansion has the sign of its sum.

In the neighbourhood of zero and of infinity the errors are no doubles any more, and then the
results here are as far off as the steps by which they are computed.
-/

namespace TransitQuery

namespace Double

/-- A rounded result, and the rounding error that is to be added to it. -/
structure Rounded where
  value : Float
  error : Float

namespace Rounded

/-- A sum of two doubles. -/
def sum (a b : Float) : Rounded :=
  let x := a + b
  let bShare := x - a
  let aShare := x - bShare
  ⟨x, (a - aShare) + (b - bShare)⟩

/-- The error of a difference that has been computed. -/
def differenceError (a b x : Float) : Float :=
  let bShare := a - x
  let aShare := x + bShare
  (a - aShare) + (bShare - b)

/-- A difference of two doubles. -/
def difference (a b : Float) : Rounded :=
  let x := a - b
  ⟨x, differenceError a b x⟩

/-- The power of two by which the halves of a double are parted, and one. -/
def splitter : Float := Float.ofNat (1 <<< 27 + 1)

/-- The upper and the lower half of the digits of a double. -/
def halves (a : Float) : Float × Float :=
  let c := splitter * a
  let high := c - (c - a)
  (high, a - high)

/-- A product of two doubles. -/
def product (a b : Float) : Rounded :=
  let x := a * b
  let (aHigh, aLow) := halves a
  let (bHigh, bLow) := halves b
  let rest := ((x - aHigh * bHigh) - aLow * bHigh) - aHigh * bLow
  ⟨x, aLow * bLow - rest⟩

end Rounded

/-- Doubles from the smallest to the largest, which stand for their exact sum. -/
abbrev Expansion := List Float

namespace Expansion

/-- The difference of two rounded results with their errors. -/
def ofDifference (a b : Rounded) : Expansion :=
  let first := Rounded.difference a.error b.error
  let second := Rounded.sum a.value first.value
  let third := Rounded.difference second.error b.value
  let fourth := Rounded.sum second.value third.value
  [first.error, third.error, fourth.error, fourth.value]

/-- The difference of two products. -/
def ofProducts (a b c d : Float) : Expansion :=
  ofDifference (Rounded.product a b) (Rounded.product c d)

/-- The sum rounded at every step. -/
def estimate : Expansion → Float
  | [] => 0
  | x :: rest => rest.foldl (· + ·) x

/-- The members of two expansions in rising order of their size. -/
def merge : Expansion → Expansion → List Float
  | [], f => f
  | e, [] => e
  | x :: e, y :: f =>
    -- both comparisons agree if `y` is the larger one in size
    if (y > x) == (y > -x) then x :: merge e (y :: f) else y :: merge (x :: e) f
termination_by e f => e.length + f.length

/-- Adds doubles in rising order to a sum, and keeps every error that is not zero. -/
def accumulate (sum : Float) : List Float → Expansion
  | [] => if sum != 0 then [sum] else []
  | x :: rest =>
    let s := Rounded.sum sum x
    if s.error != 0 then s.error :: accumulate s.value rest else accumulate s.value rest

/-- The sum of two expansions. -/
def add (e f : Expansion) : Expansion :=
  match merge e f with
  | [] => []
  | x :: rest => accumulate x rest

/-- The last and largest member. -/
def largest (e : Expansion) : Float :=
  (e.getLast?).getD 0

end Expansion

end Double

end TransitQuery
