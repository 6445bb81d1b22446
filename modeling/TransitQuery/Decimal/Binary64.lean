/-!
# Double-precision numbers taken apart

The bits of a double say a sign, a mantissa and a power of two. `Binary64.ofBits` reads them, and
`Binary64.nearestBits` goes back: it rounds any dyadic value `n · 2 ^ e` to the nearest double,
a half going to the even mantissa. On these two the exact length of a vector,
`Binary64.hypotBits`, and the exact value of a double, `Binary64.toRat?`, are built.

A finite double is given by a sign, a mantissa below `2 ^ 53` and an exponent from `minExponent`
on, where the mantissa has all its digits unless the exponent is the least one. All functions here
work on natural numbers and integers, so nothing is rounded but where the name says it. They are
used for what the operations of the machine do not give exactly: printing, and the distance of two
positions, which is rounded once.
-/

namespace TransitQuery

/-- A double-precision number: `± mantissa · 2 ^ exponent`, or a value that is no number. -/
inductive Binary64 where
  | nan
  | infinite (negative : Bool)
  | finite (negative : Bool) (mantissa : Nat) (exponent : Int)
  deriving DecidableEq

namespace Binary64

/-- The least exponent a double can have. -/
def minExponent : Int := -1074

/-- The least mantissa of a double with a greater exponent, `2 ^ 52`. -/
def minMantissa : Nat := 1 <<< 52

/-- The bits of infinity. -/
def infinityBits : UInt64 := 0x7FF0000000000000

/-- The bits of a value that is no number. -/
def nanBits : UInt64 := 0x7FF8000000000000

/-- Reads the sign, exponent and fraction fields of the 64 bits. -/
def ofBits (bits : UInt64) : Binary64 :=
  let n := bits.toNat
  let negative : Bool := n >>> 63 = 1
  let biased : Nat := (n >>> 52) % 2048
  let fraction : Nat := n % minMantissa
  if biased = 2047 then
    if fraction = 0 then infinite negative else nan
  else if biased = 0 then finite negative fraction minExponent
  else finite negative (minMantissa + fraction) (biased - 1075)

/-- The exact value of a finite double. -/
def toRat? : Binary64 → Option Rat
  | finite negative mantissa exponent =>
    let value : Rat :=
      if 0 ≤ exponent then ((mantissa <<< exponent.toNat : Nat) : Rat)
      else mkRat mantissa (1 <<< (-exponent).toNat)
    some (if negative then -value else value)
  | _ => none

/-- `n / 2 ^ shift` rounded to the nearest natural number, a half to the even one. -/
def roundShift (n shift : Nat) : Nat :=
  let unit := 1 <<< shift
  let quotient := n >>> shift
  let rest := n % unit
  if 2 * rest < unit then quotient
  else if 2 * rest = unit ∧ quotient % 2 = 0 then quotient
  else quotient + 1

/-- The bits of the double nearest to `n · 2 ^ e`, a half going to the even mantissa. -/
def nearestBits (n : Nat) (e : Int) : UInt64 :=
  if n = 0 then 0
  else
    let width : Int := n.log2 + 1
    let target := max (e + width - 53) minExponent
    let mantissa :=
      if e ≤ target then roundShift n (target - e).toNat else n <<< (e - target).toNat
    -- Rounding up may have carried into the next power of two.
    let (mantissa, exponent) :=
      if mantissa = 2 * minMantissa then (minMantissa, target + 1) else (mantissa, target)
    if mantissa < minMantissa then UInt64.ofNat mantissa
    else
      let biased := (exponent + 1075).toNat
      if 2047 ≤ biased then infinityBits
      else UInt64.ofNat (biased <<< 52 + (mantissa - minMantissa))

/-- The integer square root from above: Newton's step descends until it stops. -/
def sqrtFrom (n : Nat) : Nat → Nat → Nat
  | 0, guess => guess
  | fuel + 1, guess =>
    let next := (guess + n / guess) / 2
    if next < guess then sqrtFrom n fuel next else guess

/-- The largest natural number whose square is at most `n`. -/
def natSqrt (n : Nat) : Nat :=
  if n = 0 then 0 else sqrtFrom n (n.log2 + 2) (1 <<< (n.log2 / 2 + 1))

/-- The bits of the double nearest to `√(a² + b²)`. The sum of squares is taken exactly; its root
is taken to more than 64 bits, with one more bit that says whether anything is left over. -/
def hypotBits : Binary64 → Binary64 → UInt64
  | infinite _, _ | _, infinite _ => infinityBits
  | nan, _ | _, nan => nanBits
  | finite _ m e, finite _ m' e' =>
    let low := min e e'
    let a := m <<< (e - low).toNat
    let b := m' <<< (e' - low).toNat
    let extra : Nat := 66
    let scaled := (a * a + b * b) <<< (2 * extra)
    let root := natSqrt scaled
    let sticky := if root * root = scaled then 0 else 1
    nearestBits (2 * root + sticky) (low - extra - 1)

end Binary64

end TransitQuery
