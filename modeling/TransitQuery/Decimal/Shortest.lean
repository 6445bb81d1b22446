import TransitQuery.Decimal.Binary64
import TransitQuery.Decimal.Numeral

/-!
# Decimal text of doubles

`Binary64.shortest` gives the numeral with the fewest digits that reads back as the same double,
and of those the nearest; `Tie` says which of two equally near ones is meant. The interval of
values that round to a double is compared with the decimal grids `10 ^ k` in natural-number
arithmetic, from coarse to fine: on each grid only the two neighbours of the value can be the
nearest hit, and the first grid with a hit has the fewest digits.

`Binary64.rounded` writes a double with a fixed number of digits instead.

A decimal with fewer digits may lie in the interval than the one that is nearest to the double. It
is the one to be written, since it is read as the same double. The ends of the interval belong to
it if the mantissa is even. On the lower side of a power of two the interval is shorter, because
the doubles below it are closer together.
-/

namespace TransitQuery

/-- Which of two equally near decimals is written. -/
inductive Tie where
  /-- The one farther from zero. -/
  | away
  /-- The one whose last digit is even. -/
  | toEven
  deriving DecidableEq

namespace Binary64

/-- The values that round to one double, as multiples of a quarter of its unit: the value lies at
`4 · mantissa`. The lower neighbour of a power of two is only half as far away. Both ends belong
to the double when its mantissa is even. -/
structure Interval where
  low : Nat
  value : Nat
  high : Nat
  closed : Bool

/-- The interval of the double `mantissa · 2 ^ exponent`. -/
def Interval.around (mantissa : Nat) (exponent : Int) : Interval where
  low :=
    if mantissa = minMantissa ∧ minExponent < exponent then 4 * mantissa - 1
    else 4 * mantissa - 2
  value := 4 * mantissa
  high := 4 * mantissa + 2
  closed := mantissa % 2 = 0

/-- The two factors that put a multiple of `2 ^ e` and a multiple of `10 ^ k` on one scale:
`x · 2 ^ e` and `d · 10 ^ k` compare as `x · factors.1` and `d · factors.2`. -/
def factors (e k : Int) : Nat × Nat :=
  (Nat.pow 10 (-k).toNat <<< e.toNat, Nat.pow 10 k.toNat <<< (-e).toNat)

/-- Whether `x`, scaled like the ends of the interval, belongs to it. -/
def Interval.holds (i : Interval) (scale x : Nat) : Bool :=
  if i.closed then i.low * scale ≤ x && x ≤ i.high * scale
  else i.low * scale < x && x < i.high * scale

/-- The nearest multiple of `10 ^ k` in the interval, as its multiplier, if the interval holds
one of the two neighbours of its value. -/
def Interval.hit? (tie : Tie) (i : Interval) (e k : Int) : Option Nat :=
  let (a, b) := factors e k
  let below := i.value * a / b
  let above := below + 1
  match i.holds a (below * b), i.holds a (above * b) with
  | false, false => none
  | true, false => some below
  | false, true => some above
  | true, true =>
    let middle := (below + above) * b
    let twice := 2 * (i.value * a)
    if twice < middle then some below
    else if middle < twice then some above
    else
      match tie with
      | .away => some above
      | .toEven => if below % 2 = 0 then some below else some above

/-- The first hit from grid `10 ^ k` downwards. -/
def Interval.firstHit (tie : Tie) (i : Interval) (e : Int) : Nat → Int → Nat × Int
  -- the value cut off at the last grid, which `shortest` never needs
  | 0, k => (i.value * (factors e k).1 / (factors e k).2, k)
  | grids + 1, k =>
    match i.hit? tie e k with
    | some d => (d, k)
    | none => i.firstHit tie e grids (k - 1)

/-- An exponent `k` with `mantissa · 2 ^ exponent < 10 ^ k`, at most two above the least one. -/
def gridAbove (mantissa : Nat) (exponent : Int) : Int :=
  ((mantissa.log2 + 1 : Nat) + exponent) * 30103 / 100000 + 1

/-- The fewest digits that read back as the double, and of those the nearest. Twenty grids below
the magnitude of a double always suffice, as seventeen digits do. -/
def shortest (tie : Tie) : Binary64 → Numeral
  | nan => .nan
  | infinite negative => .infinite negative
  | finite negative 0 _ => .finite negative 0 0
  | finite negative mantissa exponent =>
    let i := Interval.around mantissa exponent
    let (d, k) := i.firstHit tie (exponent - 2) 20 (gridAbove mantissa exponent)
    .finite negative d k

/-! ### A fixed number of digits -/

/-- `num / den` rounded to the nearest natural number, a half to the even one. -/
def roundQuotient (num den : Nat) : Nat :=
  let quotient := num / den
  let rest := num % den
  if 2 * rest < den then quotient
  else if 2 * rest = den ∧ quotient % 2 = 0 then quotient
  else quotient + 1

/-- The exponent of the leading decimal digit of `mantissa · 2 ^ exponent`, searched downwards
from `k`. -/
def leadingExponent (mantissa : Nat) (exponent : Int) : Nat → Int → Int
  | 0, k => k
  | steps + 1, k =>
    let (a, b) := factors exponent k
    if b ≤ mantissa * a then k else leadingExponent mantissa exponent steps (k - 1)

/-- Scientific notation with `places` digits after the point, rounded to nearest, a half to the
even digit. -/
def rounded (places : Nat) : Binary64 → List Char
  | nan => ['N', 'a', 'N']
  | infinite negative => Numeral.sign negative ++ ['i', 'n', 'f']
  | finite negative 0 _ =>
    Numeral.sign negative ++ '0' :: '.' :: List.replicate places '0' ++ ['e', '0']
  | finite negative mantissa exponent =>
    let lead := leadingExponent mantissa exponent 4 (gridAbove mantissa exponent)
    let (a, b) := factors exponent (lead - places)
    let digits := roundQuotient (mantissa * a) b
    let (digits, lead) :=
      if digits = Nat.pow 10 (places + 1) then (Nat.pow 10 places, lead + 1) else (digits, lead)
    let power := (if lead < 0 then ['-'] else []) ++ Numeral.digitChars lead.natAbs
    Numeral.sign negative ++
      match Numeral.digitChars digits with
      | [] => []
      | d :: rest => d :: '.' :: rest ++ 'e' :: power

end Binary64

end TransitQuery
