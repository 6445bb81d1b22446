import TransitQuery.Json.Basic

/-!
# Numbers in JSON text

A number without point and exponent that fits 64 bits is an integer. Every other number is a
scalar, found in two steps. As many of its leading digits as fit a 64-bit word make its
significand; the digits behind them count only as places. The significand is then moved by its
power of ten, and each multiplication or division is rounded, so that a number with more digits
than a scalar holds may end a unit away from the nearest one. A number that leaves the range of
scalars on the way up is refused; one that leaves it on the way down is zero.

`readNumberText` splits a number into its parts without judging its size, and refuses what the
grammar of JSON refuses: a superfluous zero in front, a point or an exponent mark without digits.
`NumberText.value?` then decides what the number is. Minus zero is a scalar, not the integer zero,
so that its sign is kept.

A decimal text may therefore be read as the neighbour of the double nearest to it, and a double
that is written with its fewest digits need not come back. The steps are kept one by one for that
reason (`takeSignificand`, `scale?`); which doubles survive is the subject of the theory of texts
that are read back.
-/

namespace TransitQuery

namespace Json

/-- The parts of a number in JSON text. -/
structure NumberText where
  negative : Bool
  whole : List Char
  /-- The digits after the point, if there is one. -/
  fraction : Option (List Char)
  /-- The power of ten, if one is written. -/
  power : Option Int

/-- The parts of the number at the start of a text. The whole part has no superfluous zero, and a
point and an exponent mark need digits after them. -/
def readNumberText (s : List Char) : Option (NumberText × List Char) :=
  let (negative, body) :=
    match s with
    | '-' :: t => (true, t)
    | _ => (false, s)
  let (whole, afterWhole) := Numeral.takeDigits body
  let superfluous :=
    match whole with
    | [] => true
    | '0' :: _ :: _ => true
    | _ => false
  let (fraction, afterFraction) :=
    match afterWhole with
    | '.' :: t =>
      let (digits, rest) := Numeral.takeDigits t
      (some digits, rest)
    | _ => (none, afterWhole)
  if superfluous ∨ fraction = some [] then none
  else
    match afterFraction with
    | 'e' :: _ | 'E' :: _ =>
      (Numeral.takeExponent afterFraction).map fun (power, rest) =>
        (⟨negative, whole, fraction, some power⟩, rest)
    | rest => some (⟨negative, whole, fraction, none⟩, rest)

/-- The number that digits make behind those of another, as far as it fits a 64-bit word, and the
digits from the first that does not fit. -/
def takeSignificand (n : Nat) : List Char → Nat × List Char
  | [] => (n, [])
  | c :: rest =>
    let next := 10 * n + (c.toNat - '0'.toNat)
    if next < UInt64.size then takeSignificand next rest else (n, c :: rest)

variable {R : Type} [Scalar R]

/-- The greatest power of ten that a double holds. -/
def greatestPower : Nat := 308

/-- A power of ten. -/
def powerOfTen (k : Int) : R :=
  Scalar.ofNumeral (.finite false 1 k)

/-- A scalar times a power of ten, unless that is too large. -/
def scale? (x : R) (power : Int) : Option R :=
  if 0 ≤ power then
    if power ≤ greatestPower then
      let y := x * powerOfTen power
      if Scalar.isFinite y then some y else none
    else if x == Scalar.zero then some x else none
  else if -greatestPower ≤ power then some (x / powerOfTen (-power))
  -- the power is too large for a double, so that the value is divided by it in steps
  else if x == Scalar.zero then some x
  else scale? (x / powerOfTen greatestPower) (power + greatestPower)
termination_by power.natAbs
decreasing_by simp only [greatestPower] at *; omega

namespace NumberText

/-- The significand and the power of ten of a number. -/
def significand (t : NumberText) : Nat × Int :=
  let (n, unread) := takeSignificand 0 t.whole
  let fraction := t.fraction.getD []
  let (n, spare) := takeSignificand n fraction
  (n, t.power.getD 0 + unread.length - (fraction.length - spare.length : Nat))

/-- The number as a scalar. -/
def real? (t : NumberText) : Option (Json R) :=
  let (n, power) := t.significand
  (scale? (Scalar.ofInt n) power).map fun x => real (if t.negative then -x else x)

/-- The number as an integer, if it is written as one and fits 64 bits, signed or unsigned. Minus
zero is no integer. -/
def integer? (t : NumberText) : Option Int :=
  let n := Numeral.ofDigits t.whole
  let i : Int := if t.negative then -(n : Int) else n
  if t.fraction.isSome ∨ t.power.isSome ∨ (t.negative ∧ n = 0) then none
  else if Int64.minValue.toInt ≤ i ∧ i < UInt64.size then some i
  else none

/-- The value of a number. -/
def value? (t : NumberText) : Option (Json R) :=
  match t.integer? with
  | some i => some (int i)
  | none => t.real?

end NumberText

end Json

end TransitQuery
