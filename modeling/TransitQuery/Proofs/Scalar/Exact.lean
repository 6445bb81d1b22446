import TransitQuery.Scalar.Basic
import Mathlib.Analysis.SpecialFunctions.Complex.Arg

/-!
# Scalars without rounding

The program runs on doubles. What it means its geometry to be is told over the real numbers: the
same definitions, with exact arithmetic and the trigonometric functions themselves. `Exact` is the
type of real numbers as scalars. Its operations are those of the real numbers, so `simp` moves
`Exact.toReal` inwards until only a real expression is left.

Only decimals can be written. `Numeral.toReal?` is the number that a numeral denotes, if it has
digits, and a real number is written as one of the numerals that denote it, if there are any
(`Exact.exists_toNumeral_iff`); a number such as the square root of two is written as if it were no
number (`Exact.toNumeral_eq_nan`). Statements in which the text of an exact number matters ask for
a decimal there.

Every exact number is finite, and comparison is decided classically, so nothing here computes. The
type serves to say what distances, angles and boxes are in the theorems on geometry; what the
program prints and reads is said of doubles.
-/

namespace TransitQuery

/-- A real number as a scalar. -/
@[ext]
structure Exact where
  toReal : ℝ

/-- The number that a numeral denotes, if it has digits. -/
noncomputable def Numeral.toReal? : Numeral → Option ℝ
  | finite negative digits exponent =>
    some ((if negative then -1 else 1) * digits * 10 ^ exponent)
  | _ => none

namespace Exact

open scoped Classical in
noncomputable instance : Scalar Exact where
  le x y := x.toReal ≤ y.toReal
  lt x y := x.toReal < y.toReal
  beq x y := decide (x = y)
  decideLE _ _ := Classical.propDecidable _
  decideLT _ _ := Classical.propDecidable _
  turn ax ay bx byy cx cy :=
    compare ((ax.toReal - cx.toReal) * (byy.toReal - cy.toReal) -
      (ay.toReal - cy.toReal) * (bx.toReal - cx.toReal)) 0
  add x y := ⟨x.toReal + y.toReal⟩
  sub x y := ⟨x.toReal - y.toReal⟩
  mul x y := ⟨x.toReal * y.toReal⟩
  div x y := ⟨x.toReal / y.toReal⟩
  neg x := ⟨-x.toReal⟩
  ofInt i := ⟨i⟩
  ofNumeral n := ⟨n.toReal?.getD 0⟩
  -- any of its decimals will do
  toNumeral _ x := if h : ∃ n : Numeral, n.toReal? = some x.toReal then h.choose else .nan
  isFinite _ := true
  sqrt x := ⟨√x.toReal⟩
  sin x := ⟨Real.sin x.toReal⟩
  cos x := ⟨Real.cos x.toReal⟩
  atan2 y x := ⟨Complex.arg ⟨x.toReal, y.toReal⟩⟩
  hypot x y := ⟨√(x.toReal ^ 2 + y.toReal ^ 2)⟩
  radiansPerDegree := ⟨Real.pi / (180 : ℕ)⟩
  toRat? x := if h : ∃ r : ℚ, (r : ℝ) = x.toReal then some h.choose else none

variable (x y : Exact)

/-- The order is that of the real numbers. -/
theorem le_def : x ≤ y ↔ x.toReal ≤ y.toReal := Iff.rfl

theorem lt_def : x < y ↔ x.toReal < y.toReal := Iff.rfl

@[simp]
theorem toReal_add : (x + y).toReal = x.toReal + y.toReal := rfl

@[simp]
theorem toReal_sub : (x - y).toReal = x.toReal - y.toReal := rfl

@[simp]
theorem toReal_mul : (x * y).toReal = x.toReal * y.toReal := rfl

@[simp]
theorem toReal_div : (x / y).toReal = x.toReal / y.toReal := rfl

@[simp]
theorem toReal_neg : (-x).toReal = -x.toReal := rfl

@[simp]
theorem toReal_ofInt (i : ℤ) : (Scalar.ofInt i : Exact).toReal = i := rfl

/-- A numeral without digits is read as zero. -/
@[simp]
theorem toReal_ofNumeral (n : Numeral) :
    (Scalar.ofNumeral n : Exact).toReal = n.toReal?.getD 0 := rfl

/-- A number without decimals is written as if it were no number. -/
theorem toNumeral_eq_nan {tie : Tie} {x : Exact} (h : ¬∃ n : Numeral, n.toReal? = some x.toReal) :
    Scalar.toNumeral tie x = .nan :=
  dif_neg h

/-- An exact number is written with digits just if it is a decimal. -/
theorem exists_toNumeral_iff {tie : Tie} :
    (∃ negative digits exponent, Scalar.toNumeral tie x = .finite negative digits exponent) ↔
      ∃ n : Numeral, n.toReal? = some x.toReal := by
  constructor
  · rintro ⟨negative, digits, exponent, h⟩
    by_contra hnone
    rw [toNumeral_eq_nan hnone] at h
    cases h
  · intro h
    have hchoose : Scalar.toNumeral tie x = h.choose := dif_pos h
    have hdenotes := h.choose_spec
    rw [hchoose]
    generalize h.choose = n at hdenotes
    cases n with
    | finite negative digits exponent => exact ⟨_, _, _, rfl⟩
    | _ => cases hdenotes

@[simp]
theorem toReal_sqrt : (Scalar.sqrt x).toReal = √x.toReal := rfl

@[simp]
theorem toReal_sin : (Scalar.sin x).toReal = Real.sin x.toReal := rfl

@[simp]
theorem toReal_cos : (Scalar.cos x).toReal = Real.cos x.toReal := rfl

/-- The angle of a direction, as the argument of a complex number. -/
@[simp]
theorem toReal_atan2 : (Scalar.atan2 y x).toReal = Complex.arg ⟨x.toReal, y.toReal⟩ := rfl

@[simp]
theorem toReal_zero : (Scalar.zero : Exact).toReal = 0 := by
  simp [Scalar.zero]

@[simp]
theorem toReal_one : (Scalar.one : Exact).toReal = 1 := by
  simp [Scalar.one]

@[simp]
theorem toReal_two : (Scalar.two : Exact).toReal = 2 := by
  simp [Scalar.two]

/-- Degrees become radians by the factor one expects. -/
@[simp]
theorem toReal_radians : (Scalar.radians x).toReal = x.toReal * (Real.pi / 180) := by
  change x.toReal * (Real.pi / (180 : ℕ)) = x.toReal * (Real.pi / 180)
  rw [Nat.cast_ofNat]

@[simp]
theorem toReal_magnitude : (Scalar.magnitude x).toReal = |x.toReal| := by
  unfold Scalar.magnitude
  split
  · rename_i h
    have hneg : x.toReal < 0 := by simpa [lt_def] using h
    rw [toReal_neg, abs_of_neg hneg]
  · rename_i h
    have hpos : 0 ≤ x.toReal := by simpa [lt_def] using h
    rw [abs_of_nonneg hpos]

end Exact

end TransitQuery
