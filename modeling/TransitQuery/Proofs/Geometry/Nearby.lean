import TransitQuery.Proofs.Geometry.Sphere
import Mathlib.Analysis.Real.Pi.Bounds
import Mathlib.Analysis.SpecialFunctions.Trigonometric.Bounds

/-!
# Places that are near each other

Around a place, the globe is nearly flat: the square of the chord to a place near by is that of the
way there, with the part along the parallel shortened by the cosines of the two latitudes
(`Sphere.four_mul_halfChordSq_le`, `Sphere.le_four_mul_halfChordSq`). In degrees the way to the east
is not shortened, and so the foot of a perpendicular in degrees is not the nearest place of a line.
How much farther it is depends on the shortening: in the worst case the chord is longer by the
factor `(1 + m) / (2 * √m)` where lengths along the parallel shrink by `√m` (`Sphere.foot_sq_le`).
Near the equator that is little (`Sphere.foot_sq_le_of_level`).

As in `Sphere`, angles are in radians. The way to the foot has the part `x` along the parallel and
`y` along the meridian, and from there a step of `a` and `b` leads along the line.

The estimates are made for places that are at most 0.0175 apart in each coordinate, which is a
little more than a degree, and lose 0.00003 there; near the equator means latitudes up to 0.2618,
which is fifteen degrees. The constants are such that the loss of all of them together stays below
a thousandth.
-/

namespace TransitQuery

open Real

namespace Sphere

variable {φ ψ ψ' Δ Δ' : ℝ}

/-! ### Chords and angles -/

/-- Half a chord is the sine of half its angle. -/
private theorem sin_half_angle_sq (φ ψ Δ : ℝ) : sin (angle φ ψ Δ / 2) ^ 2 = halfChordSq φ ψ Δ := by
  obtain ⟨hlow, hhigh⟩ := abs_le.mp (abs_cosAngle_le_one φ ψ Δ)
  have hcos : cos (2 * (angle φ ψ Δ / 2)) = 1 - 2 * halfChordSq φ ψ Δ := by
    rw [mul_div_cancel₀ _ two_ne_zero, angle, cos_arccos hlow hhigh, cosAngle_eq]
  rw [cos_two_mul'] at hcos
  linarith [sin_sq_add_cos_sq (angle φ ψ Δ / 2)]

/-- The square of half a chord is no negative number. -/
theorem halfChordSq_nonneg (φ ψ Δ : ℝ) : 0 ≤ halfChordSq φ ψ Δ := by
  rw [← sin_half_angle_sq]
  exact sq_nonneg _

private theorem half_angle_mem (φ ψ Δ : ℝ) : 0 ≤ angle φ ψ Δ / 2 ∧ angle φ ψ Δ / 2 ≤ π / 2 := by
  have hnonneg : 0 ≤ angle φ ψ Δ := arccos_nonneg _
  have hle : angle φ ψ Δ ≤ π := arccos_le_pi _
  constructor <;> linarith

/-- A small sine is hardly less than its angle. -/
private theorem mul_one_sub_le_sin {α c : ℝ} (h₀ : 0 ≤ α) (h : α ≤ c) :
    α * (1 - c ^ 2 / 6) ≤ sin α := by
  rcases h₀.eq_or_lt with rfl | hpos
  · simp
  have hcube := sin_gt_sub_cube hpos
  have hsq : α * α ^ 2 ≤ α * c ^ 2 := mul_le_mul_of_nonneg_left (pow_le_pow_left₀ h₀ h 2) h₀
  linarith

/-- A small angle is hardly more than its sine. -/
theorem le_mul_sin {α : ℝ} (h₀ : 0 ≤ α) (hπ : α ≤ π / 2) (hsin : sin α ^ 2 ≤ 0.000154) :
    α ≤ 1.0001 * sin α := by
  have hsmall : α ≤ 0.0125 := by
    by_contra hlarge
    have hmono : sin 0.0125 ≤ sin α :=
      sin_le_sin_of_le_of_le_pi_div_two (by linarith [pi_pos]) hπ (not_le.mp hlarge).le
    have hlow := mul_one_sub_le_sin (by norm_num) (le_refl (0.0125 : ℝ))
    have hsq : (0.01249 : ℝ) ^ 2 ≤ sin α ^ 2 := pow_le_pow_left₀ (by norm_num) (by linarith) 2
    linarith
  have hlow := mul_one_sub_le_sin h₀ hsmall
  linarith

/-- If one chord is at most so many times as long as another one, its angle is hardly more than so
many times the other. -/
theorem angle_le_mul_angle {K : ℝ} (hK : 0 ≤ K)
    (hle : halfChordSq φ ψ Δ ≤ K ^ 2 * halfChordSq φ ψ' Δ')
    (hsmall : halfChordSq φ ψ Δ ≤ 0.000154) :
    angle φ ψ Δ ≤ 1.0001 * K * angle φ ψ' Δ' := by
  obtain ⟨hα₀, hα⟩ := half_angle_mem φ ψ Δ
  obtain ⟨hβ₀, hβ⟩ := half_angle_mem φ ψ' Δ'
  rw [← sin_half_angle_sq, ← sin_half_angle_sq φ ψ' Δ', ← mul_pow] at hle
  rw [← sin_half_angle_sq] at hsmall
  have hsinβ : 0 ≤ sin (angle φ ψ' Δ' / 2) :=
    sin_nonneg_of_nonneg_of_le_pi hβ₀ (by linarith [pi_pos])
  have hsin : sin (angle φ ψ Δ / 2) ≤ K * sin (angle φ ψ' Δ' / 2) :=
    le_of_sq_le_sq hle (mul_nonneg hK hsinβ)
  have hangle : K * sin (angle φ ψ' Δ' / 2) ≤ K * (angle φ ψ' Δ' / 2) :=
    mul_le_mul_of_nonneg_left (sin_le hβ₀) hK
  linarith [le_mul_sin hα₀ hα hsmall]

/-- So is the other way round. -/
theorem halfChordSq_le_of_angle_le {K : ℝ} (hle : angle φ ψ Δ ≤ K * angle φ ψ' Δ') (hK : 0 ≤ K)
    (hsmall : halfChordSq φ ψ' Δ' ≤ 0.000154) :
    halfChordSq φ ψ Δ ≤ (1.0001 * K) ^ 2 * halfChordSq φ ψ' Δ' := by
  obtain ⟨hα₀, hα⟩ := half_angle_mem φ ψ Δ
  obtain ⟨hβ₀, hβ⟩ := half_angle_mem φ ψ' Δ'
  rw [← sin_half_angle_sq] at hsmall
  have hsinα : 0 ≤ sin (angle φ ψ Δ / 2) :=
    sin_nonneg_of_nonneg_of_le_pi hα₀ (by linarith [pi_pos])
  have hsine := mul_le_mul_of_nonneg_left (le_mul_sin hβ₀ hβ hsmall) hK
  have hsin : sin (angle φ ψ Δ / 2) ≤ 1.0001 * K * sin (angle φ ψ' Δ' / 2) := by
    linarith [sin_le hα₀]
  rw [← sin_half_angle_sq, ← sin_half_angle_sq φ ψ' Δ', ← mul_pow]
  exact pow_le_pow_left₀ hsinα hsin 2

/-! ### The flat globe -/

private theorem sin_half_abs_sq (t : ℝ) : sin (|t| / 2) ^ 2 = sin (t / 2) ^ 2 := by
  rcases abs_choice t with heq | heq <;> rw [heq]
  rw [neg_div, sin_neg, neg_sq]

/-- The square of a small chord is hardly less than that of its angle. -/
private theorem le_sin_sq {t : ℝ} (h : |t| ≤ 0.0175) :
    (1 - 0.00003) * t ^ 2 ≤ 4 * sin (t / 2) ^ 2 := by
  rw [← sin_half_abs_sq, ← sq_abs t]
  have hhalf : 0 ≤ |t| / 2 := by positivity
  have hlow := mul_one_sub_le_sin hhalf (by linarith : |t| / 2 ≤ 0.00875)
  have hfactor : |t| / 2 * (1 - 0.000013) ≤ sin (|t| / 2) := by linarith
  have hpow := pow_le_pow_left₀ (mul_nonneg hhalf (by norm_num)) hfactor 2
  rw [mul_pow] at hpow
  linarith [sq_nonneg |t|]

/-- On the globe a chord is at most as long as on the plane. -/
theorem four_mul_halfChordSq_le (hm : 0 ≤ cos φ * cos ψ) :
    4 * halfChordSq φ ψ Δ ≤ (ψ - φ) ^ 2 + cos φ * cos ψ * Δ ^ 2 := by
  have hlat := sin_sq_le_sq (x := (ψ - φ) / 2)
  have hlng := mul_le_mul_of_nonneg_left (sin_sq_le_sq (x := Δ / 2)) hm
  rw [halfChordSq]
  linarith

/-- It is hardly shorter, if both parts of the way are short. -/
theorem le_four_mul_halfChordSq (hm : 0 ≤ cos φ * cos ψ) (hψ : |ψ - φ| ≤ 0.0175)
    (hΔ : |Δ| ≤ 0.0175) :
    (1 - 0.00003) * ((ψ - φ) ^ 2 + cos φ * cos ψ * Δ ^ 2) ≤ 4 * halfChordSq φ ψ Δ := by
  have hlat := le_sin_sq hψ
  have hlng := mul_le_mul_of_nonneg_left (le_sin_sq hΔ) hm
  rw [halfChordSq]
  linarith

/-- The shortening changes no faster than the latitude. -/
theorem cos_mul_cos_le (hφ : 0 ≤ cos φ) (u v : ℝ) :
    cos φ * cos (φ + u) ≤ cos φ * cos (φ + v) + |u - v| := by
  have hdiff := (le_abs_self _).trans (abs_cos_sub_cos_le (φ + u) (φ + v))
  rw [add_sub_add_left_eq_sub] at hdiff
  have hmul := mul_le_mul_of_nonneg_left hdiff hφ
  have hone := mul_le_mul_of_nonneg_right (cos_le_one φ) (abs_nonneg (u - v))
  linarith

/-! ### Feet of perpendiculars in degrees -/

section Foot

variable {x y a b m : ℝ}

/-- The foot of a perpendicular is not much farther than any other place of a line, as long as
lengths along the parallels do not shrink much. The shortening is at most `M` at the foot and at
least `m` elsewhere. -/
theorem foot_sq_le {M : ℝ} (hm : 0 < m) (hM : m ≤ M) (hfoot : 0 ≤ x * a + y * b) :
    4 * m * (y ^ 2 + M * x ^ 2) ≤ (1 + M) ^ 2 * ((y + b) ^ 2 + m * (x + a) ^ 2) := by
  set P := x ^ 2 + y ^ 2 with hP
  set A := y ^ 2 + M * x ^ 2 with hA
  set B := x ^ 2 + m * y ^ 2 with hB
  set Q := (y + b) ^ 2 + m * (x + a) ^ 2 with hQ
  have hM₀ : 0 ≤ M := hm.le.trans hM
  have hA₀ : 0 ≤ A := by positivity
  have hQ₀ : 0 ≤ Q := by positivity
  have hP₀ : 0 ≤ P := by positivity
  -- the step does not lead back towards the middle
  have hstep : P ≤ x * (x + a) + y * (y + b) := by rw [hP]; linarith
  have hcauchy : m * (x * (x + a) + y * (y + b)) ^ 2 ≤ B * Q := by
    have hsq := sq_nonneg (x * (y + b) - m * (y * (x + a)))
    rw [hB, hQ]
    linarith [hsq]
  have hmean : 4 * (A * B) ≤ (1 + M) ^ 2 * P ^ 2 := by
    have hsum : A + B ≤ (1 + M) * P := by
      rw [hA, hB, hP]
      nlinarith [mul_le_mul_of_nonneg_right hM (sq_nonneg y)]
    have hB₀ : 0 ≤ B := by positivity
    nlinarith [sq_nonneg (A - B), mul_self_le_mul_self (add_nonneg hA₀ hB₀) hsum]
  rcases hP₀.eq_or_lt with hzero | hpos
  · have hx : x ^ 2 = 0 := by nlinarith [sq_nonneg x, sq_nonneg y]
    have hy : y ^ 2 = 0 := by nlinarith [sq_nonneg x, sq_nonneg y]
    rw [hA, hx, hy]
    simpa using mul_nonneg (sq_nonneg (1 + M)) hQ₀
  · have hsq : P ^ 2 ≤ (x * (x + a) + y * (y + b)) ^ 2 := pow_le_pow_left₀ hP₀ hstep 2
    have hprod : 4 * m * A * P ^ 2 ≤ (1 + M) ^ 2 * Q * P ^ 2 := by
      calc 4 * m * A * P ^ 2
          ≤ 4 * A * (m * (x * (x + a) + y * (y + b)) ^ 2) := by nlinarith [mul_nonneg hm.le hA₀]
        _ ≤ 4 * A * (B * Q) := by nlinarith
        _ = 4 * (A * B) * Q := by ring
        _ ≤ (1 + M) ^ 2 * P ^ 2 * Q := mul_le_mul_of_nonneg_right hmean hQ₀
        _ = (1 + M) ^ 2 * Q * P ^ 2 := by ring
    exact le_of_mul_le_mul_right hprod (by positivity)

/-- What a step changes along the shortened parallel and the meridian together. -/
theorem neg_le_two_mul (hm : 0.928 ≤ m) (hm₁ : m ≤ 1) (hfoot : 0 ≤ x * a + y * b) :
    -(0.0374 * (0.04 * (y ^ 2 + m * x ^ 2) + 25 * (b ^ 2 + m * a ^ 2))) ≤
      2 * (y * b + m * (x * a)) := by
  have hy : -(0.04 * y ^ 2 + 25 * b ^ 2) ≤ 2 * (y * b) := by
    nlinarith [sq_nonneg (0.2 * y + 5 * b)]
  have hx : 2 * (x * a) ≤ 0.04 * x ^ 2 + 25 * a ^ 2 := by
    nlinarith [sq_nonneg (0.2 * x - 5 * a)]
  -- the step counts in full for the foot, and the rest is small because the shortening is
  have hsplit : (1 + m) * (2 * (y * b + m * (x * a))) =
      4 * m * (x * a + y * b) + (1 - m) * (2 * (y * b) - m * (2 * (x * a))) := by ring
  have hfirst : 0 ≤ 4 * m * (x * a + y * b) := mul_nonneg (by linarith) hfoot
  have hsecond : -(0.04 * (y ^ 2 + m * x ^ 2) + 25 * (b ^ 2 + m * a ^ 2)) ≤
      2 * (y * b) - m * (2 * (x * a)) := by
    have := mul_le_mul_of_nonneg_left hx (by linarith : 0 ≤ m)
    linarith
  have hN : 0 ≤ 0.04 * (y ^ 2 + m * x ^ 2) + 25 * (b ^ 2 + m * a ^ 2) := by
    have : 0 ≤ m := by linarith
    positivity
  have hrest := mul_le_mul_of_nonneg_left hsecond (by linarith : 0 ≤ 1 - m)
  have hsmall : (1 - m) * (0.04 * (y ^ 2 + m * x ^ 2) + 25 * (b ^ 2 + m * a ^ 2)) ≤
      0.0374 * (1 + m) * (0.04 * (y ^ 2 + m * x ^ 2) + 25 * (b ^ 2 + m * a ^ 2)) :=
    mul_le_mul_of_nonneg_right (by linarith) hN
  refine le_of_mul_le_mul_left ?_ (by linarith : 0 < 1 + m)
  rw [hsplit]
  linarith

/-- Near the equator, where the shortening is little and changes little, the foot is hardly farther
than any other place of the line. -/
theorem foot_sq_le_of_level {μ : ℝ} (hm : 0.928 ≤ m) (hm₁ : m ≤ 1) (hfoot : 0 ≤ x * a + y * b)
    (hnear : |x + a| ≤ 0.0175) (hμ : m - 0.2793 * |b| ≤ μ) :
    (1 - 0.00161) * (y ^ 2 + m * x ^ 2) ≤ (y + b) ^ 2 + μ * (x + a) ^ 2 := by
  have hcross := neg_le_two_mul hm hm₁ hfoot
  have hslope : |b| * (x + a) ^ 2 ≤
      0.0175 * ((0.04 * x ^ 2 + 25 * b ^ 2) / 2 + (a ^ 2 + b ^ 2) / 2) := by
    have hx : |b| * |x| ≤ (0.04 * x ^ 2 + 25 * b ^ 2) / 2 := by
      rw [← sq_abs x, ← sq_abs b]
      nlinarith [sq_nonneg (0.2 * |x| - 5 * |b|)]
    have ha : |b| * |a| ≤ (a ^ 2 + b ^ 2) / 2 := by
      rw [← sq_abs a, ← sq_abs b]
      nlinarith [sq_nonneg (|a| - |b|)]
    calc |b| * (x + a) ^ 2 = |x + a| * (|b| * |x + a|) := by
          rw [← sq_abs (x + a)]
          ring
      _ ≤ 0.0175 * (|b| * (|x| + |a|)) :=
          mul_le_mul hnear (mul_le_mul_of_nonneg_left (abs_add_le x a) (abs_nonneg b))
            (by positivity) (by norm_num)
      _ ≤ 0.0175 * ((0.04 * x ^ 2 + 25 * b ^ 2) / 2 + (a ^ 2 + b ^ 2) / 2) := by linarith
  have hstep : (m - 0.2793 * |b|) * (x + a) ^ 2 ≤ μ * (x + a) ^ 2 :=
    mul_le_mul_of_nonneg_right hμ (sq_nonneg _)
  have hx : 0.928 * x ^ 2 ≤ m * x ^ 2 := mul_le_mul_of_nonneg_right hm (sq_nonneg x)
  have ha : 0.928 * a ^ 2 ≤ m * a ^ 2 := mul_le_mul_of_nonneg_right hm (sq_nonneg a)
  nlinarith [sq_nonneg y, sq_nonneg b]

/-- A foot from which the line leads on along a parallel is as near as any place there. -/
theorem halfChordSq_le_of_abs_le (hm : 0 ≤ cos φ * cos ψ) (h : |Δ| ≤ |Δ'|) (hπ : |Δ'| ≤ π) :
    halfChordSq φ ψ Δ ≤ halfChordSq φ ψ Δ' := by
  have hnonneg := abs_nonneg Δ
  have hsin : sin (|Δ| / 2) ≤ sin (|Δ'| / 2) :=
    sin_le_sin_of_le_of_le_pi_div_two (by linarith [pi_pos]) (by linarith) (by linarith)
  have hpos : 0 ≤ sin (|Δ| / 2) := sin_nonneg_of_nonneg_of_le_pi (by linarith) (by linarith)
  rw [halfChordSq, halfChordSq, ← sin_half_abs_sq Δ, ← sin_half_abs_sq Δ']
  exact add_le_add_right (mul_le_mul_of_nonneg_left (pow_le_pow_left₀ hpos hsin 2) hm) _

/-- A step along a meridian away from a parallel makes the way there longer by its own square at
least. -/
theorem sin_half_sq_add_le (hy : |y| ≤ 0.0175) (hb : |y + b| ≤ 0.0175) (hfoot : 0 ≤ y * b) :
    sin (y / 2) ^ 2 + sin (b / 2) ^ 2 ≤ sin ((y + b) / 2) ^ 2 := by
  have hpi := pi_gt_three
  obtain ⟨hy₁, hy₂⟩ := abs_le.mp hy
  obtain ⟨hb₁, hb₂⟩ := abs_le.mp hb
  -- The difference of the squares is a product of two sines, which have the sign of `b`.
  have hdiff : sin ((y + b) / 2) ^ 2 - sin (y / 2) ^ 2 = sin (y + b / 2) * sin (b / 2) := by
    have hadd : y + b / 2 = (y + b) / 2 + y / 2 := by ring
    have hsub : b / 2 = (y + b) / 2 - y / 2 := by ring
    rw [hadd, hsub, sin_add, sin_sub]
    linear_combination sin (y / 2) ^ 2 * sin_sq_add_cos_sq ((y + b) / 2) -
      sin ((y + b) / 2) ^ 2 * sin_sq_add_cos_sq (y / 2)
  have hprod : sin (b / 2) * sin (b / 2) ≤ sin (y + b / 2) * sin (b / 2) := by
    rcases lt_trichotomy b 0 with hneg | rfl | hpos
    · have hy₀ : y ≤ 0 := by
        by_contra hlt
        nlinarith
      have hsin : sin (b / 2) ≤ 0 := sin_nonpos_of_nonpos_of_neg_pi_le (by linarith) (by linarith)
      have hmono : sin (y + b / 2) ≤ sin (b / 2) :=
        sin_le_sin_of_le_of_le_pi_div_two (by linarith) (by linarith) (by linarith)
      exact mul_le_mul_of_nonpos_right hmono hsin
    · simp
    · have hy₀ : 0 ≤ y := by
        by_contra hlt
        nlinarith
      have hsin : 0 ≤ sin (b / 2) := sin_nonneg_of_nonneg_of_le_pi (by linarith) (by linarith)
      have hmono : sin (b / 2) ≤ sin (y + b / 2) :=
        sin_le_sin_of_le_of_le_pi_div_two (by linarith) (by linarith) (by linarith)
      exact mul_le_mul_of_nonneg_right hmono hsin
  linarith

/-- How much the meridians close up on a step. -/
theorem cos_sub_cos_step (φ y b : ℝ) :
    cos (φ + y) - cos (φ + (y + b)) = 2 * (sin (φ + y + b / 2) * sin (b / 2)) := by
  have hmiddle : (φ + y + (φ + (y + b))) / 2 = φ + y + b / 2 := by ring
  have hhalf : (φ + y - (φ + (y + b))) / 2 = -(b / 2) := by ring
  rw [cos_sub_cos, hmiddle, hhalf, sin_neg]
  ring

/-- A foot from which the line leads on along a meridian is hardly farther than any place there: the
meridians close up, but only in proportion to the step, while the way grows with its square. -/
theorem halfChordSq_le_of_meridian (hx : |x| ≤ 0.0175) (hy : |y| ≤ 0.0175)
    (hb : |y + b| ≤ 0.0175) (hfoot : 0 ≤ y * b) (hφ : 0 ≤ cos φ)
    (hψ : cos φ ≤ 1.2 * cos (φ + y)) :
    halfChordSq φ (φ + y) x ≤ 1.0017 * halfChordSq φ (φ + (y + b)) x := by
  set S := sin (x / 2) ^ 2 with hS
  have hS₀ : 0 ≤ S := sq_nonneg _
  have hS₁ : S ≤ 0.0001 := by
    have hsq := sin_sq_le_sq (x := x / 2)
    have habs := pow_le_pow_left₀ (abs_nonneg x) hx 2
    rw [sq_abs] at habs
    linarith
  have hstep := sin_half_sq_add_le hy hb hfoot
  have hclose : cos (φ + y) - cos (φ + (y + b)) ≤ 2 * |sin (b / 2)| := by
    have hle : sin (φ + y + b / 2) * sin (b / 2) ≤ |sin (b / 2)| := by
      calc sin (φ + y + b / 2) * sin (b / 2) ≤ |sin (φ + y + b / 2)| * |sin (b / 2)| := by
            rw [← abs_mul]
            exact le_abs_self _
        _ ≤ 1 * |sin (b / 2)| := mul_le_mul_of_nonneg_right (abs_sin_le_one _) (abs_nonneg _)
        _ = |sin (b / 2)| := one_mul _
    rw [cos_sub_cos_step]
    linarith
  have hfirst : halfChordSq φ (φ + y) x = sin (y / 2) ^ 2 + cos φ * cos (φ + y) * S := by
    rw [halfChordSq, add_sub_cancel_left]
  have hsecond : halfChordSq φ (φ + (y + b)) x =
      sin ((y + b) / 2) ^ 2 + cos φ * cos (φ + (y + b)) * S := by
    rw [halfChordSq, add_sub_cancel_left]
  -- the square of the step outweighs what is lost to the meridians, up to this
  have hloss : halfChordSq φ (φ + y) x - halfChordSq φ (φ + (y + b)) x ≤ (cos φ * S) ^ 2 := by
    have hmul := mul_le_mul_of_nonneg_left hclose (mul_nonneg hφ hS₀)
    have hsq := sq_nonneg (|sin (b / 2)| - cos φ * S)
    rw [← sq_abs (sin (b / 2))] at hstep
    rw [hfirst, hsecond]
    nlinarith
  have hlower : cos φ ^ 2 * S ≤ 1.2 * halfChordSq φ (φ + y) x := by
    have hmul := mul_le_mul_of_nonneg_left hψ (mul_nonneg hφ hS₀)
    rw [hfirst]
    nlinarith [sq_nonneg (sin (y / 2))]
  have hsmall : (cos φ * S) ^ 2 ≤ 0.00012 * halfChordSq φ (φ + y) x := by
    have := mul_le_mul hS₁ hlower (mul_nonneg (sq_nonneg _) hS₀) (by norm_num)
    linarith
  linarith [halfChordSq_nonneg φ (φ + y) x, halfChordSq_nonneg φ (φ + (y + b)) x]

/-- The cosine of a small angle is close to one. -/
private theorem one_sub_le_cos {t c : ℝ} (h : |t| ≤ c) : 1 - c ^ 2 / 2 ≤ cos t := by
  have hsq := pow_le_pow_left₀ (abs_nonneg t) h 2
  rw [sq_abs] at hsq
  linarith [one_sub_sq_div_two_le_cos (x := t)]

/-- Near the equator the chord to the foot is hardly longer than that to any other place of the
line. -/
theorem halfChordSq_le_of_level (hφ : |φ| ≤ 0.2618) (hy : |y| ≤ 0.0175) (hx' : |x + a| ≤ 0.0175)
    (hy' : |y + b| ≤ 0.0175) (hfoot : 0 ≤ x * a + y * b) :
    halfChordSq φ (φ + y) x ≤ 1.0017 * halfChordSq φ (φ + (y + b)) (x + a) := by
  obtain ⟨hφ₁, hφ₂⟩ := abs_le.mp hφ
  obtain ⟨hy₁, hy₂⟩ := abs_le.mp hy
  obtain ⟨hy₃, hy₄⟩ := abs_le.mp hy'
  have hcosφ := one_sub_le_cos hφ
  have hcosf := one_sub_le_cos (abs_le.mpr ⟨by linarith, by linarith⟩ : |φ + y| ≤ 0.2793)
  have hcosq := one_sub_le_cos (abs_le.mpr ⟨by linarith, by linarith⟩ : |φ + (y + b)| ≤ 0.2793)
  have hm : 0.928 ≤ cos φ * cos (φ + y) := by
    have := mul_le_mul hcosφ hcosf (by norm_num) (by linarith)
    linarith
  have hm₁ : cos φ * cos (φ + y) ≤ 1 :=
    mul_le_one₀ (cos_le_one _) (by linarith) (cos_le_one _)
  -- How much the cosine of the latitude can change between the foot and the other place.
  have hslope : cos φ * cos (φ + y) - 0.2793 * |b| ≤ cos φ * cos (φ + (y + b)) := by
    have hmiddle : |φ + y + b / 2| ≤ 0.2793 := abs_le.mpr ⟨by linarith, by linarith⟩
    have hprod : |sin (φ + y + b / 2) * sin (b / 2)| ≤ 0.2793 * |b / 2| := by
      rw [abs_mul]
      exact mul_le_mul (abs_sin_le_abs.trans hmiddle) abs_sin_le_abs (abs_nonneg _) (by norm_num)
    rw [abs_div, abs_two] at hprod
    have hdiff : cos (φ + y) - cos (φ + (y + b)) ≤ 0.2793 * |b| := by
      rw [cos_sub_cos_step]
      linarith [le_abs_self (sin (φ + y + b / 2) * sin (b / 2))]
    have hbound := mul_le_mul_of_nonneg_left hdiff (by linarith : 0 ≤ cos φ)
    have hone := mul_le_mul_of_nonneg_right (cos_le_one φ) (by positivity : 0 ≤ 0.2793 * |b|)
    linarith
  have hflat := foot_sq_le_of_level hm hm₁ hfoot hx' hslope
  have hupper := four_mul_halfChordSq_le (Δ := x) (by linarith : 0 ≤ cos φ * cos (φ + y))
  have hlower := le_four_mul_halfChordSq (φ := φ) (ψ := φ + (y + b)) (Δ := x + a)
    (mul_nonneg (by linarith) (by linarith)) (by rwa [add_sub_cancel_left]) hx'
  rw [add_sub_cancel_left] at hupper hlower
  linarith [halfChordSq_nonneg φ (φ + (y + b)) (x + a)]

/-- At any latitude it is longer by a factor that depends on how much lengths along the parallels
shrink. -/
theorem halfChordSq_le_of_bounds {M : ℝ} (hx' : |x + a| ≤ 0.0175) (hy' : |y + b| ≤ 0.0175)
    (hfoot : 0 ≤ x * a + y * b) (hm : 0 < m) (hM : m ≤ M) (hf₀ : 0 ≤ cos φ * cos (φ + y))
    (hf : cos φ * cos (φ + y) ≤ M) (hq : m ≤ cos φ * cos (φ + (y + b))) :
    halfChordSq φ (φ + y) x ≤
      (1.0001 * ((1 + M) / (2 * √m))) ^ 2 * halfChordSq φ (φ + (y + b)) (x + a) := by
  have hflat := foot_sq_le hm hM hfoot
  have hupper := four_mul_halfChordSq_le (Δ := x) hf₀
  have hlower := le_four_mul_halfChordSq (φ := φ) (ψ := φ + (y + b)) (Δ := x + a)
    (hm.le.trans hq) (by rwa [add_sub_cancel_left]) hx'
  rw [add_sub_cancel_left] at hupper hlower
  have hx := mul_le_mul_of_nonneg_right hf (sq_nonneg x)
  have hxa := mul_le_mul_of_nonneg_right hq (sq_nonneg (x + a))
  have hfactor : (1.0001 * ((1 + M) / (2 * √m))) ^ 2 = 1.0001 ^ 2 * (1 + M) ^ 2 / (4 * m) := by
    rw [mul_pow, div_pow, mul_pow, sq_sqrt hm.le]
    ring
  have hchord := halfChordSq_nonneg φ (φ + (y + b)) (x + a)
  rw [hfactor, div_mul_eq_mul_div, le_div_iff₀ (by linarith)]
  have hfirst : 4 * m * (4 * halfChordSq φ (φ + y) x) ≤ 4 * m * (y ^ 2 + M * x ^ 2) :=
    mul_le_mul_of_nonneg_left (by linarith) (by linarith)
  have hsecond : (1 - 0.00003) * ((y + b) ^ 2 + m * (x + a) ^ 2) ≤
      4 * halfChordSq φ (φ + (y + b)) (x + a) := by linarith
  have hthird : (1 + M) ^ 2 * ((y + b) ^ 2 + m * (x + a) ^ 2) ≤
      (1 + M) ^ 2 * (1.0001 ^ 2 * (4 * halfChordSq φ (φ + (y + b)) (x + a))) := by
    refine mul_le_mul_of_nonneg_left ?_ (sq_nonneg _)
    linarith
  linarith

end Foot

end Sphere

end TransitQuery
