import TransitQuery.Geometry.Distance
import TransitQuery.Proofs.Scalar.Exact

/-!
# Distances on the sphere

The great-circle distance of two places is the radius of the globe times the angle between them,
seen from its middle (`LatLng.haversine_eq`). The places within a distance of a given one make up a
cap. Along a meridian it reaches as far as its angle (`Sphere.abs_sub_le_angle`). In longitude it
reaches farther, as the meridians close up towards the poles: where it holds no pole, up to the two
meridians that touch it (`Sphere.abs_sin_le_of_angle_le`, `Sphere.cosAngle_contact`).

Angles are in radians here. `φ` and `ψ` are latitudes, `Δ` is a difference of longitudes and `δ`
the angle of a cap.

* `Sphere.cosAngle`: the cosine of the angle, by the cosine rule for sides.
* `Sphere.halfChordSq`: the square of half the chord, which is what the haversine formula computes.
* `Sphere.cosAngle_eq`: the two say the same.
* `Sphere.angle_le_iff`: an angle is compared by its cosine, so that no inverse function occurs
  further on.

A meridian that touches the cap of the angle `δ` around the latitude `φ` is `Sphere.span φ δ` away,
and touches it at the latitude `Sphere.contact φ δ`. That no place of the cap is beyond it comes
from the best value that the cosine of the angle can take on a meridian (`Sphere.cosAngle_sq_le`),
which is a sum of two squares. The contact is nearer to the pole than the middle of the cap, hence
the box around a disc is wider than the disc is at the latitude of its middle.
-/

namespace TransitQuery

open Real

namespace Sphere

variable {φ ψ Δ δ : ℝ}

/-- The cosine of the angle between two places. -/
noncomputable def cosAngle (φ ψ Δ : ℝ) : ℝ :=
  sin φ * sin ψ + cos φ * cos ψ * cos Δ

/-- The angle between two places, seen from the middle of the globe. -/
noncomputable def angle (φ ψ Δ : ℝ) : ℝ :=
  arccos (cosAngle φ ψ Δ)

/-- The square of half the chord between two places on a globe with the radius one. -/
noncomputable def halfChordSq (φ ψ Δ : ℝ) : ℝ :=
  sin ((ψ - φ) / 2) ^ 2 + cos φ * cos ψ * sin (Δ / 2) ^ 2

/-- The cosine of the angle and the chord. -/
theorem cosAngle_eq (φ ψ Δ : ℝ) : cosAngle φ ψ Δ = 1 - 2 * halfChordSq φ ψ Δ := by
  have hhalf : ∀ x : ℝ, sin (x / 2) ^ 2 = (1 - cos x) / 2 := by
    intro x
    have h := cos_two_mul' (x / 2)
    rw [mul_div_cancel₀ x two_ne_zero] at h
    nlinarith [sin_sq_add_cos_sq (x / 2)]
  rw [cosAngle, halfChordSq, hhalf, hhalf, cos_sub]
  ring

/-- On one meridian the angle is the difference of the latitudes. -/
private theorem cosAngle_zero (φ ψ : ℝ) : cosAngle φ ψ 0 = cos |ψ - φ| := by
  rw [cos_abs, cos_sub, cosAngle, cos_zero]
  ring

/-- Places are closer if their longitudes are. -/
theorem cosAngle_mono {Δ' : ℝ} (hφ : |φ| ≤ π / 2) (hψ : |ψ| ≤ π / 2) (h : cos Δ ≤ cos Δ') :
    cosAngle φ ψ Δ ≤ cosAngle φ ψ Δ' := by
  have hcosφ := cos_nonneg_of_neg_pi_div_two_le_of_le (abs_le.mp hφ).1 (abs_le.mp hφ).2
  have hcosψ := cos_nonneg_of_neg_pi_div_two_le_of_le (abs_le.mp hψ).1 (abs_le.mp hψ).2
  exact add_le_add_right (mul_le_mul_of_nonneg_left h (mul_nonneg hcosφ hcosψ)) _

/-- What is left of the cosine at the best latitude `ψ`. -/
theorem cosAngle_sq_le (φ ψ Δ : ℝ) :
    cosAngle φ ψ Δ ^ 2 ≤ sin φ ^ 2 + cos φ ^ 2 * cos Δ ^ 2 := by
  have hψ := sin_sq_add_cos_sq ψ
  have hsq := sq_nonneg (sin φ * cos ψ - cos φ * cos Δ * sin ψ)
  calc cosAngle φ ψ Δ ^ 2
      ≤ cosAngle φ ψ Δ ^ 2 + (sin φ * cos ψ - cos φ * cos Δ * sin ψ) ^ 2 := by linarith
    _ = (sin φ ^ 2 + cos φ ^ 2 * cos Δ ^ 2) * (sin ψ ^ 2 + cos ψ ^ 2) := by
      rw [cosAngle]
      ring
    _ = sin φ ^ 2 + cos φ ^ 2 * cos Δ ^ 2 := by rw [hψ, mul_one]

theorem abs_cosAngle_le_one (φ ψ Δ : ℝ) : |cosAngle φ ψ Δ| ≤ 1 := by
  rw [← sq_le_one_iff_abs_le_one]
  have hΔ : cos φ ^ 2 * cos Δ ^ 2 ≤ cos φ ^ 2 * 1 :=
    mul_le_mul_of_nonneg_left (cos_sq_le_one Δ) (sq_nonneg _)
  linarith [cosAngle_sq_le φ ψ Δ, sin_sq_add_cos_sq φ]

/-- The direction whose parts are the square roots of two numbers with the sum one. -/
theorem two_mul_arg_eq {a : ℝ} (h₀ : 0 ≤ a) (h₁ : a ≤ 1) :
    2 * Complex.arg ⟨√(1 - a), √a⟩ = arccos (1 - 2 * a) := by
  -- The vector has length one, so it is the cosine and the sine of half the angle.
  set θ := arccos (1 - 2 * a) / 2 with hθ
  have hnonneg : 0 ≤ θ := by
    have := arccos_nonneg (1 - 2 * a)
    linarith
  have hle : θ ≤ π / 2 := by
    have := arccos_le_pi (1 - 2 * a)
    linarith
  have hcos : cos (2 * θ) = 1 - 2 * a := by
    rw [hθ, mul_div_cancel₀ _ two_ne_zero, cos_arccos (by linarith) (by linarith)]
  have hsin : √a = sin θ := by
    rw [← sqrt_sq (sin_nonneg_of_nonneg_of_le_pi hnonneg (by linarith [pi_pos]))]
    congr 1
    linarith [cos_two_mul' θ, sin_sq_add_cos_sq θ]
  have hcos' : √(1 - a) = cos θ := by
    rw [← sqrt_sq (cos_nonneg_of_neg_pi_div_two_le_of_le (by linarith [pi_pos]) hle)]
    congr 1
    linarith [cos_two_mul' θ, sin_sq_add_cos_sq θ]
  have harg : Complex.arg ⟨√(1 - a), √a⟩ = θ := by
    have heq : (⟨√(1 - a), √a⟩ : ℂ) = Complex.cos θ + Complex.sin θ * Complex.I := by
      rw [hsin, hcos', ← Complex.ofReal_cos, ← Complex.ofReal_sin]
      exact Complex.mk_eq_add_mul_I _ _
    rw [heq, Complex.arg_cos_add_sin_mul_I ⟨by linarith [pi_pos], by linarith [pi_pos]⟩]
  rw [harg, hθ, mul_div_cancel₀ _ two_ne_zero]

/-- Angles are compared by their cosines, the other way round. -/
theorem angle_le_iff (h₀ : 0 ≤ δ) (hπ : δ ≤ π) :
    angle φ ψ Δ ≤ δ ↔ cos δ ≤ cosAngle φ ψ Δ := by
  obtain ⟨hlow, hhigh⟩ := abs_le.mp (abs_cosAngle_le_one φ ψ Δ)
  constructor
  · intro h
    have hcos := cos_le_cos_of_nonneg_of_le_pi (arccos_nonneg _) hπ h
    rwa [cos_arccos hlow hhigh] at hcos
  · intro h
    have harccos := arccos_le_arccos h
    rwa [arccos_cos h₀ hπ] at harccos

/-- Places are at least as far apart as their latitudes. -/
theorem abs_sub_le_angle (hφ : |φ| ≤ π / 2) (hψ : |ψ| ≤ π / 2) (Δ : ℝ) :
    |ψ - φ| ≤ angle φ ψ Δ := by
  have hle : |ψ - φ| ≤ π := by
    have := abs_sub ψ φ
    linarith
  have hcos : cosAngle φ ψ Δ ≤ cosAngle φ ψ 0 :=
    cosAngle_mono hφ hψ (by rw [cos_zero]; exact cos_le_one Δ)
  rw [cosAngle_zero] at hcos
  have harccos := arccos_le_arccos hcos
  rwa [arccos_cos (abs_nonneg _) hle] at harccos

/-- On one meridian they are no farther. -/
theorem angle_zero (h : |ψ - φ| ≤ π) : angle φ ψ 0 = |ψ - φ| := by
  rw [angle, cosAngle_zero, arccos_cos (abs_nonneg _) h]

/-! ### Caps without a pole -/

/-- A cap holds no pole if its angle and latitude stay below a right angle. -/
private theorem abs_sin_lt_cos (h₀ : 0 ≤ δ) (h : |φ| + δ < π / 2) : |sin φ| < cos δ := by
  have hφ := abs_nonneg φ
  rw [abs_sin_eq_sin_abs_of_abs_le_pi (by linarith [pi_pos]), ← cos_pi_div_two_sub]
  exact cos_lt_cos_of_nonneg_of_le_pi_div_two h₀ (by linarith) (by linarith)

/-- Then its angle has a smaller sine than the latitude has a cosine. -/
theorem sin_lt_cos (h₀ : 0 ≤ δ) (h : |φ| + δ < π / 2) : sin δ < cos φ := by
  rw [← cos_abs φ, ← cos_pi_div_two_sub δ]
  exact cos_lt_cos_of_nonneg_of_le_pi_div_two (abs_nonneg φ) (by linarith) (by linarith)

/-- The difference of longitude between the middle of a cap and a meridian that touches it. -/
noncomputable def span (φ δ : ℝ) : ℝ :=
  arcsin (sin δ / cos φ)

/-- The latitude at which the meridian touches the cap. -/
noncomputable def contact (φ δ : ℝ) : ℝ :=
  arcsin (sin φ / cos δ)

/-- A touching meridian is at most a quarter turn away. -/
theorem span_le (φ δ : ℝ) : span φ δ ≤ π / 2 :=
  arcsin_le_pi_div_two _

theorem abs_contact_le (φ δ : ℝ) : |contact φ δ| ≤ π / 2 :=
  abs_le.mpr ⟨neg_pi_div_two_le_arcsin _, arcsin_le_pi_div_two _⟩

/-- A place in a cap lies between the two meridians that touch it. -/
theorem abs_sin_le_of_angle_le (h₀ : 0 ≤ δ) (h : |φ| + δ < π / 2) (hψ : |ψ| ≤ π / 2)
    (hangle : angle φ ψ Δ ≤ δ) : 0 < cos Δ ∧ |sin Δ| ≤ sin δ / cos φ := by
  have hφ := abs_nonneg φ
  have hsinδ : 0 ≤ sin δ := sin_nonneg_of_nonneg_of_le_pi h₀ (by linarith)
  have hcosφ : 0 < cos φ := hsinδ.trans_lt (sin_lt_cos h₀ h)
  have hcosψ : 0 ≤ cos ψ := cos_nonneg_of_neg_pi_div_two_le_of_le (abs_le.mp hψ).1 (abs_le.mp hψ).2
  have hsinφ := abs_sin_lt_cos h₀ h
  have hcosδ := (angle_le_iff h₀ (by linarith)).mp hangle
  constructor
  · -- On the far side of the sphere the cosine of the angle would be too small.
    by_contra hneg
    have hterm : cos φ * cos ψ * cos Δ ≤ 0 :=
      mul_nonpos_of_nonneg_of_nonpos (mul_nonneg hcosφ.le hcosψ) (not_lt.mp hneg)
    have hprod : sin φ * sin ψ ≤ |sin φ| := by
      calc sin φ * sin ψ ≤ |sin φ * sin ψ| := le_abs_self _
        _ = |sin φ| * |sin ψ| := abs_mul _ _
        _ ≤ |sin φ| * 1 := mul_le_mul_of_nonneg_left (abs_sin_le_one ψ) (abs_nonneg _)
        _ = |sin φ| := mul_one _
    rw [cosAngle] at hcosδ
    linarith
  · have hsq : (cos φ * sin Δ) ^ 2 ≤ sin δ ^ 2 := by
      have hpos : 0 ≤ cos δ := (abs_nonneg _).trans hsinφ.le
      have hle : cos δ ^ 2 ≤ cosAngle φ ψ Δ ^ 2 := pow_le_pow_left₀ hpos hcosδ 2
      nlinarith [cosAngle_sq_le φ ψ Δ, sin_sq_add_cos_sq φ, sin_sq_add_cos_sq Δ,
        sin_sq_add_cos_sq δ]
    have habs := abs_le_of_sq_le_sq hsq hsinδ
    rw [le_div_iff₀ hcosφ, mul_comm]
    calc cos φ * |sin Δ| = |cos φ * sin Δ| := by rw [abs_mul, abs_of_pos hcosφ]
      _ ≤ sin δ := habs

/-- An angle with a small sine and a positive cosine is close to zero or to a full turn. -/
theorem abs_le_or_le_abs {s : ℝ} (hΔ : |Δ| ≤ 2 * π) (hcos : 0 < cos Δ) (hsin : |sin Δ| ≤ s) :
    |Δ| ≤ arcsin s ∨ 2 * π - arcsin s ≤ |Δ| := by
  have hnonneg := abs_nonneg Δ
  rw [← cos_abs] at hcos
  have hsin' : |sin (|Δ|)| ≤ s := by
    rcases abs_choice Δ with heq | heq <;> rw [heq]
    · exact hsin
    · rwa [sin_neg, abs_neg]
  rcases lt_or_ge |Δ| (π / 2) with hsmall | hlarge
  · left
    rw [← arcsin_sin (by linarith) hsmall.le]
    exact arcsin_le_arcsin ((le_abs_self _).trans hsin')
  · right
    have hend : 3 * π / 2 < |Δ| := by
      by_contra hle
      exact absurd (cos_nonpos_of_pi_div_two_le_of_le hlarge (by linarith)) (not_le.mpr hcos)
    have hle : 2 * π - |Δ| ≤ arcsin s := by
      rw [← arcsin_sin (x := 2 * π - |Δ|) (by linarith) (by linarith)]
      refine arcsin_le_arcsin ?_
      rw [sin_two_pi_sub]
      exact (neg_le_abs _).trans hsin'
    linarith

/-- The cap does reach the meridian. -/
theorem cosAngle_contact (h₀ : 0 ≤ δ) (h : |φ| + δ < π / 2) :
    cosAngle φ (contact φ δ) (span φ δ) = cos δ := by
  have hsinφ := abs_sin_lt_cos h₀ h
  have hcosδ : 0 < cos δ := (abs_nonneg _).trans_lt hsinφ
  have hsinδ : 0 ≤ sin δ := sin_nonneg_of_nonneg_of_le_pi h₀ (by linarith [abs_nonneg φ, pi_pos])
  have hcosφ : 0 < cos φ := hsinδ.trans_lt (sin_lt_cos h₀ h)
  have hsin : sin (contact φ δ) = sin φ / cos δ := by
    have habs : |sin φ / cos δ| ≤ 1 := by
      rw [abs_div, abs_of_pos hcosδ, div_le_one hcosδ]
      exact hsinφ.le
    exact sin_arcsin (abs_le.mp habs).1 (abs_le.mp habs).2
  have hspan : sin (span φ δ) = sin δ / cos φ := by
    refine sin_arcsin (by linarith [div_nonneg hsinδ hcosφ.le]) ?_
    rw [div_le_one hcosφ]
    exact (sin_lt_cos h₀ h).le
  have hX : 0 ≤ cos (contact φ δ) := cos_arcsin_nonneg _
  have hY : 0 ≤ cos (span φ δ) := cos_arcsin_nonneg _
  -- The squares of both products of cosines agree, and the products are not negative.
  have hsqX : (cos δ * cos (contact φ δ)) ^ 2 = cos δ ^ 2 - sin φ ^ 2 := by
    rw [mul_pow, cos_sq' (contact φ δ), hsin]
    field_simp
  have hsqY : (cos φ * cos (span φ δ)) ^ 2 = cos δ ^ 2 - sin φ ^ 2 := by
    rw [mul_pow, cos_sq' (span φ δ), hspan]
    field_simp
    linarith [sin_sq_add_cos_sq φ, sin_sq_add_cos_sq δ]
  have heq : cos φ * cos (span φ δ) = cos δ * cos (contact φ δ) := by
    refine (pow_left_inj₀ (mul_nonneg hcosφ.le hY) (mul_nonneg hcosδ.le hX) two_ne_zero).mp ?_
    rw [hsqX, hsqY]
  calc cosAngle φ (contact φ δ) (span φ δ)
      = sin φ * (sin φ / cos δ) + cos φ * cos (span φ δ) * cos (contact φ δ) := by
        rw [cosAngle, hsin]
        ring
    _ = (sin φ ^ 2 + (cos δ * cos (contact φ δ)) ^ 2) / cos δ := by
        rw [heq]
        field_simp
    _ = cos δ := by
        rw [hsqX]
        field_simp
        ring

/-! ### Caps with a pole -/

/-- From the north pole all longitudes are alike. -/
theorem angle_pole (h : |φ| ≤ π / 2) : angle φ (π / 2) Δ = π / 2 - φ := by
  rw [angle, cosAngle, sin_pi_div_two, cos_pi_div_two, mul_one, mul_zero, zero_mul, add_zero,
    arccos, arcsin_sin (abs_le.mp h).1 (abs_le.mp h).2]

theorem angle_neg_pole (h : |φ| ≤ π / 2) : angle φ (-(π / 2)) Δ = π / 2 + φ := by
  rw [angle, cosAngle, sin_neg, cos_neg, sin_pi_div_two, cos_pi_div_two, mul_neg_one, mul_zero,
    zero_mul, add_zero, arccos, arcsin_neg, arcsin_sin (abs_le.mp h).1 (abs_le.mp h).2]
  ring

end Sphere

/-- The great-circle distance is the length of an arc. -/
theorem LatLng.haversine_eq (p q : LatLng Exact) :
    (p.haversine q).toReal = 6371000 * Sphere.angle (p.lat.toReal * (π / 180))
      (q.lat.toReal * (π / 180)) ((q.lng.toReal - p.lng.toReal) * (π / 180)) := by
  set φ := p.lat.toReal * (π / 180) with hφ
  set ψ := q.lat.toReal * (π / 180) with hψ
  set Δ := (q.lng.toReal - p.lng.toReal) * (π / 180) with hΔ
  have hchord : (p.haversine q).toReal = 6371000 * (2 *
      Complex.arg ⟨√(1 - Sphere.halfChordSq φ ψ Δ), √(Sphere.halfChordSq φ ψ Δ)⟩) := by
    have hlat : (q.lat.toReal - p.lat.toReal) * (π / 180) = ψ - φ := by
      rw [hφ, hψ]
      ring
    simp [haversine, halfSineSquared, earthRadius, Sphere.halfChordSq, hlat, pow_two, ← hφ, ← hψ,
      ← hΔ]
  obtain ⟨hlow, hhigh⟩ := abs_le.mp (Sphere.abs_cosAngle_le_one φ ψ Δ)
  rw [Sphere.cosAngle_eq] at hlow hhigh
  rw [hchord, Sphere.two_mul_arg_eq (by linarith) (by linarith), ← Sphere.cosAngle_eq]
  rfl

end TransitQuery
