import TransitQuery.Proofs.Geometry.Nearby
import TransitQuery.Proofs.Geometry.Nearest
import TransitQuery.Proofs.Geometry.Reach

/-!
# Distances to a line in meters

On each segment of a line, the position that is measured is the foot of the perpendicular in
degrees. A degree of longitude is shorter than one of latitude away from the equator, so the foot is
not the nearest place of the line, and the distance in meters is too large. How much too large does
not depend on how short the distances are, but on the latitude and on the direction of the line: at
most by the factor `LatLng.stretch`, and hardly anything up to the fifteenth degree of latitude or
on lines along the parallels and the meridians (`lineMeters_accuracy`). From the eighteenth degree
on it is more than a thousandth on some lines of two kilometers (`LatLng.isWithin_corner`).

Distances are compared by half chords (`LatLng.chordSq`), which are sums of two squares and grow
with the distance. `LatLng.haversine_le_of_chordSq_le` and `LatLng.chordSq_le_of_haversine_le` pass
from one to the other, for places within a degree of the point and for latitudes up to 80, at the
cost of a factor of 1.0001.

For the upper bound, the foot is told by the angle there (`nonneg_of_foot`): seen from the foot, no
place of the segment lies on the side of the point. In degrees this makes the foot the nearest
place, and in meters a length along the parallels shrinks by a cosine that changes little within a
degree. Between the least and the most that is left of such a length, `LatLng.stretch` is how much
farther away the foot can be. For the lower bound, `LatLng.corner` is a segment for which all this
can be computed: its foot is its middle, and the place a fortieth of its length before the middle is
nearer by more than a thousandth.
-/

namespace TransitQuery

open Real

private theorem ofDegrees_add (x y : ℝ) : ofDegrees (x + y) = ofDegrees x + ofDegrees y := by
  rw [ofDegrees, ofDegrees, ofDegrees, add_mul]

private theorem ofDegrees_eq_mul (x : ℝ) : ofDegrees x = x * ofDegrees 1 := by
  rw [ofDegrees, ofDegrees, one_mul]

/-! ### Places within a degree -/

/-- Both coordinates are within a degree of those of a point. -/
def Position.IsWithinDegree (q : Position Exact) (p : LatLng Exact) : Prop :=
  |q.x.toReal - p.lng.toReal| ≤ 1 ∧ |q.y.toReal - p.lat.toReal| ≤ 1

/-- A segment that runs along a meridian or a parallel. -/
def Segment.IsAxial (s : Segment Exact) : Prop :=
  s.start.x = s.stop.x ∨ s.start.y = s.stop.y

private theorem abs_ofDegrees_le {x : ℝ} (h : |x| ≤ 1) : |ofDegrees x| ≤ 0.0175 := by
  rw [abs_ofDegrees, ofDegrees]
  nlinarith [pi_lt_d2, pi_pos]

/-- What lies between two numbers near a third one is as near to it. -/
private theorem abs_sub_le_of_between {u v w t : ℝ} (ht : t ∈ Set.Icc (0 : ℝ) 1) (hu : |u - w| ≤ 1)
    (hv : |v - w| ≤ 1) : |u + t * (v - u) - w| ≤ 1 := by
  obtain ⟨h₀, h₁⟩ := ht
  rw [abs_le] at hu hv ⊢
  constructor <;> nlinarith

/-- With both its ends, a segment lies within a degree of the point. -/
private theorem Segment.isWithinDegree {s : Segment Exact} {p : LatLng Exact}
    (hstart : s.start.IsWithinDegree p) (hstop : s.stop.IsWithinDegree p) {q : Position Exact}
    (hq : q ∈ s.points) : q.IsWithinDegree p := by
  obtain ⟨t, ht, rfl⟩ := hq
  exact ⟨abs_sub_le_of_between ht hstart.1 hstop.1, abs_sub_le_of_between ht hstart.2 hstop.2⟩

namespace LatLng

variable {p : LatLng Exact} {f q : Position Exact}

/-- The square of half the chord from a point to a position. -/
noncomputable def chordSq (p : LatLng Exact) (q : Position Exact) : ℝ :=
  Sphere.halfChordSq (ofDegrees p.lat.toReal)
    (ofDegrees p.lat.toReal + ofDegrees (q.y.toReal - p.lat.toReal))
    (ofDegrees (q.x.toReal - p.lng.toReal))

private theorem chordSq_nonneg (p : LatLng Exact) (q : Position Exact) : 0 ≤ p.chordSq q :=
  Sphere.halfChordSq_nonneg _ _ _

private theorem haversine_nonneg (p q : LatLng Exact) : 0 ≤ (p.haversine q).toReal := by
  rw [haversine_eq]
  exact mul_nonneg (by norm_num) (arccos_nonneg _)

/-- A distance in meters is the angle between two latitudes, a difference of longitudes apart. -/
private theorem haversine_latLng (p : LatLng Exact) (q : Position Exact) :
    (p.haversine q.latLng).toReal = 6371000 * Sphere.angle (ofDegrees p.lat.toReal)
      (ofDegrees p.lat.toReal + ofDegrees (q.y.toReal - p.lat.toReal))
      (ofDegrees (q.x.toReal - p.lng.toReal)) := by
  rw [← ofDegrees_add, add_sub_cancel]
  exact haversine_eq p q.latLng

private theorem isWithinDegree_position (p : LatLng Exact) : p.position.IsWithinDegree p := by
  simp [Position.IsWithinDegree, position]

/-- Away from the poles, the parallels through places within a degree have a length. -/
theorem tenth_le_cos (hlat : |p.lat.toReal| ≤ 80) (hf : f.IsWithinDegree p) :
    0.1 ≤ cos (ofDegrees p.lat.toReal + ofDegrees (f.y.toReal - p.lat.toReal)) := by
  have hle : |ofDegrees p.lat.toReal + ofDegrees (f.y.toReal - p.lat.toReal)| ≤ ofDegrees 81 := by
    have hadd := abs_add_le p.lat.toReal (f.y.toReal - p.lat.toReal)
    rw [← ofDegrees_add, abs_ofDegrees]
    exact ofDegrees_mono (by linarith [hf.2])
  have hlimit : ofDegrees 81 = π / 2 - π / 20 := by
    rw [ofDegrees]
    ring
  rw [hlimit] at hle
  have hsin := mul_le_sin (x := π / 20) (by positivity) (by linarith [pi_pos])
  rw [← cos_pi_div_two_sub] at hsin
  have hmono := cos_le_cos_of_nonneg_of_le_pi (abs_nonneg _) (by linarith [pi_pos]) hle
  rw [cos_abs] at hmono
  have htenth : 2 / π * (π / 20) = 0.1 := by
    field_simp
    norm_num
  linarith

/-- The parallel through the point has a length, too. -/
private theorem cos_pos_of_abs_le (hlat : |p.lat.toReal| ≤ 80) :
    0 < cos (ofDegrees p.lat.toReal) := by
  have hpos := tenth_le_cos hlat p.isWithinDegree_position
  rw [position, sub_self, ofDegrees_zero, add_zero] at hpos
  linarith

/-- Within a degree they do not shrink much. -/
theorem cos_le_of_isWithinDegree (hlat : |p.lat.toReal| ≤ 80) (hf : f.IsWithinDegree p) :
    cos (ofDegrees p.lat.toReal) ≤
      1.2 * cos (ofDegrees p.lat.toReal + ofDegrees (f.y.toReal - p.lat.toReal)) := by
  have hpos := tenth_le_cos hlat hf
  have hy := abs_ofDegrees_le hf.2
  generalize ofDegrees (f.y.toReal - p.lat.toReal) = y at hpos hy
  generalize ofDegrees p.lat.toReal = φ at hpos
  have hclose := (le_abs_self _).trans (abs_cos_sub_cos_le φ (φ + y))
  rw [sub_add_cancel_left, abs_neg] at hclose
  linarith

/-- Chords within a degree are short. -/
theorem chordSq_le_small (hlat : |p.lat.toReal| ≤ 80) (hf : f.IsWithinDegree p) :
    p.chordSq f ≤ 0.000154 := by
  have hx := pow_le_pow_left₀ (abs_nonneg _) (abs_ofDegrees_le hf.1) 2
  have hy := pow_le_pow_left₀ (abs_nonneg _) (abs_ofDegrees_le hf.2) 2
  rw [sq_abs] at hx hy
  have hcosf := tenth_le_cos hlat hf
  have hflat := Sphere.four_mul_halfChordSq_le (Δ := ofDegrees (f.x.toReal - p.lng.toReal))
    (mul_nonneg (cos_pos_of_abs_le hlat).le (by linarith))
  rw [add_sub_cancel_left] at hflat
  have hone : cos (ofDegrees p.lat.toReal) *
      cos (ofDegrees p.lat.toReal + ofDegrees (f.y.toReal - p.lat.toReal)) ≤ 1 :=
    mul_le_one₀ (cos_le_one _) (by linarith) (cos_le_one _)
  have hshort := mul_le_mul_of_nonneg_right hone
    (sq_nonneg (ofDegrees (f.x.toReal - p.lng.toReal)))
  rw [chordSq]
  linarith

/-- If one chord is not much longer than another, its distance is not, either. -/
theorem haversine_le_of_chordSq_le {K : ℝ} (hK : 0 ≤ K) (hlat : |p.lat.toReal| ≤ 80)
    (hf : f.IsWithinDegree p) (hle : p.chordSq f ≤ K ^ 2 * p.chordSq q) :
    (p.haversine f.latLng).toReal ≤ 1.0001 * K * (p.haversine q.latLng).toReal := by
  have hangle := Sphere.angle_le_mul_angle hK hle (chordSq_le_small hlat hf)
  rw [haversine_latLng, haversine_latLng]
  linarith

/-- If a distance is not much longer than another one, its chord is not, either. -/
theorem chordSq_le_of_haversine_le {K : ℝ} (hK : 0 ≤ K) (hlat : |p.lat.toReal| ≤ 80)
    (hq : q.IsWithinDegree p)
    (hle : (p.haversine f.latLng).toReal ≤ K * (p.haversine q.latLng).toReal) :
    p.chordSq f ≤ (1.0001 * K) ^ 2 * p.chordSq q := by
  rw [haversine_latLng, haversine_latLng] at hle
  exact Sphere.halfChordSq_le_of_angle_le (by linarith) hK (chordSq_le_small hlat hq)

/-! ### Feet -/

section Foot

/-- From a foot the line does not lead back towards the point. -/
theorem nonneg_of_foot (hfoot : f.inner p.position q ≤ 0) :
    0 ≤ ofDegrees (f.x.toReal - p.lng.toReal) * ofDegrees (q.x.toReal - f.x.toReal) +
      ofDegrees (f.y.toReal - p.lat.toReal) * ofDegrees (q.y.toReal - f.y.toReal) := by
  have hscale : ofDegrees (f.x.toReal - p.lng.toReal) * ofDegrees (q.x.toReal - f.x.toReal) +
      ofDegrees (f.y.toReal - p.lat.toReal) * ofDegrees (q.y.toReal - f.y.toReal) =
      -f.inner p.position q * (π / 180) ^ 2 := by
    simp only [ofDegrees, Position.inner, position]
    ring
  rw [hscale]
  exact mul_nonneg (neg_nonneg.mpr hfoot) (sq_nonneg _)

private theorem ofDegrees_step (u v w : ℝ) :
    ofDegrees (v - w) = ofDegrees (u - w) + ofDegrees (v - u) := by
  rw [← ofDegrees_add]
  congr 1
  ring

/-- Near the equator, and on segments along a parallel or a meridian, the chord to the foot is
hardly longer than that to another place. -/
theorem chordSq_le (hlat : |p.lat.toReal| ≤ 80) (hf : f.IsWithinDegree p)
    (hq : q.IsWithinDegree p) (hfoot : f.inner p.position q ≤ 0)
    (h : |p.lat.toReal| ≤ 15 ∨ f.x = q.x ∨ f.y = q.y) :
    p.chordSq f ≤ 1.0017 * p.chordSq q := by
  have hnonneg := nonneg_of_foot hfoot
  have hx := abs_ofDegrees_le hf.1
  have hy := abs_ofDegrees_le hf.2
  have hx' := abs_ofDegrees_le hq.1
  have hy' := abs_ofDegrees_le hq.2
  rw [ofDegrees_step f.x.toReal] at hx'
  rw [ofDegrees_step f.y.toReal] at hy'
  have hcos := cos_pos_of_abs_le hlat
  have hcosf := tenth_le_cos hlat hf
  rw [chordSq, chordSq, ofDegrees_step f.x.toReal q.x.toReal, ofDegrees_step f.y.toReal q.y.toReal]
  -- Near the equator both directions count, and otherwise the step to the foot is along one of the
  -- axes.
  rcases h with hlevel | heq | heq
  · have hφ : |ofDegrees p.lat.toReal| ≤ 0.2618 := by
      rw [abs_ofDegrees, ofDegrees]
      nlinarith [pi_lt_d4, pi_pos]
    exact Sphere.halfChordSq_le_of_level hφ hy hx' hy' hnonneg
  · rw [heq, sub_self, ofDegrees_zero, mul_zero, zero_add] at hnonneg
    have hshrink := cos_le_of_isWithinDegree hlat hf
    rw [heq, sub_self, ofDegrees_zero, add_zero]
    rw [heq] at hx
    exact Sphere.halfChordSq_le_of_meridian hx hy hy' hnonneg hcos.le hshrink
  · rw [heq, sub_self, ofDegrees_zero, mul_zero, add_zero] at hnonneg
    have habs : |ofDegrees (f.x.toReal - p.lng.toReal)| ≤
        |ofDegrees (f.x.toReal - p.lng.toReal) + ofDegrees (q.x.toReal - f.x.toReal)| := by
      rw [← sq_le_sq]
      nlinarith [sq_nonneg (ofDegrees (q.x.toReal - f.x.toReal))]
    have hle := Sphere.halfChordSq_le_of_abs_le (φ := ofDegrees p.lat.toReal)
      (ψ := ofDegrees p.lat.toReal + ofDegrees (f.y.toReal - p.lat.toReal))
      (mul_nonneg hcos.le (by linarith)) habs (by linarith [pi_gt_three])
    rw [heq, sub_self, ofDegrees_zero, add_zero]
    rw [heq] at hle
    refine hle.trans (le_mul_of_one_le_left (Sphere.halfChordSq_nonneg _ _ _) (by norm_num))

/-- The square of what is left of a length along the parallels from the point to places within a
degree of its latitude, where it shrinks the least. -/
noncomputable def leastShrinking (p : LatLng Exact) : ℝ :=
  cos (ofDegrees p.lat.toReal) * cos (ofDegrees (max 0 (|p.lat.toReal| - 1)))

/-- The same where it shrinks the most. -/
noncomputable def mostShrinking (p : LatLng Exact) : ℝ :=
  cos (ofDegrees p.lat.toReal) * cos (ofDegrees (|p.lat.toReal| + 1))

/-- How many times as far as the nearest place of a line the foot can be. -/
noncomputable def stretch (p : LatLng Exact) : ℝ :=
  (1 + p.leastShrinking) / (√p.mostShrinking + √p.mostShrinking)

/-- What is left of lengths along the parallels lies between the two bounds. -/
private theorem shrinking_mem (hlat : |p.lat.toReal| ≤ 80) (hf : f.IsWithinDegree p) :
    p.mostShrinking ≤ cos (ofDegrees p.lat.toReal) *
        cos (ofDegrees p.lat.toReal + ofDegrees (f.y.toReal - p.lat.toReal)) ∧
      cos (ofDegrees p.lat.toReal) *
        cos (ofDegrees p.lat.toReal + ofDegrees (f.y.toReal - p.lat.toReal)) ≤
          p.leastShrinking := by
  have hcos := (cos_pos_of_abs_le hlat).le
  have hpi : ∀ x : ℝ, x ≤ 180 → ofDegrees x ≤ π := by
    intro x hx
    rw [ofDegrees]
    nlinarith [pi_pos]
  have hnonneg : ∀ x : ℝ, 0 ≤ x → 0 ≤ ofDegrees x := fun x hx =>
    mul_nonneg hx (by positivity)
  have hy := abs_le.mp hf.2
  have hψ : |ofDegrees p.lat.toReal + ofDegrees (f.y.toReal - p.lat.toReal)| =
      ofDegrees |f.y.toReal| := by
    rw [← ofDegrees_add, abs_ofDegrees, add_sub_cancel]
  have hle : |f.y.toReal| ≤ |p.lat.toReal| + 1 := by
    have hadd := abs_add_le p.lat.toReal (f.y.toReal - p.lat.toReal)
    rw [add_sub_cancel] at hadd
    linarith [hf.2]
  have hge : max 0 (|p.lat.toReal| - 1) ≤ |f.y.toReal| := by
    have hsub := abs_sub_abs_le_abs_sub p.lat.toReal f.y.toReal
    rw [abs_sub_comm] at hsub
    exact max_le (abs_nonneg _) (by linarith [hf.2])
  -- The cosine falls with the size of the latitude, and the foot is within a degree of the point.
  rw [← cos_abs (ofDegrees p.lat.toReal + _), hψ, mostShrinking, leastShrinking]
  constructor
  · refine mul_le_mul_of_nonneg_left ?_ hcos
    exact cos_le_cos_of_nonneg_of_le_pi (hnonneg _ (abs_nonneg _)) (hpi _ (by linarith))
      (ofDegrees_mono hle)
  · refine mul_le_mul_of_nonneg_left ?_ hcos
    exact cos_le_cos_of_nonneg_of_le_pi (hnonneg _ (le_max_left _ _)) (hpi _ (by linarith))
      (ofDegrees_mono hge)

private theorem mostShrinking_pos (hlat : |p.lat.toReal| ≤ 80) : 0 < p.mostShrinking := by
  refine mul_pos (cos_pos_of_abs_le hlat) (cos_pos_of_mem_Ioo ⟨?_, ?_⟩)
  · rw [ofDegrees]
    nlinarith [pi_pos, abs_nonneg p.lat.toReal]
  · rw [ofDegrees]
    nlinarith [pi_pos]

private theorem stretch_nonneg (hlat : |p.lat.toReal| ≤ 80) : 0 ≤ p.stretch := by
  have hself := p.isWithinDegree_position
  have hleast := (shrinking_mem hlat hself).1.trans (shrinking_mem hlat hself).2
  have hpos := mostShrinking_pos hlat
  exact div_nonneg (by linarith) (by positivity)

/-- At any latitude but the highest the chord to the foot is at most so many times longer. -/
theorem chordSq_le_stretch (hlat : |p.lat.toReal| ≤ 80) (hf : f.IsWithinDegree p)
    (hq : q.IsWithinDegree p) (hfoot : f.inner p.position q ≤ 0) :
    p.chordSq f ≤ (1.0001 * p.stretch) ^ 2 * p.chordSq q := by
  have hx' := abs_ofDegrees_le hq.1
  have hy' := abs_ofDegrees_le hq.2
  have hshrink := (shrinking_mem hlat hq).1
  rw [ofDegrees_step f.x.toReal] at hx'
  rw [ofDegrees_step f.y.toReal] at hy' hshrink
  have hpos := mostShrinking_pos hlat
  obtain ⟨hmost, hleast⟩ := shrinking_mem hlat hf
  rw [chordSq, chordSq, ofDegrees_step f.x.toReal q.x.toReal, ofDegrees_step f.y.toReal q.y.toReal,
    stretch, ← two_mul]
  exact Sphere.halfChordSq_le_of_bounds hx' hy' (nonneg_of_foot hfoot) hpos (hmost.trans hleast)
    (hpos.le.trans hmost) hleast hshrink

end Foot

end LatLng

/-! ### Lines -/

/-- The distance to a line of two positions or more is that to one of its places, and at most that
to the foot on each of its segments. -/
theorem exists_lineMeters_eq {line : List (Position Exact)} (hline : 2 ≤ line.length)
    (p : LatLng Exact) :
    ∃ d, lineMeters? line p = some d ∧ (∃ q ∈ linePoints line, p.haversine q.latLng = d) ∧
      ∀ s ∈ segments line, d.toReal ≤ (p.haversine (s.closest p.position).latLng).toReal := by
  have hleast := isLeastOf_leastOf
    ((segments line).map fun s => p.haversine (s.closest p.position).latLng)
  obtain ⟨d, hd⟩ : ∃ d, lineMeters? line p = some d := by
    match line with
    | a :: b :: rest => exact ⟨_, rfl⟩
  rw [← lineMeters?, hd] at hleast
  refine ⟨d, hd, ?_, fun s hs => hleast.2 ⟨_, List.mem_map_of_mem hs, rfl⟩⟩
  obtain ⟨s, hs, heq⟩ := List.mem_map.mp (Scalar.mem_of_leastOf hd)
  exact ⟨_, .inr ⟨s, hs, (s.closest_spec p.position).1⟩, heq⟩

/-- Places of such a segment have one coordinate in common. -/
private theorem Segment.IsAxial.eq_or_eq {s : Segment Exact} (h : s.IsAxial) {f q : Position Exact}
    (hf : f ∈ s.points) (hq : q ∈ s.points) : f.x = q.x ∨ f.y = q.y := by
  obtain ⟨t, -, rfl⟩ := hf
  obtain ⟨u, -, rfl⟩ := hq
  refine h.imp (fun h => ?_) fun h => ?_
  · simp [partway, h]
  · simp [partway, h]

open LatLng in /-- How near the distance to a line is. The line has two positions or more, all
within a degree of the point, which is not near a pole. The distance is that to a place of the line.
No place of the line is nearer than this by more than a factor that depends on the latitude; near
the equator, and where the line runs along a parallel or a meridian, the factor is at most 1.001, so
that a line within some distance is found within 1.001 times this distance. -/
theorem lineMeters_accuracy {line : List (Position Exact)} {p : LatLng Exact}
    (hline : 2 ≤ line.length) (hlat : |p.lat.toReal| ≤ 80)
    (hnear : ∀ v ∈ line, v.IsWithinDegree p) :
    ∃ d, lineMeters? line p = some d ∧ (∃ q ∈ linePoints line, p.haversine q.latLng = d) ∧
      ∀ s ∈ segments line, ∀ q ∈ s.points,
        d.toReal ≤ 1.0003 * p.stretch * (p.haversine q.latLng).toReal ∧
        (|p.lat.toReal| ≤ 15 ∨ s.IsAxial →
          d.toReal ≤ 1.001 * (p.haversine q.latLng).toReal ∧
          ∀ meters : Exact, p.haversine q.latLng ≤ meters →
            (Geometry.lineString line).isWithin p (⟨1.001⟩ * meters) = true) := by
  obtain ⟨d, hd, hplace, hle⟩ := exists_lineMeters_eq hline p
  refine ⟨d, hd, hplace, fun s hs q hq => ?_⟩
  obtain ⟨hstart, hstop⟩ := mem_of_mem_segments hs
  obtain ⟨hfoot, hinner⟩ := s.closest_spec p.position
  have hdegree := fun v (hv : v ∈ s.points) =>
    Segment.isWithinDegree (hnear _ hstart) (hnear _ hstop) hv
  have hmeters := haversine_nonneg p q.latLng
  -- In general the stretch bounds the error; near the equator and along the axes it is small
  -- enough for the tolerance.
  constructor
  · have hstretch := stretch_nonneg hlat
    have hchord := chordSq_le_stretch hlat (hdegree _ hfoot) (hdegree _ hq) (hinner q hq)
    have hfar := haversine_le_of_chordSq_le (by positivity) hlat (hdegree _ hfoot) hchord
    nlinarith [hle s hs, mul_nonneg hstretch hmeters]
  · intro h
    have hchord := chordSq_le hlat (hdegree _ hfoot) (hdegree _ hq) (hinner q hq)
      (h.imp_right fun haxial => haxial.eq_or_eq hfoot hq)
    have hfactor : p.chordSq (s.closest p.position) ≤ 1.00085 ^ 2 * p.chordSq q := by
      linarith [p.chordSq_nonneg q]
    have hfar := haversine_le_of_chordSq_le (by norm_num) hlat (hdegree _ hfoot) hfactor
    have haccurate : d.toReal ≤ 1.001 * (p.haversine q.latLng).toReal := by
      linarith [hle s hs]
    refine ⟨haccurate, fun meters hm => ?_⟩
    rw [Exact.le_def] at hm
    simp only [Geometry.isWithin, hd, Option.any_some, decide_eq_true_eq, Exact.le_def,
      Exact.toReal_mul]
    linarith

/-- On a line along a parallel the distance is accurate at any latitude. -/
theorem lineMeters_accuracy_parallel :
    |(⟨⟨55.96⟩, ⟨-3.19⟩⟩ : LatLng Exact).lat.toReal| ≤ 80 ∧
      (∀ v ∈ [(⟨⟨-3.20⟩, ⟨55.95⟩⟩ : Position Exact), ⟨⟨-3.18⟩, ⟨55.95⟩⟩],
        v.IsWithinDegree ⟨⟨55.96⟩, ⟨-3.19⟩⟩) ∧
      ∃ d, lineMeters? [(⟨⟨-3.20⟩, ⟨55.95⟩⟩ : Position Exact), ⟨⟨-3.18⟩, ⟨55.95⟩⟩]
          ⟨⟨55.96⟩, ⟨-3.19⟩⟩ = some d ∧
        d.toReal ≤
          1.001 * ((⟨⟨55.96⟩, ⟨-3.19⟩⟩ : LatLng Exact).haversine ⟨⟨55.95⟩, ⟨-3.19⟩⟩).toReal := by
  have hlat : |(⟨⟨55.96⟩, ⟨-3.19⟩⟩ : LatLng Exact).lat.toReal| ≤ 80 := by norm_num [abs_le]
  have hnear : ∀ v ∈ [(⟨⟨-3.20⟩, ⟨55.95⟩⟩ : Position Exact), ⟨⟨-3.18⟩, ⟨55.95⟩⟩],
      v.IsWithinDegree ⟨⟨55.96⟩, ⟨-3.19⟩⟩ := by
    rintro v (_ | ⟨_, _ | ⟨_, ⟨⟩⟩⟩) <;> norm_num [Position.IsWithinDegree, abs_le]
  have hplace : (⟨⟨-3.19⟩, ⟨55.95⟩⟩ : Position Exact) ∈
      (⟨⟨⟨-3.20⟩, ⟨55.95⟩⟩, ⟨⟨-3.18⟩, ⟨55.95⟩⟩⟩ : Segment Exact).points :=
    Segment.mem_points_of (t := 0.5) ⟨by norm_num, by norm_num⟩ (by norm_num) (by norm_num)
  obtain ⟨d, hd, -, haccurate⟩ := lineMeters_accuracy (by simp) hlat hnear
  exact ⟨hlat, hnear, d, hd, ((haccurate _ (.head _) _ hplace).2 (.inr (.inr rfl))).1⟩

/-! ### Lines across a corner -/

namespace LatLng

variable {p : LatLng Exact}

/-- A segment across the corner to the north and west of a point, a fiftieth of a degree on each
side. -/
noncomputable def corner (p : LatLng Exact) : Segment Exact where
  start := ⟨⟨p.lng.toReal - 0.02⟩, p.lat⟩
  stop := ⟨p.lng, ⟨p.lat.toReal + 0.02⟩⟩

/-- Where the segment has got to, as seen from the point. -/
private theorem corner_partway (p : LatLng Exact) (t : ℝ) :
    (p.corner.partway t).x.toReal - p.lng.toReal = -(0.02 * (1 - t)) ∧
      (p.corner.partway t).y.toReal - p.lat.toReal = 0.02 * t := by
  simp only [Segment.partway, corner]
  constructor <;> ring

/-- The foot is the middle of the segment. -/
private theorem closest_corner (p : LatLng Exact) :
    p.corner.closest p.position = p.corner.partway 0.5 := by
  have hfoot : p.corner.start.inner p.position p.corner.stop = 0.0004 := by
    simp only [Position.inner, corner, position]
    ring
  have hlength : p.corner.start.inner p.corner.stop p.corner.stop = 0.0008 := by
    simp only [Position.inner, corner]
    ring
  obtain ⟨hzero, -⟩ | ⟨τ, hτ, heq⟩ := p.corner.closest_eq p.position
  · rw [hlength] at hzero
    norm_num at hzero
  · rw [hfoot, hlength] at hτ
    have hhalf : τ.toReal = 0.5 := by linarith
    have hlow : ¬τ < Scalar.zero := by
      rw [Exact.lt_def, Exact.toReal_zero, hhalf]
      norm_num
    have hhigh : ¬Scalar.one < τ := by
      rw [Exact.lt_def, Exact.toReal_one, hhalf]
      norm_num
    rw [heq, Scalar.clampUnit, if_neg hlow, if_neg hhigh, hhalf]

/-- From the eighteenth degree of latitude on, the parallels are short enough. -/
theorem cos_sq_le (hlat : 18 ≤ |p.lat.toReal|) (hlat' : |p.lat.toReal| ≤ 80) :
    cos (ofDegrees p.lat.toReal) ^ 2 ≤ 0.90452 := by
  have hmono : cos (ofDegrees p.lat.toReal) ≤ cos (π / 10) := by
    have htenth : π / 10 = ofDegrees 18 := by
      rw [ofDegrees]
      ring
    rw [← cos_abs, abs_ofDegrees, htenth]
    refine cos_le_cos_of_nonneg_of_le_pi ?_ ?_ (ofDegrees_mono hlat)
    · rw [ofDegrees]
      positivity
    · rw [ofDegrees]
      nlinarith [pi_pos]
  have hfifth : cos (π / 10) ^ 2 = 1 / 2 + cos (π / 5) / 2 := by
    rw [cos_sq]
    ring_nf
  have hroot : √5 ≤ 2.23607 := by
    rw [sqrt_le_left (by norm_num)]
    norm_num
  rw [cos_pi_div_five] at hfifth
  have hsq := pow_le_pow_left₀ (cos_pos_of_abs_le hlat').le hmono 2
  linarith

private theorem isWithinDegree_corner (p : LatLng Exact) {t : ℝ} (ht : t ∈ Set.Icc (0 : ℝ) 1) :
    (p.corner.partway t).IsWithinDegree p := by
  obtain ⟨hx, hy⟩ := p.corner_partway t
  obtain ⟨h₀, h₁⟩ := ht
  rw [Position.IsWithinDegree, hx, hy, abs_le, abs_le]
  refine ⟨⟨?_, ?_⟩, ?_, ?_⟩ <;> linarith

/-- How much lengths along the parallels shrink where the line passes. -/
theorem shrinking_corner (hlat : 18 ≤ |p.lat.toReal|) (hlat' : |p.lat.toReal| ≤ 80) {k : ℝ}
    (hk : 0 < k) (hk' : k ≤ 0.0175) :
    cos (ofDegrees p.lat.toReal) * cos (ofDegrees p.lat.toReal + 0.02 * 0.5 * k) ≤ 0.9047 ∧
      cos (ofDegrees p.lat.toReal) * cos (ofDegrees p.lat.toReal + 0.02 * 0.475 * k) ≤
        cos (ofDegrees p.lat.toReal) * cos (ofDegrees p.lat.toReal + 0.02 * 0.5 * k) +
          0.00001 := by
  have hcos := (cos_pos_of_abs_le hlat').le
  have hsq := cos_sq_le hlat hlat'
  have hfoot := Sphere.cos_mul_cos_le hcos (0.02 * 0.5 * k) 0
  have hstep := Sphere.cos_mul_cos_le hcos (0.02 * 0.475 * k) (0.02 * 0.5 * k)
  rw [add_zero, sub_zero, ← sq, abs_of_pos (by linarith)] at hfoot
  rw [abs_sub_comm, abs_of_pos (by linarith)] at hstep
  constructor <;> linarith

/-- The chord to a place of the segment. -/
private theorem chordSq_corner (p : LatLng Exact) (t : ℝ) :
    p.chordSq (p.corner.partway t) = Sphere.halfChordSq (ofDegrees p.lat.toReal)
      (ofDegrees p.lat.toReal + 0.02 * t * ofDegrees 1) (-(0.02 * (1 - t)) * ofDegrees 1) := by
  obtain ⟨hx, hy⟩ := p.corner_partway t
  rw [chordSq, hx, hy, ofDegrees_eq_mul (0.02 * t), ofDegrees_eq_mul (-_)]

private theorem shrinking_corner_nonneg (hlat : |p.lat.toReal| ≤ 80) {t : ℝ}
    (ht : t ∈ Set.Icc (0 : ℝ) 1) :
    0 ≤ cos (ofDegrees p.lat.toReal) *
      cos (ofDegrees p.lat.toReal + 0.02 * t * ofDegrees 1) := by
  have hcos := tenth_le_cos hlat (isWithinDegree_corner p ht)
  rw [(p.corner_partway t).2, ofDegrees_eq_mul (0.02 * t)] at hcos
  exact mul_nonneg (cos_pos_of_abs_le hlat).le (by linarith)

/-- On such a segment the chord to the foot is much longer than that to another place. -/
theorem lt_chordSq_corner (hlat : 18 ≤ |p.lat.toReal|) (hlat' : |p.lat.toReal| ≤ 80) :
    (1.0001 * 1.001) ^ 2 * p.chordSq (p.corner.partway 0.475) <
      p.chordSq (p.corner.partway 0.5) := by
  have hdeg : 0 < ofDegrees 1 ∧ ofDegrees 1 ≤ 0.0175 := by
    rw [ofDegrees]
    constructor <;> linarith [pi_pos, pi_lt_d2]
  have hnonneg := shrinking_corner_nonneg hlat' (t := 0.5) ⟨by norm_num, by norm_num⟩
  have hnonneg' := shrinking_corner_nonneg hlat' (t := 0.475) ⟨by norm_num, by norm_num⟩
  obtain ⟨hk, hk'⟩ := hdeg
  obtain ⟨hfoot, hstep⟩ := shrinking_corner hlat hlat' hk hk'
  have hlow := Sphere.le_four_mul_halfChordSq (Δ := -(0.02 * (1 - 0.5)) * ofDegrees 1) hnonneg
    (by rw [add_sub_cancel_left, abs_le]; constructor <;> linarith)
    (by rw [abs_le]; constructor <;> linarith)
  have hup := Sphere.four_mul_halfChordSq_le (Δ := -(0.02 * (1 - 0.475)) * ofDegrees 1) hnonneg'
  rw [add_sub_cancel_left] at hlow hup
  rw [chordSq_corner, chordSq_corner]
  -- what is left compares two polynomials in the length of a degree and the shortening at the foot
  generalize cos (ofDegrees p.lat.toReal) * cos (_ + 0.02 * 0.5 * ofDegrees 1) = m
    at hlow hfoot hstep
  generalize cos (ofDegrees p.lat.toReal) * cos (_ + 0.02 * 0.475 * ofDegrees 1) = μ at hup hstep
  have hsq : 0 < ofDegrees 1 ^ 2 := pow_pos hk 2
  have hμ := mul_le_mul_of_nonneg_right hstep hsq.le
  have hm := mul_le_mul_of_nonneg_right hfoot hsq.le
  linarith

/-- So the foot is too far by more than a thousandth. -/
theorem haversine_corner (hlat : 18 ≤ |p.lat.toReal|) (hlat' : |p.lat.toReal| ≤ 80) :
    1.001 * (p.haversine (p.corner.partway 0.475).latLng).toReal <
      (p.haversine (p.corner.partway 0.5).latLng).toReal := by
  have hdegree := isWithinDegree_corner p (t := 0.475) ⟨by norm_num, by norm_num⟩
  refine not_le.mp fun hle => (lt_chordSq_corner hlat hlat').not_ge ?_
  exact chordSq_le_of_haversine_le (by norm_num) hlat' hdegree hle

/-- So a line that passes at some distance can be missed within 1.001 times this distance. -/
theorem isWithin_corner (hlat : 18 ≤ |p.lat.toReal|) (hlat' : |p.lat.toReal| ≤ 80) :
    ∃ d, lineMeters? [p.corner.start, p.corner.stop] p = some d ∧
      1.001 * (p.haversine (p.corner.partway 0.475).latLng).toReal < d.toReal ∧
      (Geometry.lineString [p.corner.start, p.corner.stop]).isWithin p
        (⟨1.001⟩ * p.haversine (p.corner.partway 0.475).latLng) = false := by
  have hfar := haversine_corner hlat hlat'
  have hd : lineMeters? [p.corner.start, p.corner.stop] p =
      some (p.haversine (p.corner.partway 0.5).latLng) := by
    rw [← closest_corner]
    rfl
  refine ⟨_, hd, hfar, ?_⟩
  rw [Geometry.isWithin, hd, Option.any_some, decide_eq_false_iff_not, Exact.le_def,
    Exact.toReal_mul, not_le]
  exact hfar

end LatLng

/-- At sixty degrees of latitude, a line of two positions nearby that passes at some distance is
missed within 1.001 times this distance. -/
theorem not_lineMeters_accuracy :
    |(⟨⟨60⟩, ⟨0⟩⟩ : LatLng Exact).lat.toReal| ≤ 80 ∧
      (∀ v ∈ [(⟨⟨-0.02⟩, ⟨60⟩⟩ : Position Exact), ⟨⟨0⟩, ⟨60.02⟩⟩],
        v.IsWithinDegree ⟨⟨60⟩, ⟨0⟩⟩) ∧
      (⟨⟨-0.0105⟩, ⟨60.0095⟩⟩ : Position Exact) ∈
        (⟨⟨⟨-0.02⟩, ⟨60⟩⟩, ⟨⟨0⟩, ⟨60.02⟩⟩⟩ : Segment Exact).points ∧
      ∃ d, lineMeters? [(⟨⟨-0.02⟩, ⟨60⟩⟩ : Position Exact), ⟨⟨0⟩, ⟨60.02⟩⟩] ⟨⟨60⟩, ⟨0⟩⟩ = some d ∧
        1.001 * ((⟨⟨60⟩, ⟨0⟩⟩ : LatLng Exact).haversine ⟨⟨60.0095⟩, ⟨-0.0105⟩⟩).toReal < d.toReal ∧
        (Geometry.lineString [(⟨⟨-0.02⟩, ⟨60⟩⟩ : Position Exact), ⟨⟨0⟩, ⟨60.02⟩⟩]).isWithin
          ⟨⟨60⟩, ⟨0⟩⟩
          (⟨1.001⟩ * (⟨⟨60⟩, ⟨0⟩⟩ : LatLng Exact).haversine ⟨⟨60.0095⟩, ⟨-0.0105⟩⟩) = false := by
  have hstart : (⟨⟨60⟩, ⟨0⟩⟩ : LatLng Exact).corner.start = ⟨⟨-0.02⟩, ⟨60⟩⟩ :=
    Position.eq_of_toReal (by norm_num [LatLng.corner]) (by norm_num [LatLng.corner])
  have hstop : (⟨⟨60⟩, ⟨0⟩⟩ : LatLng Exact).corner.stop = ⟨⟨0⟩, ⟨60.02⟩⟩ :=
    Position.eq_of_toReal (by norm_num [LatLng.corner]) (by norm_num [LatLng.corner])
  have hplace : (⟨⟨60⟩, ⟨0⟩⟩ : LatLng Exact).corner.partway 0.475 = ⟨⟨-0.0105⟩, ⟨60.0095⟩⟩ :=
    Position.eq_of_toReal (by norm_num [Segment.partway, LatLng.corner])
      (by norm_num [Segment.partway, LatLng.corner])
  have hmiss := LatLng.isWithin_corner (p := ⟨⟨60⟩, ⟨0⟩⟩) (by norm_num) (by norm_num)
  rw [hstart, hstop, hplace] at hmiss
  refine ⟨by norm_num, ?_, ⟨0.475, ⟨by norm_num, by norm_num⟩, ?_⟩, hmiss⟩
  · rintro v (_ | ⟨_, _ | ⟨_, ⟨⟩⟩⟩) <;> norm_num [Position.IsWithinDegree, abs_le]
  · rw [← hplace, ← hstart, ← hstop]

end TransitQuery
