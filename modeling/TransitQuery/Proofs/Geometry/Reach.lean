import TransitQuery.Proofs.Geometry.Sphere

/-!
# How far a disc reaches

The places within a distance of a given one, in coordinates: how far north or south they get from
it (`LatLng.isGreatest_northReach`) and how far east or west (`LatLng.isGreatest_eastReach`). The
first is an arc of a meridian, unless that is longer than the way to the farther pole. The second
is the difference of longitude of a meridian that touches the disc. But where the disc holds a pole
or meets the antimeridian, places with all longitudes, or with one on the far side of the map, are
near.

Here the angles of `Sphere` become degrees of latitude and longitude, and its caps become discs
around a place with a radius in meters. A reach is the greatest difference of a coordinate between
a place of the disc and the middle of it, as `IsGreatest` says: no place of the disc is farther
off, and one of them is as far.

Places are given by coordinates within their range (`LatLng.IsOnGlobe`), and the same place can
have several of them: at a pole any longitude will do, and the antimeridian is both the 180th
degree to the east and the one to the west. So the reach to the east is that of the touching
meridian only for a disc that is inland (`LatLng.IsInland`). For any other disc,
`LatLng.exists_far_mem_disc` and `LatLng.pole_mem_disc` give a place of it whose longitude is as
far off as the map goes.
-/

namespace TransitQuery

open Real

/-- An angle in degrees. -/
noncomputable def degrees (angle : ℝ) : ℝ :=
  angle * (180 / π)

/-- The angle of a number of degrees. -/
noncomputable def ofDegrees (x : ℝ) : ℝ :=
  x * (π / 180)

/-- To degrees and back, an angle stays as it is. -/
private theorem ofDegrees_degrees (x : ℝ) : ofDegrees (degrees x) = x := by
  rw [degrees, ofDegrees]
  field_simp

/-- An inequality in degrees is one of angles. -/
private theorem degrees_le_iff {x y : ℝ} : degrees x ≤ y ↔ x ≤ ofDegrees y := by
  rw [degrees, ofDegrees, mul_div_assoc', div_le_iff₀ pi_pos, mul_div_assoc',
    le_div_iff₀ (by norm_num : (0 : ℝ) < 180)]

private theorem le_degrees_iff {x y : ℝ} : x ≤ degrees y ↔ ofDegrees x ≤ y := by
  rw [degrees, ofDegrees, mul_div_assoc', le_div_iff₀ pi_pos, mul_div_assoc',
    div_le_iff₀ (by norm_num : (0 : ℝ) < 180)]

/-- Differences may be taken in degrees or in angles. -/
private theorem ofDegrees_sub (x y : ℝ) : ofDegrees (x - y) = ofDegrees x - ofDegrees y := by
  rw [ofDegrees, ofDegrees, ofDegrees, sub_mul]

theorem ofDegrees_mono {x y : ℝ} (h : x ≤ y) : ofDegrees x ≤ ofDegrees y :=
  mul_le_mul_of_nonneg_right h (by positivity)

@[simp]
theorem ofDegrees_zero : ofDegrees 0 = 0 :=
  zero_mul _

@[simp]
theorem ofDegrees_ninety : ofDegrees 90 = π / 2 := by
  rw [ofDegrees]
  ring

theorem abs_ofDegrees (x : ℝ) : |ofDegrees x| = ofDegrees |x| := by
  rw [ofDegrees, abs_mul, abs_of_pos (by positivity : 0 < π / 180), ofDegrees]

private theorem abs_degrees (x : ℝ) : |degrees x| = degrees |x| := by
  rw [degrees, abs_mul, abs_of_pos (by positivity : 0 < 180 / π), degrees]

namespace LatLng

/-- The coordinates are those of a place. -/
def IsOnGlobe (p : LatLng Exact) : Prop :=
  |p.lat.toReal| ≤ 90 ∧ |p.lng.toReal| ≤ 180

/-- The angle of an arc with a length in meters. -/
noncomputable def arc (distance : ℝ) : ℝ :=
  distance / 6371000

/-- How far in degrees places within a distance are to the north or south. -/
noncomputable def northReach (p : LatLng Exact) (distance : ℝ) : ℝ :=
  min (degrees (arc distance)) (90 + |p.lat.toReal|)

/-- The difference of longitude of a meridian that touches the disc with a radius. -/
noncomputable def eastSpan (p : LatLng Exact) (distance : ℝ) : ℝ :=
  degrees (Sphere.span (ofDegrees p.lat.toReal) (arc distance))

/-- The disc with a radius holds no pole and does not meet the antimeridian. -/
def IsInland (p : LatLng Exact) (distance : ℝ) : Prop :=
  |p.lat.toReal| + degrees (arc distance) < 90 ∧ |p.lng.toReal| + p.eastSpan distance < 180

open scoped Classical in
/-- How far in degrees places within a distance are to the east or west. -/
noncomputable def eastReach (p : LatLng Exact) (distance : ℝ) : ℝ :=
  if p.IsInland distance then p.eastSpan distance else 180 + |p.lng.toReal|

/-- The places within a distance. -/
def disc (p : LatLng Exact) (distance : ℝ) : Set (LatLng Exact) :=
  {q | q.IsOnGlobe ∧ (p.haversine q).toReal ≤ distance}

variable {p q : LatLng Exact} {distance : ℝ}

/-- A place is within a distance if the angle to it is at most that of the distance. -/
theorem haversine_le_iff : (p.haversine q).toReal ≤ distance ↔
    Sphere.angle (ofDegrees p.lat.toReal) (ofDegrees q.lat.toReal)
      (ofDegrees (q.lng.toReal - p.lng.toReal)) ≤ arc distance := by
  rw [haversine_eq, arc, le_div_iff₀ (by norm_num : (0 : ℝ) < 6371000), mul_comm]
  rfl

/-- The latitude of a place is at most a right angle. -/
theorem abs_ofDegrees_lat_le (h : p.IsOnGlobe) : |ofDegrees p.lat.toReal| ≤ π / 2 := by
  rw [abs_ofDegrees, ← ofDegrees_ninety]
  exact ofDegrees_mono h.1

theorem arc_nonneg (h : 0 ≤ distance) : 0 ≤ arc distance :=
  div_nonneg h (by norm_num)

/-- Some place within the distance is as far to the south, or to the north from the southern
hemisphere, and none is farther. -/
theorem isGreatest_northReach (hp : p.IsOnGlobe) (h₀ : 0 ≤ distance) :
    IsGreatest ((fun q : LatLng Exact => |q.lat.toReal - p.lat.toReal|) '' p.disc distance)
      (p.northReach distance) := by
  have hreach : 0 ≤ p.northReach distance :=
    le_min (le_degrees_iff.mpr (by simpa [ofDegrees] using arc_nonneg h₀)) (by positivity)
  have hpole : p.northReach distance ≤ 90 + |p.lat.toReal| := min_le_right _ _
  constructor
  · -- the place is on the same meridian, towards the farther pole
    obtain ⟨lat, hlat, hdiff⟩ : ∃ lat : ℝ, |lat| ≤ 90 ∧
        |lat - p.lat.toReal| = p.northReach distance := by
      rcases le_total 0 p.lat.toReal with hsign | hsign
      · rw [abs_of_nonneg hsign] at hpole
        have hle := (le_abs_self _).trans hp.1
        refine ⟨p.lat.toReal - p.northReach distance, ?_, ?_⟩
        · exact abs_le.mpr ⟨by linarith, by linarith⟩
        · rw [sub_sub_cancel_left, abs_neg, abs_of_nonneg hreach]
      · rw [abs_of_nonpos hsign] at hpole
        have hle := (neg_le_abs _).trans hp.1
        refine ⟨p.lat.toReal + p.northReach distance, ?_, ?_⟩
        · exact abs_le.mpr ⟨by linarith, by linarith⟩
        · rw [add_sub_cancel_left, abs_of_nonneg hreach]
    refine ⟨⟨⟨lat⟩, p.lng⟩, ⟨⟨hlat, hp.2⟩, haversine_le_iff.mpr ?_⟩, hdiff⟩
    have hangle : |ofDegrees lat - ofDegrees p.lat.toReal| = ofDegrees (p.northReach distance) := by
      rw [← hdiff, ← abs_ofDegrees, ofDegrees_sub]
    have hle : ofDegrees (p.northReach distance) ≤ arc distance :=
      le_degrees_iff.mp (min_le_left _ _)
    have hhalf : ofDegrees (p.northReach distance) ≤ π := by
      rw [ofDegrees]
      nlinarith [hp.1, pi_pos]
    dsimp only
    rw [sub_self, ofDegrees_zero, Sphere.angle_zero (by rwa [hangle]), hangle]
    exact hle
  · -- An angle is no smaller than the difference of latitudes in it, and no latitude is beyond the
    -- other pole.
    rintro _ ⟨q, ⟨hq, hdistance⟩, rfl⟩
    refine le_min ?_ ?_
    · have hangle := Sphere.abs_sub_le_angle (abs_ofDegrees_lat_le hp) (abs_ofDegrees_lat_le hq)
        (ofDegrees (q.lng.toReal - p.lng.toReal))
      rw [le_degrees_iff, ← abs_ofDegrees, ofDegrees_sub]
      exact hangle.trans (haversine_le_iff.mp hdistance)
    · have hsub := abs_sub q.lat.toReal p.lat.toReal
      have hlat := hq.1
      dsimp only
      linarith

/-! ### East and west -/

/-- No longitude is farther off than the far side of the map. -/
theorem eastReach_le : p.eastReach distance ≤ 180 + |p.lng.toReal| := by
  unfold eastReach
  split
  · rename_i h
    linarith [h.2, abs_nonneg p.lng.toReal]
  · exact le_rfl

/-- A disc that holds no pole stays below a right angle. -/
private theorem abs_lat_add_arc_lt (h : |p.lat.toReal| + degrees (arc distance) < 90) :
    |ofDegrees p.lat.toReal| + arc distance < π / 2 := by
  have harc : arc distance < ofDegrees (90 - |p.lat.toReal|) := by
    rw [← not_le, ← le_degrees_iff, not_le]
    linarith
  rw [ofDegrees_sub, ofDegrees_ninety] at harc
  rw [abs_ofDegrees]
  linarith

/-- Where the disc holds no pole, longitudes differ by no more than the span, or by a full turn
less that. -/
theorem abs_sub_lng_le (hp : p.IsOnGlobe) (h₀ : 0 ≤ distance)
    (hcap : |p.lat.toReal| + degrees (arc distance) < 90) (hq : q ∈ p.disc distance) :
    |q.lng.toReal - p.lng.toReal| ≤ p.eastSpan distance ∨
      360 - p.eastSpan distance ≤ |q.lng.toReal - p.lng.toReal| := by
  obtain ⟨hcos, hsin⟩ := Sphere.abs_sin_le_of_angle_le (arc_nonneg h₀) (abs_lat_add_arc_lt hcap)
    (abs_ofDegrees_lat_le hq.1) (haversine_le_iff.mp hq.2)
  have hturn : |ofDegrees (q.lng.toReal - p.lng.toReal)| ≤ 2 * π := by
    have hsub := abs_sub q.lng.toReal p.lng.toReal
    rw [abs_ofDegrees, ofDegrees]
    nlinarith [hp.2, hq.1.2, pi_pos]
  rw [eastSpan, Sphere.span]
  refine (Sphere.abs_le_or_le_abs hturn hcos hsin).imp (fun h => ?_) fun h => ?_
  · rwa [le_degrees_iff, ← abs_ofDegrees]
  · rw [sub_le_comm, le_degrees_iff]
    rw [abs_ofDegrees] at h
    have hsub : ofDegrees (360 - |q.lng.toReal - p.lng.toReal|) =
        2 * π - ofDegrees |q.lng.toReal - p.lng.toReal| := by
      rw [ofDegrees, ofDegrees]
      ring
    linarith

private theorem eastSpan_nonneg (h₀ : 0 ≤ distance)
    (hcap : |p.lat.toReal| + degrees (arc distance) < 90) : 0 ≤ p.eastSpan distance := by
  have hφ := abs_lat_add_arc_lt hcap
  have hsin : 0 ≤ sin (arc distance) :=
    sin_nonneg_of_nonneg_of_le_pi (arc_nonneg h₀)
      (by linarith [abs_nonneg (ofDegrees p.lat.toReal), pi_pos])
  rw [eastSpan, le_degrees_iff, ofDegrees_zero, Sphere.span, arcsin_nonneg]
  exact div_nonneg hsin (hsin.trans (Sphere.sin_lt_cos (arc_nonneg h₀) hφ).le)

/-- The place where a meridian touches the disc is in the disc, and so are those at its latitude
that are closer. -/
theorem contact_mem_disc (hp : p.IsOnGlobe) (h₀ : 0 ≤ distance)
    (hcap : |p.lat.toReal| + degrees (arc distance) < 90) {lng : ℝ} (hlng : |lng| ≤ 180)
    (hcos : cos (ofDegrees (p.eastSpan distance)) ≤ cos (ofDegrees (lng - p.lng.toReal))) :
    (⟨⟨degrees (Sphere.contact (ofDegrees p.lat.toReal) (arc distance))⟩, ⟨lng⟩⟩ : LatLng Exact) ∈
      p.disc distance := by
  have hφ := abs_lat_add_arc_lt hcap
  have hcontact := Sphere.abs_contact_le (ofDegrees p.lat.toReal) (arc distance)
  have hlat : |degrees (Sphere.contact (ofDegrees p.lat.toReal) (arc distance))| ≤ 90 := by
    rwa [abs_degrees, degrees_le_iff, ofDegrees_ninety]
  refine ⟨⟨hlat, hlng⟩, haversine_le_iff.mpr ?_⟩
  dsimp only
  rw [ofDegrees_degrees, Sphere.angle_le_iff (arc_nonneg h₀)
    (by linarith [abs_nonneg (ofDegrees p.lat.toReal), pi_pos]),
    ← Sphere.cosAngle_contact (arc_nonneg h₀) hφ]
  rw [eastSpan, ofDegrees_degrees] at hcos
  exact Sphere.cosAngle_mono (abs_ofDegrees_lat_le hp) hcontact hcos

/-- A place at the pole is in the disc that holds the pole, whatever its longitude. -/
theorem pole_mem_disc (hp : p.IsOnGlobe)
    (hcap : 90 ≤ |p.lat.toReal| + degrees (arc distance)) {lng : ℝ} (hlng : |lng| ≤ 180) :
    ∃ lat, (⟨lat, ⟨lng⟩⟩ : LatLng Exact) ∈ p.disc distance := by
  have harc : π / 2 - ofDegrees |p.lat.toReal| ≤ arc distance := by
    rw [← ofDegrees_ninety, ← ofDegrees_sub, ← le_degrees_iff]
    linarith
  rcases le_total 0 p.lat.toReal with hsign | hsign
  · refine ⟨⟨90⟩, ⟨by norm_num, hlng⟩, haversine_le_iff.mpr ?_⟩
    dsimp only
    rw [ofDegrees_ninety, Sphere.angle_pole (abs_ofDegrees_lat_le hp)]
    rwa [abs_of_nonneg hsign] at harc
  · refine ⟨⟨-90⟩, ⟨by norm_num, hlng⟩, haversine_le_iff.mpr ?_⟩
    have hneg : ∀ x : ℝ, ofDegrees (-x) = -ofDegrees x := fun x => neg_mul _ _
    dsimp only
    rw [hneg, ofDegrees_ninety, Sphere.angle_neg_pole (abs_ofDegrees_lat_le hp)]
    rwa [abs_of_nonpos hsign, hneg, sub_neg_eq_add] at harc

/-- A disc that is not inland has a place on the antimeridian, on the far side of the map. -/
theorem exists_far_mem_disc (hp : p.IsOnGlobe) (h₀ : 0 ≤ distance)
    (hinland : ¬p.IsInland distance) :
    ∃ q ∈ p.disc distance, |q.lng.toReal - p.lng.toReal| = 180 + |p.lng.toReal| := by
  obtain ⟨lng, hlng, hdiff⟩ : ∃ lng : ℝ, |lng| ≤ 180 ∧
      |lng - p.lng.toReal| = 180 + |p.lng.toReal| := by
    rcases le_total 0 p.lng.toReal with hsign | hsign
    · refine ⟨-180, by norm_num, ?_⟩
      rw [abs_of_nonneg hsign, abs_of_nonpos (by linarith)]
      ring
    · refine ⟨180, by norm_num, ?_⟩
      rw [abs_of_nonpos hsign, abs_of_nonneg (by linarith)]
      ring
  -- A disc without a pole spans the longitudes up to there; one with a pole has places on them
  -- all.
  by_cases hcap : |p.lat.toReal| + degrees (arc distance) < 90
  · refine ⟨_, contact_mem_disc hp h₀ hcap hlng ?_, hdiff⟩
    have hspan : 180 ≤ |p.lng.toReal| + p.eastSpan distance := by
      by_contra hlt
      exact hinland ⟨hcap, not_le.mp hlt⟩
    have hcos : cos (ofDegrees (lng - p.lng.toReal)) = cos (ofDegrees (180 - |p.lng.toReal|)) := by
      rw [← cos_abs, abs_ofDegrees, hdiff, ← cos_two_pi_sub]
      congr 1
      rw [ofDegrees, ofDegrees]
      ring
    rw [hcos]
    refine cos_le_cos_of_nonneg_of_le_pi ?_ ?_ (ofDegrees_mono (by linarith))
    · rw [← ofDegrees_zero]
      exact ofDegrees_mono (by linarith [hp.2])
    · rw [eastSpan, ofDegrees_degrees]
      linarith [Sphere.span_le (ofDegrees p.lat.toReal) (arc distance), pi_pos]
  · obtain ⟨lat, hpole⟩ := pole_mem_disc hp (not_lt.mp hcap) hlng
    exact ⟨_, hpole, hdiff⟩

/-- Some place within the distance is as far to the east or west, and none is farther. -/
theorem isGreatest_eastReach (hp : p.IsOnGlobe) (h₀ : 0 ≤ distance) :
    IsGreatest ((fun q : LatLng Exact => |q.lng.toReal - p.lng.toReal|) '' p.disc distance)
      (p.eastReach distance) := by
  constructor
  · by_cases hinland : p.IsInland distance
    · have hspan := eastSpan_nonneg h₀ hinland.1
      have hlng : |p.lng.toReal + p.eastSpan distance| ≤ 180 := by
        have hadd := abs_add_le p.lng.toReal (p.eastSpan distance)
        rw [abs_of_nonneg hspan] at hadd
        linarith [hinland.2]
      refine ⟨_, contact_mem_disc hp h₀ hinland.1 hlng (by rw [add_sub_cancel_left]), ?_⟩
      dsimp only
      rw [add_sub_cancel_left, abs_of_nonneg hspan, eastReach, if_pos hinland]
    · rw [eastReach, if_neg hinland]
      exact exists_far_mem_disc hp h₀ hinland
  · rintro _ ⟨q, hq, rfl⟩
    have hsub := abs_sub q.lng.toReal p.lng.toReal
    have hlng := hq.1.2
    dsimp only
    by_cases hinland : p.IsInland distance
    · rw [eastReach, if_pos hinland]
      rcases abs_sub_lng_le hp h₀ hinland.1 hq with hle | hturn
      · exact hle
      · linarith [hinland.2]
    · rw [eastReach, if_neg hinland]
      linarith

end LatLng

end TransitQuery
