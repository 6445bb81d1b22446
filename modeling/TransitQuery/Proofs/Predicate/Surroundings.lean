import Mathlib.Analysis.Real.Pi.Bounds
import TransitQuery.Proofs.Feature
import TransitQuery.Proofs.Geometry.Reach
import TransitQuery.Proofs.Predicate.Boxes

/-!
# What the box around a point finds

On the tier of boxes a row with a point is found if the box around the selected point holds it. The
box reaches so many meters in each direction, but counts 111320 meters to a degree, where the great
circle has 111195, and takes a degree of longitude to be as long everywhere as it is at the
selected point. So it is a little too small: it finds all points within a distance just when that
distance reaches no farther, north and east, than the box does (`LatLng.finds_iff`). All points
within the meters that the box was made from it finds only if there are none of them but the
selected point, or if it covers the globe (`LatLng.finds_own_iff`).

Over `Exact` the sides of the box are real numbers, `LatLng.northSide` and `LatLng.eastSide`, and
what the disc needs is given by its reach (`LatLng.northReach`, `LatLng.eastReach`). A row that
holds a point overlaps the box just if the point is in it, so the box finds all points of a disc if
it contains the disc, and for a box that means that its sides are beyond the reaches. The reach is
attained, hence the condition is necessary, too.

At the origin the numbers can be computed: with a box of a kilometer, all points within 998 meters
are found, and one at 999.6 meters is not.
-/

namespace TransitQuery

open Real

variable {R : Type} [Scalar R]

/-! ### Rows with a point -/

/-- A row whose geometry is a point, and whose box is that point. -/
structure Row.HoldsPoint (row : Row R) (field : String) (columns : BoxColumns) (q : LatLng R) :
    Prop where
  geometry_eq : row.geometry? field = some (.point q.position)
  minx_eq : row.number? columns.minx = some q.lng
  miny_eq : row.number? columns.miny = some q.lat
  maxx_eq : row.number? columns.maxx = some q.lng
  maxy_eq : row.number? columns.maxy = some q.lat

/-- A point in GeoJSON. -/
def LatLng.toGeoJson (q : LatLng R) : Json R :=
  .obj [("coordinates", .arr [.real q.lng, .real q.lat]), ("type", .str "Point")]

/-- A feature with a point. -/
def LatLng.toFeature (q : LatLng R) : Json R :=
  .obj [("geometry", q.toGeoJson), ("type", .str "Feature")]

/-- The value of a point is read as the point. -/
theorem Geometry.ofGeoJson_toGeoJson (q : LatLng R) :
    ofGeoJson q.toGeoJson = .ok (.point q.position) := by
  simp [LatLng.toGeoJson, ofGeoJson, Json.lookup, Json.string?, ofCoordinates, positionOf,
    coordinateItems, Json.items?, Json.number?, LatLng.position]
  rfl

/-- The box of such a feature is the point. -/
private theorem Feature.box?_toFeature (q : LatLng R) :
    box? q.toFeature = some ⟨q.lng, q.lat, q.lng, q.lat⟩ := by
  have hvalue : geometryValue? q.toFeature = some q.toGeoJson := rfl
  rw [box?_eq_of_geometryValue? hvalue, Geometry.ofGeoJson_toGeoJson]
  rfl

private theorem Feature.geometry?_toFeature (q : LatLng R) :
    geometry? q.toFeature = some (.point q.position) := by
  have hvalue : geometry? q.toFeature = (Geometry.ofGeoJson q.toGeoJson).toOption := rfl
  rw [hvalue, Geometry.ofGeoJson_toGeoJson]
  rfl

/-- Such a row is loaded from a feature with a point. -/
theorem Row.holdsPoint_ofFeature {q : LatLng R} (hq : q.isFinite = true) {field : String}
    {columns : BoxColumns} (hdistinct : (field :: columns.names).Nodup) :
    (Row.ofFeature columns field q.toFeature).HoldsPoint field columns q := by
  obtain ⟨hfield, hnodup⟩ := List.nodup_cons.mp hdistinct
  obtain ⟨hlat, hlng⟩ := Bool.and_eq_true_iff.mp hq
  have hnumber : ∀ name ∈ columns.names, (ofFeature columns field q.toFeature).number? name =
      ((Feature.properties q.toFeature).putBox columns
        ⟨q.lng, q.lat, q.lng, q.lat⟩).number? name := fun name hname => by
    rw [number?_ofFeature hfield hname, Feature.box?_toFeature, Option.elim_some]
  obtain ⟨hminx, hminy, hmaxx, hmaxy⟩ := number?_putBox hnodup (Feature.properties q.toFeature)
    (b := ⟨q.lng, q.lat, q.lng, q.lat⟩) (Box.isFinite_iff.mpr ⟨⟨hlng, hlng⟩, hlat, hlat⟩)
  constructor
  · rw [geometry?_ofFeature rfl, Feature.geometry?_toFeature]
  · rw [hnumber _ (by simp [BoxColumns.names]), hminx]
  · rw [hnumber _ (by simp [BoxColumns.names]), hminy]
  · rw [hnumber _ (by simp [BoxColumns.names]), hmaxx]
  · rw [hnumber _ (by simp [BoxColumns.names]), hmaxy]

/-! ### The box around a point -/

/-- The box finds all points within a distance of a given one: each row that holds one overlaps the
box. -/
def Box.Finds (box : Box Exact) (p : LatLng Exact) (distance : Exact) : Prop :=
  ∀ (row : Row Exact) (field : String) (columns : BoxColumns) (q : LatLng Exact),
    row.HoldsPoint field columns q → q.IsOnGlobe → p.haversine q ≤ distance →
      (Predicate.boxOverlap columns box).evaluate row = .ok true

namespace LatLng

/-- How far in degrees the box around a point reaches to the north and south. -/
noncomputable def northSide (meters : Exact) : ℝ :=
  meters.toReal / 111320

/-- How far in degrees the box around a point reaches to the east and west. -/
noncomputable def eastSide (p : LatLng Exact) (meters : Exact) : ℝ :=
  meters.toReal / (111320 * cos (ofDegrees p.lat.toReal))

variable {p : LatLng Exact} {meters : Exact} {box : Box Exact}

/-- Away from the poles, degrees of longitude have a length. -/
theorem shrink_pos (hpolar : p.isPolar = false) : 0 < p.shrink.toReal := by
  have hleast : (leastCosine : Exact).toReal ≤ p.shrink.toReal := by
    simpa [isPolar, Exact.lt_def] using hpolar
  have hpos : 0 < (leastCosine : Exact).toReal := by
    simp [leastCosine, Numeral.toReal?]
  exact hpos.trans_le hleast

/-- Degrees of longitude shrink by the cosine of the latitude. -/
private theorem shrink_eq (hp : p.IsOnGlobe) : p.shrink.toReal = cos (ofDegrees p.lat.toReal) := by
  obtain ⟨hlow, hhigh⟩ := abs_le.mp (abs_ofDegrees_lat_le hp)
  rw [shrink, Exact.toReal_magnitude, Exact.toReal_cos, Exact.toReal_radians, ← ofDegrees,
    abs_of_nonneg (cos_nonneg_of_neg_pi_div_two_le_of_le hlow hhigh)]

/-- A point with a box around it is at no pole. -/
private theorem cos_lat_pos (hp : p.IsOnGlobe) (hbox : p.surroundings? meters = some box) :
    0 < cos (ofDegrees p.lat.toReal) := by
  rw [← shrink_eq hp]
  exact shrink_pos (exists_surroundings_iff.mp ⟨box, hbox⟩)

/-- A row with a point overlaps the box if the point is in it. -/
theorem boxOverlap_iff (hp : p.IsOnGlobe) (hbox : p.surroundings? meters = some box)
    {row : Row Exact} {field : String} {columns : BoxColumns} {q : LatLng Exact}
    (hrow : row.HoldsPoint field columns q) :
    (Predicate.boxOverlap columns box).evaluate row = .ok true ↔
      |q.lat.toReal - p.lat.toReal| ≤ northSide meters ∧
        |q.lng.toReal - p.lng.toReal| ≤ p.eastSide meters := by
  unfold surroundings? at hbox
  split at hbox
  · cases hbox
  · cases hbox
    rw [Predicate.evaluate, Row.boxOverlaps, hrow.minx_eq, hrow.miny_eq, hrow.maxx_eq,
      hrow.maxy_eq]
    simp only [Except.ok.injEq, Bool.and_eq_true, decide_eq_true_eq, Exact.le_def,
      Exact.toReal_add, Exact.toReal_sub, Exact.toReal_mul, Exact.toReal_div, degreesOfMeters,
      metersPerDegree, Exact.toReal_ofInt, Int.cast_ofNat, shrink_eq hp]
    rw [abs_le, abs_le, northSide, eastSide]
    constructor
    · rintro ⟨⟨⟨h₁, h₂⟩, h₃⟩, h₄⟩
      exact ⟨⟨by linarith, by linarith⟩, by linarith, by linarith⟩
    · rintro ⟨⟨h₁, h₂⟩, h₃, h₄⟩
      exact ⟨⟨⟨by linarith, by linarith⟩, by linarith⟩, by linarith⟩

/-- **What a box finds**: all points of a disc that reaches no farther than its sides. -/
theorem finds_iff (hp : p.IsOnGlobe) (hbox : p.surroundings? meters = some box) {distance : Exact}
    (h₀ : 0 ≤ distance.toReal) :
    box.Finds p distance ↔
      p.northReach distance.toReal ≤ northSide meters ∧
        p.eastReach distance.toReal ≤ p.eastSide meters := by
  have hdisc : box.Finds p distance ↔ ∀ q ∈ p.disc distance.toReal,
      |q.lat.toReal - p.lat.toReal| ≤ northSide meters ∧
        |q.lng.toReal - p.lng.toReal| ≤ p.eastSide meters := by
    constructor
    · rintro h q ⟨hq, hdistance⟩
      -- the row of a feature with the point
      have hrow : (Row.ofFeature BoxColumns.default "geometry" q.toFeature).HoldsPoint "geometry"
          BoxColumns.default q :=
        Row.holdsPoint_ofFeature rfl (by decide)
      exact (boxOverlap_iff hp hbox hrow).mp (h _ _ _ q hrow hq hdistance)
    · intro h row field columns q hrow hq hdistance
      exact (boxOverlap_iff hp hbox hrow).mpr (h q ⟨hq, hdistance⟩)
  rw [hdisc, isLUB_le_iff (isGreatest_northReach hp h₀).isLUB,
    isLUB_le_iff (isGreatest_eastReach hp h₀).isLUB]
  simp only [mem_upperBounds, Set.forall_mem_image]
  exact forall₂_and

/-- A degree of a great circle is shorter than the box takes it to be. -/
theorem northSide_lt {distance : Exact} (h : 0 < distance.toReal) :
    northSide distance < degrees (arc distance.toReal) := by
  rw [northSide, degrees, arc, div_mul_div_comm, div_lt_div_iff₀ (by norm_num) (by positivity)]
  nlinarith [pi_lt_d4]

private theorem abs_lat_lt (hp : p.IsOnGlobe) (hbox : p.surroundings? meters = some box) :
    |p.lat.toReal| < 90 := by
  refine hp.1.lt_of_ne fun h => ?_
  have hcos := cos_lat_pos hp hbox
  rw [← cos_abs, abs_ofDegrees, h, ofDegrees_ninety, cos_pi_div_two] at hcos
  exact lt_irrefl 0 hcos

/-- A disc without extent is the selected point alone, which has two longitudes if it lies on the
antimeridian. -/
theorem eastReach_zero_le_iff (hlat : |p.lat.toReal| < 90) :
    p.eastReach 0 ≤ 0 ↔ |p.lng.toReal| < 180 := by
  have harc : degrees (arc 0) = 0 := by simp [degrees, arc]
  have hspan : p.eastSpan 0 = 0 := by simp [eastSpan, Sphere.span, degrees, arc]
  have hinland : p.IsInland 0 ↔ |p.lng.toReal| < 180 := by
    rw [IsInland, harc, hspan, add_zero, add_zero, and_iff_right hlat]
  by_cases h : p.IsInland 0
  · rw [eastReach, if_pos h, hspan]
    exact iff_of_true le_rfl (hinland.mp h)
  · rw [eastReach, if_neg h]
    exact iff_of_false (by linarith [abs_nonneg p.lng.toReal]) (mt hinland.mpr h)

/-- The disc of its own radius it finds only if that is a point or all of the globe. -/
theorem finds_own_iff (hp : p.IsOnGlobe) (hbox : p.surroundings? meters = some box)
    (h₀ : 0 ≤ meters.toReal) :
    box.Finds p meters ↔
      (meters.toReal = 0 ∧ |p.lng.toReal| < 180) ∨
        (90 + |p.lat.toReal| ≤ northSide meters ∧ 180 + |p.lng.toReal| ≤ p.eastSide meters) := by
  have hlat := abs_lat_lt hp hbox
  rw [finds_iff hp hbox h₀]
  rcases h₀.eq_or_lt with hzero | hpos
  · have hnorth : p.northReach 0 ≤ 0 := (min_le_left _ _).trans (by simp [degrees, arc])
    rw [← eastReach_zero_le_iff hlat]
    simp only [northSide, eastSide, ← hzero, zero_div, hnorth, true_and]
    refine ⟨Or.inl, fun h => h.resolve_right fun hall => ?_⟩
    linarith [hall.1, abs_nonneg p.lat.toReal]
  · constructor
    · rintro ⟨hnorth, heast⟩
      have hpole := (min_le_iff.mp hnorth).resolve_left (not_le.mpr (northSide_lt hpos))
      have hinland : ¬p.IsInland meters.toReal := by
        rintro ⟨hcap, -⟩
        linarith [northSide_lt hpos, abs_nonneg p.lat.toReal]
      rw [eastReach, if_neg hinland] at heast
      exact Or.inr ⟨hpole, heast⟩
    · rintro (⟨hzero, -⟩ | ⟨hnorth, heast⟩)
      · exact absurd hzero hpos.ne'
      · exact ⟨(min_le_right _ _).trans hnorth, eastReach_le.trans heast⟩

/-- What the box around a point finds. All points within a distance, just when the farthest of them
to the north, south, east and west are in the box. All points within the meters that it was made
from, just when these are none and the point is not on the antimeridian, or when the box covers the
globe. -/
theorem surroundings_finds_iff (hp : p.IsOnGlobe) (hbox : p.surroundings? meters = some box)
    (h₀ : 0 ≤ meters.toReal) :
    (∀ distance : Exact, 0 ≤ distance.toReal →
      (box.Finds p distance ↔
        p.northReach distance.toReal ≤ northSide meters ∧
          p.eastReach distance.toReal ≤ p.eastSide meters)) ∧
      (box.Finds p meters ↔
        (meters.toReal = 0 ∧ |p.lng.toReal| < 180) ∨
          (90 + |p.lat.toReal| ≤ northSide meters ∧
            180 + |p.lng.toReal| ≤ p.eastSide meters)) :=
  ⟨fun _ h => finds_iff hp hbox h, finds_own_iff hp hbox h₀⟩

/-- The place on the equator at which longitudes start. -/
noncomputable def origin : LatLng Exact :=
  ⟨⟨0⟩, ⟨0⟩⟩

private theorem origin_isOnGlobe : origin.IsOnGlobe := by
  simp [IsOnGlobe, origin]

theorem isPolar_origin : origin.isPolar = false := by
  have hshrink : origin.shrink.toReal = 1 := by
    rw [shrink_eq origin_isOnGlobe]
    simp [origin]
  have hleast : ¬origin.shrink < leastCosine := by
    rw [Exact.lt_def, hshrink]
    norm_num [leastCosine, Numeral.toReal?]
  simpa [isPolar] using hleast

theorem exists_surroundings_origin (meters : Exact) :
    ∃ box, origin.surroundings? meters = some box :=
  exists_surroundings_iff.mpr isPolar_origin

/-- At the origin the box of a kilometer finds all points within 998 meters, but not all within
a kilometer. -/
theorem surroundings_finds_origin :
    ∃ box, origin.surroundings? ⟨1000⟩ = some box ∧ box.Finds origin ⟨998⟩ ∧
      ¬box.Finds origin ⟨1000⟩ := by
  obtain ⟨box, hbox⟩ := exists_surroundings_origin ⟨1000⟩
  obtain ⟨hfinds, hown⟩ := surroundings_finds_iff origin_isOnGlobe hbox (by norm_num)
  have hside : degrees (arc 998) ≤ 1000 / 111320 := by
    rw [degrees, arc, div_mul_div_comm, div_le_div_iff₀ (by positivity) (by norm_num)]
    linarith [pi_gt_d4]
  have hspan : origin.eastSpan 998 = degrees (arc 998) := by
    have hnonneg : 0 ≤ arc 998 := arc_nonneg (by norm_num)
    have hle : arc 998 ≤ π / 2 := by
      rw [arc]
      linarith [pi_gt_d4]
    rw [eastSpan, Sphere.span, origin, ofDegrees_zero, cos_zero, div_one,
      arcsin_sin (by linarith [pi_pos]) hle]
  have hinland : origin.IsInland 998 := by
    rw [IsInland, hspan, origin, abs_zero, zero_add]
    exact ⟨by linarith, by linarith⟩
  refine ⟨box, hbox, (hfinds ⟨998⟩ (by norm_num)).mpr ⟨?_, ?_⟩, fun h => ?_⟩
  · exact (min_le_left _ _).trans hside
  · rw [eastReach, if_pos hinland, hspan, eastSide, origin, ofDegrees_zero, cos_zero, mul_one]
    exact hside
  · rcases hown.mp h with ⟨hzero, -⟩ | ⟨hnorth, -⟩
    · norm_num at hzero
    · norm_num [northSide, origin] at hnorth

/-- A point 999.6 meters north of the origin. -/
noncomputable def rim : LatLng Exact :=
  ⟨⟨0.00899⟩, ⟨0⟩⟩

/-- The row of that point is not found in the box of a kilometer around the origin. -/
theorem not_finds_rim :
    ∃ box, origin.surroundings? ⟨1000⟩ = some box ∧ origin.IsOnGlobe ∧ rim.IsOnGlobe ∧
      (Row.ofFeature BoxColumns.default "geometry" rim.toFeature).HoldsPoint "geometry"
        BoxColumns.default rim ∧
      origin.haversine rim ≤ ⟨1000⟩ ∧
      (Predicate.boxOverlap BoxColumns.default box).evaluate
        (Row.ofFeature BoxColumns.default "geometry" rim.toFeature) = .ok false := by
  obtain ⟨box, hbox⟩ := exists_surroundings_origin ⟨1000⟩
  have hrow : (Row.ofFeature BoxColumns.default "geometry" rim.toFeature).HoldsPoint "geometry"
      BoxColumns.default rim :=
    Row.holdsPoint_ofFeature rfl (by decide)
  have hrim : rim.IsOnGlobe := by
    norm_num [IsOnGlobe, rim]
  have hdistance : (origin.haversine rim).toReal ≤ 1000 := by
    -- Along a meridian the distance is the difference of latitudes on the sphere.
    have hangle : |ofDegrees rim.lat.toReal - 0| = 0.00899 * (π / 180) := by
      rw [sub_zero, ofDegrees, rim, abs_of_pos (by positivity)]
    have hhalf : |ofDegrees rim.lat.toReal - 0| ≤ π := by
      rw [hangle]
      linarith [pi_pos]
    have hlng : rim.lng.toReal - origin.lng.toReal = 0 := sub_self 0
    have hlat : ofDegrees origin.lat.toReal = 0 := ofDegrees_zero
    rw [haversine_le_iff, hlng, hlat, ofDegrees_zero, Sphere.angle_zero hhalf, hangle, arc]
    linarith [pi_lt_d4]
  refine ⟨box, hbox, origin_isOnGlobe, hrim, hrow, hdistance, ?_⟩
  have hmiss : (Predicate.boxOverlap BoxColumns.default box).evaluate
      (Row.ofFeature BoxColumns.default "geometry" rim.toFeature) ≠ .ok true := by
    intro h
    have hnorth := ((boxOverlap_iff origin_isOnGlobe hbox hrow).mp h).1
    norm_num [northSide, origin, rim] at hnorth
  rw [Predicate.evaluate] at hmiss ⊢
  simpa using hmiss

end LatLng

end TransitQuery
