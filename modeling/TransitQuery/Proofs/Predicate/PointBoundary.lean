import TransitQuery.Predicate.OfContract
import TransitQuery.Proofs.Geometry.Cell
import TransitQuery.Proofs.Plan.Tier
import TransitQuery.Proofs.Predicate.Surroundings

/-!
# A point as the boundary

The target of a main clause may be the selected point or the boundary, and the boundary may be a
point. On the native tier the two come to the same where they are met within a positive distance
(`ClauseContext.mainClause_isPoint`): the one carries the coordinates as numbers, the other writes
them as Well-Known Text and reads them again for each row.

A boundary that is a point may be given in three ways (`Boundary.IsPoint`), and has the same text
in each of them, up to the blanks around a text that is given as such. The text holds the
coordinates as decimals that are read as the same scalars, so the point comes back
(`Boundary.IsPoint.exists_toWkt`). What remains is that the distance from a geometry to a geometry
that is a point is the distance to this point, which is how it is computed.

Where the distance is not positive the two differ: a disc without extent is still tested by its
distance, but a boundary without a buffer is tested for what it has in common with the geometry.
The statement gives the common answer, and not only that the answers are equal: a row without a
geometry that can be read is not kept.
-/

namespace TransitQuery

variable {R : Type} [Scalar R]

/-- A boundary that is a point: given as GeoJSON, with features around it or without, or as
Well-Known Text. -/
inductive Boundary.IsPoint (p : LatLng R) : Boundary R → Prop
  | geoJson {v : Json R} (h : Geometry.ofGeoJson v = .ok (.point p.position)) :
    IsPoint p (.geoJson v)
  | wkt {text : String} (h : Geometry.ofWkt (Text.trimmed text) = .ok (.point p.position)) :
    IsPoint p (.wkt text)

namespace Boundary

variable [ReadableScalar R] [WrittenScalar R] {p : LatLng R}

/-- The text of a point is read as the point. -/
theorem ofWkt_toWkt_point (hp : p.isFinite = true) :
    Geometry.ofWkt (Geometry.point p.position).toWkt = .ok (.point p.position) := by
  have hsound : (Geometry.point p.position).IsSound :=
    Bool.and_eq_true_iff.mpr (Bool.and_eq_true_iff.mp hp).symm
  exact (Geometry.ofWkt_toWkt_eq_ok_iff hsound).mpr trivial

/-- Trimming leaves this text as it is. -/
theorem ofWkt_trimmed_toWkt_point (hp : p.isFinite = true) :
    Geometry.ofWkt (Text.trimmed (Geometry.point p.position).toWkt) = .ok (.point p.position) := by
  have hnone := List.forall_mem_nil (Text.isBlank · = true)
  have htrim := Text.trimmed_eq hnone (Geometry.isTrim_wktChars (.point p.position)).1 hnone
  rw [List.nil_append, List.append_nil] at htrim
  rw [Geometry.toWkt, htrim]
  exact ofWkt_toWkt_point hp

/-- A boundary that is a point has a text, which is read as this point. -/
theorem IsPoint.exists_toWkt {b : Boundary R} (hb : b.IsPoint p) (hp : p.isFinite = true) :
    ∃ text, b.toWkt = .ok text ∧ Geometry.ofWkt text = .ok (.point p.position) := by
  cases hb with
  | geoJson h => exact ⟨_, (geoJsonToWkt_eq_ok_iff _).mpr ⟨_, h, rfl⟩, ofWkt_toWkt_point hp⟩
  | @wkt text h =>
    refine ⟨Text.trimmed text, if_neg fun hblank => ?_, h⟩
    rw [Text.trimmed_of_isBlankString hblank] at h
    cases h

end Boundary

namespace Predicate

/-- Within a positive distance of a point, a boundary that is this point says what the point
itself does. -/
theorem evaluate_boundary_point {wkt : String} {p : LatLng R}
    (hwkt : Geometry.ofWkt wkt = .ok (.point p.position)) {buffer : R}
    (hbuffer : Scalar.zero < buffer) (field : String) (row : Row R) :
    (boundary .intersects field wkt buffer).evaluate row =
      (intersectsBuffer field p buffer).evaluate row := by
  rw [evaluate, evaluate, boundaryHolds]
  cases row.geometry? field with
  | none => rfl
  | some g =>
    simp only [hwkt, SpatialRelation.holds, if_pos hbuffer]
    rfl

end Predicate

namespace ClauseContext

variable [ReadableScalar R] [WrittenScalar R]

/-- The clauses of a context on the native tier. -/
def native (c : Context R) : ClauseContext R where
  context := c
  tier := .native
  exactField := none

/-- On the native tier, a main clause that asks what meets a boundary asks what meets the selected
point, if the boundary is this point: both clauses are there, and every row gets the same answer
from both, which is whether its geometry is near the point. A row without a readable geometry is
refused by both. -/
theorem mainClause_isPoint {c : Context R} (hnative : Tier.select c = some .native) {p : LatLng R}
    (hp : p.isFinite = true) {distance : R} (hdistance : Scalar.zero < degreesOfMeters distance) :
    (Boundary.geoJson p.toGeoJson).IsPoint p ∧
    (Boundary.wkt (Geometry.point p.position).toWkt).IsPoint p ∧
    ∀ b : Boundary R, b.IsPoint p → ∃ field atBoundary atPoint,
      c.geometryField = some field ∧
      (native { c with boundary := some b }).mainClause ⟨.boundary, distance, .intersects⟩ =
        .ok atBoundary ∧
      (native { c with point := some p }).mainClause ⟨.selectedPoint, distance, .intersects⟩ =
        .ok atPoint ∧
      ∀ row : Row R, ∃ met, atBoundary.evaluate row = .ok met ∧ atPoint.evaluate row = .ok met ∧
        met = (row.geometry? field).any (·.isNear p (degreesOfMeters distance)) ∧
        (row.geometry? field = none → met = false) := by
  obtain ⟨-, hfield⟩ := Tier.select_eq_native_iff.mp hnative
  obtain ⟨field, hfield⟩ := Option.isSome_iff_exists.mp hfield
  refine ⟨.geoJson (Geometry.ofGeoJson_toGeoJson p), .wkt (Boundary.ofWkt_trimmed_toWkt_point hp),
    fun b hb => ?_⟩
  -- However the boundary is spelled, its text is read as the point.
  obtain ⟨wkt, hwkt, hread⟩ := hb.exists_toWkt hp
  refine ⟨field, .boundary .intersects field wkt (degreesOfMeters distance),
    .intersectsBuffer field p (degreesOfMeters distance), hfield, ?_, ?_, fun row => ?_⟩
  · simp only [mainClause, mainWith, boundaryClause, native, geometryField, hfield, hwkt]
    rfl
  · simp only [mainClause, mainWith, pointClause, tierLeaf, native, geometryField, hfield]
    rfl
  · refine ⟨(row.geometry? field).any (·.isNear p (degreesOfMeters distance)), ?_, rfl, rfl,
      fun hnone => by rw [hnone]; rfl⟩
    rw [Predicate.evaluate_boundary_point hread hdistance, Predicate.evaluate]

/-- A data set with spatial tests and a geometry column. -/
def harborContext : Context FlatDouble :=
  { (Context.empty : Context FlatDouble) with
    spatialReady := true
    geometryField := some "shape" }

/-- The point at one degree north and two degrees east. -/
def harbor : LatLng FlatDouble :=
  ⟨(1 : Float), (2 : Float)⟩

/-- A row with a geometry at one degree north and `lng` degrees east. -/
def pier (lng : Float) : Row FlatDouble :=
  [("shape", (⟨(1 : Float), lng⟩ : LatLng FlatDouble).toGeoJson)]

/-- Both clauses keep a row at the point, and drop one a degree away and one without a geometry. -/
theorem mainClause_isPoint_harbor :
    Tier.select harborContext = some .native ∧ harbor.isFinite = true ∧
    ∃ atBoundary atPoint,
      (native { harborContext with boundary := some (.geoJson harbor.toGeoJson) }).mainClause
        ⟨.boundary, (300 : Float), .intersects⟩ = .ok atBoundary ∧
      (native { harborContext with point := some harbor }).mainClause
        ⟨.selectedPoint, (300 : Float), .intersects⟩ = .ok atPoint ∧
      atBoundary.evaluate (pier 2) = .ok true ∧ atPoint.evaluate (pier 2) = .ok true ∧
      atBoundary.evaluate (pier 3) = .ok false ∧ atPoint.evaluate (pier 3) = .ok false ∧
      atBoundary.evaluate [] = .ok false ∧ atPoint.evaluate [] = .ok false := by
  have hnative : Tier.select harborContext = some .native := rfl
  have hfinite : harbor.isFinite = true := by decide +kernel
  have hdistance : (Scalar.zero : FlatDouble) < degreesOfMeters (R := FlatDouble) (300 : Float) :=
    by decide +kernel
  obtain ⟨hpoint, -, hall⟩ := mainClause_isPoint hnative hfinite hdistance
  obtain ⟨field, atBoundary, atPoint, hfield, hboundary, hpoint, hrows⟩ := hall _ hpoint
  obtain rfl : "shape" = field := Option.some.inj hfield
  have hnear : (Row.geometry? (pier 2) "shape").any
      (·.isNear harbor (degreesOfMeters (R := FlatDouble) (300 : Float))) = true := by
    decide +kernel
  have hfar : (Row.geometry? (pier 3) "shape").any
      (·.isNear harbor (degreesOfMeters (R := FlatDouble) (300 : Float))) = false := by
    decide +kernel
  obtain ⟨_, hnearBoundary, hnearPoint, hmet, -⟩ := hrows (pier 2)
  obtain rfl := hmet.trans hnear
  obtain ⟨_, hfarBoundary, hfarPoint, hmet, -⟩ := hrows (pier 3)
  obtain rfl := hmet.trans hfar
  obtain ⟨_, hnoneBoundary, hnonePoint, -, hnone⟩ := hrows []
  obtain rfl := hnone rfl
  exact ⟨hnative, hfinite, atBoundary, atPoint, hboundary, hpoint, hnearBoundary, hnearPoint,
    hfarBoundary, hfarPoint, hnoneBoundary, hnonePoint⟩

end ClauseContext

end TransitQuery
