import TransitQuery.Proofs.Geometry.Enclosure
import TransitQuery.Proofs.Predicate.Surroundings
import TransitQuery.Proofs.Predicate.Tiers

/-!
# Features near a point

In exact arithmetic, the box around a point reaches at least as many degrees in each direction as
its radius has on the native tier: as many to the north and south, and more to the east and west,
where degrees are shorter. So a feature that is near the point has a box that overlaps the box
around the point (`Row.evaluate_boxOverlap_of_nativeLeaf`). This is about the planar distance that
the native tier measures; the disc in meters on the globe is a bit wider than the box.

The box of a feature holds what is nearest in its geometry (`Geometry.exists_nearest`), and the box
around the point holds all positions within the radius in degrees (`contains_of_distance_le`); so
both hold one position, and overlap. The second step is exact arithmetic: the sides are computed by
the same division by meters per degree as the radius, and to the east by that of a lesser number,
the meters of a degree shrunk by the cosine of the latitude.

`Feature.IsBoxed` leaves out the features of which the box is not that of the geometry. The
geometry may be a text, which loading does not put into a box, or a hole of a polygon may reach out
of its outer ring.
-/

namespace TransitQuery

variable {p : LatLng Exact} {meters : Exact}

namespace LatLng

/-- Degrees of longitude are not longer than those of latitude. -/
private theorem shrink_le_one (p : LatLng Exact) : p.shrink.toReal ≤ 1 := by
  rw [shrink, Exact.toReal_magnitude, Exact.toReal_cos]
  exact Real.abs_cos_le_one _

/-- The box around a point holds all positions within the radius in degrees. -/
theorem contains_of_distance_le {box : Box Exact} (hbox : p.surroundings? meters = some box)
    {q : Position Exact} (h : q.distance p.position ≤ degreesOfMeters meters) :
    box.contains q = true := by
  have hpolar := exists_surroundings_iff.mp ⟨box, hbox⟩
  have hpos := shrink_pos hpolar
  rw [surroundings?, hpolar] at hbox
  cases hbox
  have hdistance : √((q.x.toReal - p.lng.toReal) ^ 2 + (q.y.toReal - p.lat.toReal) ^ 2) ≤
      meters.toReal / 111320 := by
    have hmeters : (metersPerDegree : Exact).toReal = 111320 := by simp [metersPerDegree]
    rw [← hmeters]
    exact h
  have hnonneg : 0 ≤ meters.toReal := by
    have := (Real.sqrt_nonneg _).trans hdistance
    linarith
  -- a degree of longitude is not longer than one of latitude
  have hacross : meters.toReal / 111320 ≤ meters.toReal / (111320 * p.shrink.toReal) :=
    div_le_div_of_nonneg_left hnonneg (by positivity) (by linarith [p.shrink_le_one])
  have hx := abs_le.mp ((Real.abs_le_sqrt (le_add_of_nonneg_right (sq_nonneg _))).trans hdistance)
  have hy := abs_le.mp ((Real.abs_le_sqrt (le_add_of_nonneg_left (sq_nonneg _))).trans hdistance)
  simp only [Box.contains_iff, Exact.toReal_add, Exact.toReal_sub, Exact.toReal_mul,
    Exact.toReal_div, degreesOfMeters, metersPerDegree, Exact.toReal_ofInt, Int.cast_ofNat]
  refine ⟨⟨?_, ?_⟩, ?_, ?_⟩ <;> linarith [hx.1, hx.2, hy.1, hy.2]

end LatLng

/-- Boxes that hold one position overlap. -/
theorem Box.intersects_of_contains {a b : Box Exact} {q : Position Exact}
    (ha : a.contains q = true) (hb : b.contains q = true) : a.intersects b = true := by
  obtain ⟨⟨h₁, h₂⟩, h₃, h₄⟩ := contains_iff.mp ha
  obtain ⟨⟨h₅, h₆⟩, h₇, h₈⟩ := contains_iff.mp hb
  simp only [intersects, Bool.and_eq_true, decide_eq_true_eq, Exact.le_def]
  exact ⟨⟨⟨h₁.trans h₆, h₅.trans h₂⟩, h₃.trans h₈⟩, h₇.trans h₄⟩

/-- A feature that boxes represent: its geometry is not given as a text, which loading does not put
into a box, and the holes of its polygons stay in the boxes of their outer rings. -/
structure Feature.IsBoxed {R : Type} [Scalar R] (feature : Json R) : Prop where
  geometryValue?_ne_str : ∀ text, geometryValue? feature ≠ some (.str text)
  holdsHoles : ∀ g ∈ geometry? feature, g.Consists (fun _ => True) Polygon.HoldsHoles

/-- A feature near a point has a box that overlaps the one around the point. -/
theorem Feature.intersects_of_isNear {feature : Json Exact} (hboxed : IsBoxed feature)
    {box : Box Exact} (hbox : p.surroundings? meters = some box)
    (hnear : (Feature.geometry? feature).any (·.isNear p (degreesOfMeters meters)) = true) :
    (box? feature).any (·.intersects box) = true := by
  obtain ⟨g, hg, hnear⟩ := Option.any_eq_true .. |>.mp hnear
  obtain ⟨d, hd, hle⟩ := Option.any_eq_true .. |>.mp hnear
  have hholes := hboxed.holdsHoles g hg
  rw [geometry?_eq_ofGeoJson hboxed.geometryValue?_ne_str] at hg
  obtain ⟨v, hv, hg⟩ := Option.bind_eq_some_iff.mp hg
  have hclosed := Geometry.consists_of_ofGeoJson Geometry.certifies_isClosed v trivial
    (toOption_eq_some_iff.mp hg)
  obtain ⟨b, hb, q, hq, rfl⟩ := g.exists_nearest hclosed hholes hd
  have hfeature : box? feature = some b := by
    rw [box?_eq_of_geometryValue? hv, hg]
    exact hb
  rw [hfeature, Option.any_some]
  exact Box.intersects_of_contains hq
    (LatLng.contains_of_distance_le hbox (of_decide_eq_true hle))

namespace Row

variable {columns : BoxColumns} {column : String} {feature : Json Exact}

/-- Where the native leaf holds on the row of a feature, so does the one in boxes. -/
theorem evaluate_boxOverlap_of_nativeLeaf (hnodup : (column :: columns.names).Nodup)
    (hproperties : ∀ name ∈ column :: columns.names,
      (Feature.properties feature).cell? name = none)
    (hboxed : Feature.IsBoxed feature) {box : Box Exact}
    (hbox : p.surroundings? meters = some box) {relation : Relation}
    (h : (ClauseContext.nativeLeaf relation column p meters).evaluate
      (ofFeature columns column feature) = .ok true) :
    (Predicate.boxOverlap columns box).evaluate (ofFeature columns column feature) = .ok true := by
  obtain ⟨hcolumn, hnodup⟩ := List.nodup_cons.mp hnodup
  obtain ⟨hproperty, hproperties⟩ := List.forall_mem_cons.mp hproperties
  have hnear : (Row.geometry? (ofFeature columns column feature) column).any
      (·.isNear p (degreesOfMeters meters)) = true := by
    cases relation <;> exact Except.ok.inj h
  rw [geometry?_ofFeature hproperty] at hnear
  rw [Predicate.evaluate, boxOverlaps_ofFeature (fun _ _ => rfl) hnodup hcolumn hproperties,
    Feature.intersects_of_isNear hboxed hbox hnear]

end Row

end TransitQuery
