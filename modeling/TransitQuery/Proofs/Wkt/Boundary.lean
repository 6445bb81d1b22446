import TransitQuery.Predicate.Evaluate
import TransitQuery.Proofs.Wkt.Kept
import TransitQuery.Wkt.Boundary

/-!
# Boundaries given as GeoJSON

A boundary that is given as GeoJSON is written as Well-Known Text and read again when a predicate
is decided. It has a text just if it is read as a point, a line, a polygon or several polygons, with
any number of features around it. Predicates meet the boundary that was given if its text keeps it
(`Boundary.toWkt_geoJson_iff`). Empty rings are not kept: an empty hole makes a text that is
refused, and a polygon with an empty outer ring gets its first hole for one.

There are two questions, and the statement answers both. The text may be refused, and then every
call with this boundary fails; or it may be accepted and read as another geometry.
`Geometry.IsAccepted` and `Geometry.IsKept` tell which geometries are not, and the theorem gives
the same for the value of a boundary. Its examples are a polygon with an empty hole, and one whose
outer ring is empty.
-/

namespace TransitQuery

variable {R : Type} [Scalar R]

/-! ### Geometries that are read -/

/-- A finite position is equal to itself. -/
theorem Position.beq_self [WrittenScalar R] {p : Position R} (h : p.isFinite = true) :
    (p == p) = true := by
  obtain ⟨hx, hy⟩ := Bool.and_eq_true_iff.mp h
  exact Bool.and_eq_true_iff.mpr ⟨WrittenScalar.beq_self hx, WrittenScalar.beq_self hy⟩

/-- A ring that has been closed counts as closed. -/
private theorem isClosed_closeRing [WrittenScalar R] {ring : List (Position R)}
    (h : ∀ p ∈ ring, p.isFinite = true) : isClosed (closeRing ring) = true := by
  unfold closeRing
  split
  · assumption
  · cases ring with
    | nil => rfl
    | cons p rest =>
      have hlast : (p :: rest ++ [p]).getLast? = some p := List.getLast?_concat
      have hclosed : isClosed (p :: rest ++ [p]) = (some p == some p) := by
        rw [isClosed, hlast]
        rfl
      exact hclosed.trans (Position.beq_self (h p List.mem_cons_self))

namespace Geometry

variable [SteadyScalar R] [WrittenScalar R] {v : Json R}

private theorem isSound_of_polygonOf {g : Polygon R} (hv : v.IsHeld) (h : polygonOf v = .ok g) :
    g.IsSound := by
  obtain ⟨exterior, interiors, rfl, hfinite⟩ := exists_of_polygonOf Json.isInherited_isHeld
    (fun _ _ hv h => isFinite_of_positionOf hv h) hv h
  have hsound : ∀ ring ∈ exterior :: interiors, isClosed (closeRing ring) = true ∧
      ∀ p ∈ closeRing ring, p.isFinite = true := fun ring hring =>
    ⟨isClosed_closeRing (hfinite ring hring),
      fun p hp => hfinite ring hring p (mem_of_mem_closeRing hp)⟩
  obtain ⟨hexterior, hinteriors⟩ := List.forall_mem_cons.mp hsound
  exact List.forall_mem_cons.mpr ⟨hexterior, List.forall_mem_map.mpr hinteriors⟩

/-- What is read from a value is finite, and its rings are closed. -/
theorem isSound_of_ofGeoJson {g : Geometry R} (hv : v.IsHeld) (h : ofGeoJson v = .ok g) :
    g.IsSound :=
  consists_of_ofGeoJson ⟨Json.isInherited_isHeld, fun _ _ => isFinite_of_positionOf,
    fun _ _ => isSound_of_polygonOf⟩ v hv h

/-- The kinds of geometry that can be a boundary. -/
def CanBound : Geometry R → Prop
  | point _ | lineString _ | polygon _ | multiPolygon _ => True
  | _ => False

end Geometry

/-! ### Texts of boundaries -/

namespace Boundary

private theorem geometryToWkt_eq_ok_iff {g : Geometry R} {text : String} :
    geometryToWkt g = .ok text ↔ g.CanBound ∧ text = g.toWkt := by
  cases g <;> simp [geometryToWkt, Geometry.CanBound, eq_comm]

private theorem objectToWkt_eq_ok_iff {members : List (String × Json R)} {text : String} :
    objectToWkt members = .ok text ↔
      ∃ g, Geometry.ofGeoJson (.obj members) = .ok g ∧ geometryToWkt g = .ok text := by
  unfold objectToWkt
  cases Geometry.ofGeoJson (.obj members) <;> simp

mutual

/-- A value has a text if it is read as a geometry that has one. Features are opened alike. -/
theorem geoJsonToWkt_eq_ok_iff (v : Json R) {text : String} :
    geoJsonToWkt v = .ok text ↔
      ∃ g, Geometry.ofGeoJson v = .ok g ∧ geometryToWkt g = .ok text := by
  match v with
  | .obj members =>
    rw [geoJsonToWkt]
    by_cases hfeature : isFeature members = true
    · rw [if_pos hfeature, featureToWkt_eq_ok_iff members]
      have htype : (Json.lookup "type" members).bind Json.string? = some "Feature" :=
        of_decide_eq_true hfeature
      rw [Geometry.ofGeoJson, htype]
      rfl
    · rw [if_neg hfeature]
      exact objectToWkt_eq_ok_iff
  | .null | .bool _ | .int _ | .real _ | .str _ | .arr _ =>
    simp [geoJsonToWkt, Geometry.ofGeoJson]

private theorem featureToWkt_eq_ok_iff (members : List (String × Json R)) {text : String} :
    featureToWkt members = .ok text ↔
      ∃ g, Geometry.ofFeature members = .ok g ∧ geometryToWkt g = .ok text := by
  match members with
  | [] => simp [featureToWkt, Geometry.ofFeature]
  | (name, v) :: rest =>
    have hvalue : geoJsonToWkt v = .ok text ↔ _ := geoJsonToWkt_eq_ok_iff v
    unfold featureToWkt Geometry.ofFeature
    by_cases hname : name = "geometry"
    · rw [if_pos hname, if_pos hname]
      cases v with
      | null => simp
      | _ => exact hvalue
    · rw [if_neg hname, if_neg hname]
      exact featureToWkt_eq_ok_iff rest

end

/-- A boundary that is given as GeoJSON has a text if it is read as a point, a line, a polygon or
several polygons. The text is accepted if none of the parts that are written is empty, and it is
read as the boundary that was given if no ring is left out, either; then this boundary is the one
that predicates are decided by. -/
theorem toWkt_geoJson_iff [SteadyScalar R] [ReadableScalar R] [WrittenScalar R] {v : Json R}
    (hv : v.IsHeld) :
    ((∃ text, (geoJson v).toWkt = .ok text) ↔
      ∃ g, Geometry.ofGeoJson v = .ok g ∧ g.CanBound) ∧
    ∀ text, (geoJson v).toWkt = .ok text → ∃ g, Geometry.ofGeoJson v = .ok g ∧
      ((Geometry.ofWkt (R := R) text).isOk = true ↔ g.IsAccepted) ∧
      (Geometry.ofWkt text = .ok g ↔ g.IsKept) ∧
      (g.IsKept → ∀ (row : Row R) (relation : SpatialRelation) (field : String) (buffer : R),
        (Predicate.boundary relation field text buffer).evaluate row =
          match row.geometry? field with
          | none => .ok false
          | some shape => relation.holds shape g buffer) := by
  constructor
  · constructor
    · rintro ⟨text, htext⟩
      obtain ⟨g, hg, hwkt⟩ := (geoJsonToWkt_eq_ok_iff v).mp htext
      exact ⟨g, hg, (geometryToWkt_eq_ok_iff.mp hwkt).1⟩
    · rintro ⟨g, hg, hbound⟩
      exact ⟨g.toWkt, (geoJsonToWkt_eq_ok_iff v).mpr
        ⟨g, hg, geometryToWkt_eq_ok_iff.mpr ⟨hbound, rfl⟩⟩⟩
  · intro text htext
    obtain ⟨g, hg, hwkt⟩ := (geoJsonToWkt_eq_ok_iff v).mp htext
    obtain ⟨-, rfl⟩ := geometryToWkt_eq_ok_iff.mp hwkt
    have hsound := Geometry.isSound_of_ofGeoJson hv hg
    have hkept := Geometry.ofWkt_toWkt_eq_ok_iff hsound
    refine ⟨g, hg, Geometry.isOk_ofWkt_toWkt_iff hsound, hkept,
      fun h row relation field buffer => ?_⟩
    unfold Predicate.evaluate Predicate.boundaryHolds
    cases row.geometry? field with
    | none => rfl
    | some shape => simp only [hkept.mpr h]

/-! ### A lagoon -/

/-- A square in GeoJSON. -/
def shore : Json FlatDouble :=
  .arr [.arr [.int 0, .int 0], .arr [.int 4, .int 0], .arr [.int 4, .int 4],
    .arr [.int 0, .int 4], .arr [.int 0, .int 0]]

/-- Its corners. -/
def corners : List (Position FlatDouble) :=
  [⟨Scalar.ofInt 0, Scalar.ofInt 0⟩, ⟨Scalar.ofInt 4, Scalar.ofInt 0⟩,
    ⟨Scalar.ofInt 4, Scalar.ofInt 4⟩, ⟨Scalar.ofInt 0, Scalar.ofInt 4⟩,
    ⟨Scalar.ofInt 0, Scalar.ofInt 0⟩]

/-- A polygon in GeoJSON with the given rings, as a feature. -/
def lagoon (rings : List (Json FlatDouble)) : Json FlatDouble :=
  .obj [("type", .str "Feature"), ("geometry",
    .obj [("type", .str "Polygon"), ("coordinates", .arr rings)])]

private theorem isHeld_lagoon (rings : List (Json FlatDouble))
    (h : rings ∈ [[shore], [shore, .arr []], [.arr [], shore]]) : (lagoon rings).IsHeld := by
  have hshore : shore.Fits .any 3 := by
    simp [shore, Json.Fits, Json.ItemsFit, Json.Shape.depthInside?, Json.Shape.head,
      Json.Shape.tail, Json.IsWord64]
  refine ⟨6, ?_⟩
  simp only [List.mem_cons, List.not_mem_nil, or_false] at h
  rcases h with rfl | rfl | rfl <;>
    simp [lagoon, Json.Fits, Json.MembersFit, Json.ItemsFit, Json.Shape.depthInside?,
      Json.Shape.head, Json.Shape.tail, Json.Shape.member, hshore]

private theorem closeRing_corners_ne_nil : closeRing corners ≠ [] :=
  mt closeRing_eq_nil_iff.mp (List.cons_ne_nil _ _)

/-- Without holes the lagoon is kept. -/
theorem toWkt_geoJson_iff_lagoon :
    (lagoon [shore]).IsHeld ∧ ∃ text, (geoJson (lagoon [shore])).toWkt = .ok text ∧
      Geometry.ofWkt text = Geometry.ofGeoJson (lagoon [shore]) := by
  have hheld := isHeld_lagoon [shore] (by simp)
  have hlagoon : Geometry.ofGeoJson (lagoon [shore]) =
      .ok (.polygon (Polygon.ofRings corners [])) := rfl
  obtain ⟨hwritten, hread⟩ := toWkt_geoJson_iff hheld
  obtain ⟨text, htext⟩ := hwritten.mpr ⟨_, hlagoon, trivial⟩
  obtain ⟨g, hg, -, hkept, -⟩ := hread text htext
  obtain rfl := Except.ok.inj (hlagoon.symm.trans hg)
  exact ⟨hheld, text, htext, (hkept.mpr (.inl
    (List.forall_mem_singleton.mpr closeRing_corners_ne_nil))).trans hg.symm⟩

/-- With an empty hole its text is refused, and with an empty outer ring it is filled. -/
theorem not_toWkt_geoJson_lagoon :
    (∃ text, (geoJson (lagoon [shore, .arr []])).toWkt = .ok text ∧
      (Geometry.ofWkt (R := FlatDouble) text).isOk = false) ∧
    ∃ g text, Geometry.ofGeoJson (lagoon [.arr [], shore]) = .ok g ∧
      (geoJson (lagoon [.arr [], shore])).toWkt = .ok text ∧ Geometry.ofWkt text ≠ .ok g ∧
      Geometry.ofWkt text = Geometry.ofGeoJson (lagoon [shore]) := by
  constructor
  · have hlagoon : Geometry.ofGeoJson (lagoon [shore, .arr []]) =
        .ok (.polygon (Polygon.ofRings corners [[]])) := rfl
    have hsound := Geometry.isSound_of_ofGeoJson (isHeld_lagoon _ (by simp)) hlagoon
    refine ⟨(Geometry.polygon (Polygon.ofRings corners [[]])).toWkt, rfl,
      Bool.eq_false_iff.mpr fun haccepted => ?_⟩
    have hrings := (Geometry.isOk_ofWkt_toWkt_iff hsound).mp haccepted
    exact hrings [] (List.mem_singleton_self []) rfl
  · have hlagoon : Geometry.ofGeoJson (lagoon [.arr [], shore]) =
        .ok (.polygon (Polygon.ofRings [] [corners])) := rfl
    have hsound := Geometry.isSound_of_ofGeoJson (isHeld_lagoon _ (by simp)) hlagoon
    refine ⟨_, (Geometry.polygon (Polygon.ofRings [] [corners])).toWkt, hlagoon, rfl,
      fun heq => ?_, ?_⟩
    · rcases (Geometry.ofWkt_toWkt_eq_ok_iff hsound).mp heq with hfull | hnothing
      · exact hfull [] List.mem_cons_self rfl
      · cases hnothing
    · have hfilled : Geometry.ofGeoJson (lagoon [shore]) =
          .ok (.polygon (Polygon.ofRings corners [])) := rfl
      have hkept := Geometry.isSound_of_ofGeoJson (isHeld_lagoon _ (by simp)) hfilled
      have hwritten : Wkt.writtenRings (Polygon.ofRings corners []) =
          Wkt.writtenRings (Polygon.ofRings [] [corners]) := by
        rw [Polygon.writtenRings_of_ne_nil closeRing_corners_ne_nil,
          Polygon.writtenRings_of_nil rfl]
        rfl
      have htext : (Geometry.polygon (Polygon.ofRings corners [])).toWkt =
          (Geometry.polygon (Polygon.ofRings [] [corners])).toWkt :=
        congrArg (fun rings => String.ofList (Wkt.tagged "POLYGON" Wkt.linesChars rings)) hwritten
      rw [← htext, hfilled]
      exact (Geometry.ofWkt_toWkt_eq_ok_iff hkept).mpr (.inl
        (List.forall_mem_singleton.mpr closeRing_corners_ne_nil))

end Boundary

end TransitQuery
