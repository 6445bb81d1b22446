import TransitQuery.Geometry.GeoJson
import TransitQuery.Query.Context
import TransitQuery.Text.Blank
import TransitQuery.Wkt.Printer

/-!
# Boundaries as Well-Known Text

Predicates hold their boundary as Well-Known Text. A boundary that is given as such is only
trimmed. One that is given as GeoJSON must be a point, a line, a polygon or several polygons;
features around it are opened.

A text is not parsed here. A boundary that is given as Well-Known Text reaches the predicate as it
is, and one that is no geometry is found out by whoever decides the predicate. A GeoJSON boundary
is read, so that its faults are reported at once, and then written as text again.

Features nest: the geometry of a feature may be a feature. A feature without a geometry, or with
`null` for one, has no boundary. The order in which a feature names its members does not matter,
and its properties are ignored. Geometry collections, multi-points and multi-lines are refused by
their kind, empty or not.
-/

namespace TransitQuery

/-- Why a boundary has no text. -/
inductive BoundaryError (R : Type) where
  | emptyText
  | notAnObject
  | featureWithoutGeometry
  | badGeometry (cause : GeometryError R)
  | unsupportedKind (kind : String)

namespace BoundaryError

variable {R : Type} [Scalar R]

/-- The wording of an error. -/
def message : BoundaryError R → String
  | emptyText => missing "an empty WKT boundary"
  | notAnObject => missing "a boundary with neither WKT nor GeoJSON geometry"
  | featureWithoutGeometry => missing "a feature without geometry"
  | badGeometry cause => cause.message
  | unsupportedKind kind =>
    "unsupported geometry type: " ++ kind ++ " is not a supported boundary type"
where
  /-- The wording when something else stands for a boundary. -/
  missing (what : String) : String := "a boundary geometry is required for " ++ what

end BoundaryError

namespace Boundary

variable {R : Type} [Scalar R]

/-- The text of a geometry that can be a boundary. -/
def geometryToWkt : Geometry R → Except (BoundaryError R) String
  | .point p => .ok (Geometry.point p).toWkt
  | .lineString line => .ok (Geometry.lineString line).toWkt
  | .polygon g => .ok (Geometry.polygon g).toWkt
  | .multiPolygon gs => .ok (Geometry.multiPolygon gs).toWkt
  | g => .error (.unsupportedKind g.kind)

/-- The text of a geometry object that is no feature. -/
def objectToWkt (members : List (String × Json R)) : Except (BoundaryError R) String :=
  match Geometry.ofGeoJson (.obj members) with
  | .ok g => geometryToWkt g
  | .error cause => .error (.badGeometry cause)

/-- Whether the members of an object are those of a feature. -/
def isFeature (members : List (String × Json R)) : Bool :=
  (Json.lookup "type" members).bind Json.string? = some "Feature"

mutual

/-- The text of a GeoJSON boundary. -/
def geoJsonToWkt : Json R → Except (BoundaryError R) String
  | .obj members => if isFeature members then featureToWkt members else objectToWkt members
  | _ => .error .notAnObject

/-- The text of the geometry of a feature with the given members. -/
def featureToWkt : List (String × Json R) → Except (BoundaryError R) String
  | [] => .error .featureWithoutGeometry
  | (name, v) :: rest =>
    if name = "geometry" then
      match v with
      | .null => .error .featureWithoutGeometry
      | v => geoJsonToWkt v
    else featureToWkt rest

end

/-- The Well-Known Text of a boundary. -/
def toWkt : Boundary R → Except (BoundaryError R) String
  | wkt text => if Text.isBlankString text then .error .emptyText else .ok (Text.trimmed text)
  | geoJson value => geoJsonToWkt value

end Boundary

end TransitQuery
