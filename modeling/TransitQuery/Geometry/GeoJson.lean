import TransitQuery.Geometry.Basic
import TransitQuery.Json.Printer

/-!
# Geometries in GeoJSON

`Geometry.ofGeoJson` reads a geometry object. A feature stands for its geometry, a collection for
its members, and the other six kinds have coordinates nested to a depth that depends on the kind.
Positions are arrays that start with a longitude and a latitude; what follows is passed over.

The kind is the member `type`, and other members than those of the kind are passed over. A feature
without a geometry is an error. Rings are closed when they are read. The errors tell what is wrong,
in the words of the program (`GeometryError.message`): a kind that is not known is told apart from
everything else. What is read first decides, since reading stops at the first error, in the order
of the document.
-/

namespace TransitQuery

/-- Why a value or a text is no geometry. -/
inductive GeometryError (R : Type) where
  | notAnObject
  | noType
  | featureWithoutGeometry
  | collectionWithoutMembers
  | noCoordinates (kind : String)
  | unsupportedKind (kind : String)
  | notAnArray
  | badPosition
  | noRings
  | unreadableText
  | notACell (value : Json R)

namespace GeometryError

variable {R : Type} [Scalar R]

/-- What is wrong, in words. -/
def detail : GeometryError R → String
  | notAnObject => "GeoJSON geometry must be an object"
  | noType => "GeoJSON object has no type"
  | featureWithoutGeometry => "feature has no geometry"
  | collectionWithoutMembers => "collection has no geometries"
  | noCoordinates kind => kind ++ " has no coordinates"
  | unsupportedKind kind => kind
  | notAnArray => "coordinates must be an array"
  | badPosition => "a position needs numeric [lng, lat]"
  | noRings => "polygon has no rings"
  | unreadableText => "unreadable geometry text"
  | notACell value => "expected a geometry, found " ++ value.compact

/-- The wording of an error. -/
def message : GeometryError R → String
  | unsupportedKind kind => "unsupported geometry type: " ++ kind
  | e => "invalid geometry: " ++ e.detail

end GeometryError

namespace Geometry

variable {R : Type} [Scalar R]

/-! ### Coordinates -/

/-- The items of an array of coordinates. -/
def coordinateItems (v : Json R) : Except (GeometryError R) (List (Json R)) :=
  match v.items? with
  | some items => .ok items
  | none => .error .notAnArray

/-- A position. -/
def positionOf (v : Json R) : Except (GeometryError R) (Position R) := do
  match ← coordinateItems v with
  | x :: y :: _ =>
    match x.number?, y.number? with
    | some x, some y => .ok ⟨x, y⟩
    | _, _ => .error .badPosition
  | _ => .error .badPosition

/-- An array of positions. -/
def lineOf (v : Json R) : Except (GeometryError R) (List (Position R)) := do
  (← coordinateItems v).mapM positionOf

/-- An array of lines. -/
def linesOf (v : Json R) : Except (GeometryError R) (List (List (Position R))) := do
  (← coordinateItems v).mapM lineOf

/-- An array of rings, the outer one first. -/
def polygonOf (v : Json R) : Except (GeometryError R) (Polygon R) := do
  match ← linesOf v with
  | exterior :: interiors => .ok (Polygon.ofRings exterior interiors)
  | [] => .error .noRings

/-- An array of polygons. -/
def polygonsOf (v : Json R) : Except (GeometryError R) (List (Polygon R)) := do
  (← coordinateItems v).mapM polygonOf

/-- The geometry of a kind that has coordinates. -/
def ofCoordinates (kind : String) (v : Json R) : Except (GeometryError R) (Geometry R) :=
  if kind = "Point" then (positionOf v).map point
  else if kind = "MultiPoint" then (lineOf v).map multiPoint
  else if kind = "LineString" then (lineOf v).map lineString
  else if kind = "MultiLineString" then (linesOf v).map multiLineString
  else if kind = "Polygon" then (polygonOf v).map polygon
  else if kind = "MultiPolygon" then (polygonsOf v).map multiPolygon
  else .error (.unsupportedKind kind)

/-! ### Objects -/

mutual

/-- Reads a geometry object. -/
def ofGeoJson : Json R → Except (GeometryError R) (Geometry R)
  | .obj members =>
    match (Json.lookup "type" members).bind Json.string? with
    | none => .error .noType
    | some kind =>
      if kind = "Feature" then ofFeature members
      else if kind = "GeometryCollection" then ofCollection members
      else
        match Json.lookup "coordinates" members with
        | none => .error (.noCoordinates kind)
        | some v => ofCoordinates kind v
  | _ => .error .notAnObject

/-- The geometry of the feature with the given members. -/
def ofFeature : List (String × Json R) → Except (GeometryError R) (Geometry R)
  | [] => .error .featureWithoutGeometry
  | (name, v) :: rest =>
    if name = "geometry" then
      match v with
      | .null => .error .featureWithoutGeometry
      | v => ofGeoJson v
    else ofFeature rest

/-- The collection with the given members. -/
def ofCollection : List (String × Json R) → Except (GeometryError R) (Geometry R)
  | [] => .error .collectionWithoutMembers
  | (name, v) :: rest =>
    if name = "geometries" then
      match v with
      | .arr items => (ofItems items).map collection
      | _ => .error .collectionWithoutMembers
    else ofCollection rest

/-- Reads geometry objects one after the other. -/
def ofItems : List (Json R) → Except (GeometryError R) (List (Geometry R))
  | [] => .ok []
  | v :: rest =>
    match ofGeoJson v with
    | .error e => .error e
    | .ok g =>
      match ofItems rest with
      | .error e => .error e
      | .ok gs => .ok (g :: gs)

end

end Geometry

end TransitQuery
