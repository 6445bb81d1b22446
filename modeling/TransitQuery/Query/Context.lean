import TransitQuery.Geometry.Basic
import TransitQuery.Json.Reader
import TransitQuery.Json.Record

/-!
# Contexts

A context says what the data set and its engine can do, and what the user has selected: which
columns there are, whether exact spatial tests are available, the selected point and the selected
boundary. A boundary is Well-Known Text if it is given as a string and GeoJSON if it is any other
value but `null`.

Capabilities are claims and not checked against the data: `spatialReady` without a geometry column
and `bboxReady` without the names of the columns can both be written down, and what follows from
such a context is decided where a tier or a clause needs what is missing. A point is a pair of
scalars without a range; a latitude beyond the poles and a coordinate that is no number are
possible here.

Every field has a default, so that the empty object reads as the empty context. All fields are
written, absent ones as `null`. A boundary given as GeoJSON is normalized when it is read: its
members are sorted and repeated names are resolved.
-/

namespace TransitQuery

/-- The names of the four columns that hold the bounding box of a row. -/
structure BoxColumns where
  minx : String
  miny : String
  maxx : String
  maxy : String
  deriving DecidableEq

/-- A boundary as the caller gives it. -/
inductive Boundary (R : Type) where
  | wkt (text : String)
  | geoJson (value : Json R)
  deriving BEq

/-- What the data set can do and what the user has selected. -/
structure Context (R : Type) where
  /-- The column with the identifier of a route or stop. -/
  serviceIdField : Option String
  /-- Whether the engine has exact spatial tests. -/
  spatialReady : Bool
  /-- The column with the geometry of a row. -/
  geometryField : Option String
  /-- Whether rows have bounding-box columns. -/
  bboxReady : Bool
  bboxFields : Option BoxColumns
  /-- The columns that may hold the operator. -/
  operatorFields : List String
  /-- The column with the mode. -/
  modeField : Option String
  /-- The column with the geometry of a row as GeoJSON. -/
  geojsonField : Option String
  point : Option (LatLng R)
  boundary : Option (Boundary R)
  deriving BEq

/-- The column names in use where none are chosen. -/
def BoxColumns.default : BoxColumns :=
  ⟨"minx", "miny", "maxx", "maxy"⟩

/-- The four names, lower corner first. -/
def BoxColumns.names (c : BoxColumns) : List String :=
  [c.minx, c.miny, c.maxx, c.maxy]

namespace Context

variable {R : Type}

/-- A context without capabilities and selections. -/
def empty : Context R where
  serviceIdField := none
  spatialReady := false
  geometryField := none
  bboxReady := false
  bboxFields := none
  operatorFields := []
  modeField := none
  geojsonField := none
  point := none
  boundary := none

/-- Whether a point is selected. -/
def hasPoint (c : Context R) : Bool :=
  c.point.isSome

/-- Whether a boundary is selected. -/
def hasBoundary (c : Context R) : Bool :=
  c.boundary.isSome

end Context

/-- Reads column names. -/
def BoxColumns.ofJson? {R : Type} (v : Json R) : Option BoxColumns := do
  let [minx, miny, maxx, maxy] ← v.fields? ["minx", "miny", "maxx", "maxy"] | none
  return {
    minx := ← Json.required Json.string? minx
    miny := ← Json.required Json.string? miny
    maxx := ← Json.required Json.string? maxx
    maxy := ← Json.required Json.string? maxy }

/-- Writes column names. -/
def BoxColumns.toJson {R : Type} (c : BoxColumns) : Json R :=
  .obj [("minx", .str c.minx), ("miny", .str c.miny), ("maxx", .str c.maxx),
    ("maxy", .str c.maxy)]

namespace Boundary

variable {R : Type}

/-- Reads a boundary from a value that is not `null`. -/
def ofJson? : Json R → Option (Boundary R)
  | .str text => some (wkt text)
  | v => some (geoJson v.normalize)

/-- Writes a boundary. -/
def toJson : Boundary R → Json R
  | wkt text => .str text
  | geoJson value => value

end Boundary

variable {R : Type} [Scalar R]

/-- Reads a position. -/
def LatLng.ofJson? (v : Json R) : Option (LatLng R) := do
  let [lat, lng] ← v.fields? ["lat", "lng"] | none
  return { lat := ← Json.required Json.number? lat, lng := ← Json.required Json.number? lng }

/-- Writes a position. -/
def LatLng.toJson (p : LatLng R) : Json R :=
  .obj [("lat", Json.ofScalar p.lat), ("lng", Json.ofScalar p.lng)]

namespace Context

/-- Reads a context. -/
def ofJson? (v : Json R) : Option (Context R) := do
  let [serviceIdField, spatialReady, geometryField, bboxReady, bboxFields, operatorFields,
      modeField, geojsonField, point, boundary] ←
    v.fields? ["serviceIdField", "spatialReady", "geometryField", "bboxReady", "bboxFields",
      "operatorFields", "modeField", "geojsonField", "point", "boundary"] | none
  return {
    serviceIdField := ← Json.optional Json.string? serviceIdField
    spatialReady := ← Json.orElse false Json.bool? spatialReady
    geometryField := ← Json.optional Json.string? geometryField
    bboxReady := ← Json.orElse false Json.bool? bboxReady
    bboxFields := ← Json.optional BoxColumns.ofJson? bboxFields
    operatorFields := ← Json.orElse [] (Json.listOf? Json.string?) operatorFields
    modeField := ← Json.optional Json.string? modeField
    geojsonField := ← Json.optional Json.string? geojsonField
    point := ← Json.optional LatLng.ofJson? point
    boundary := ← Json.optional Boundary.ofJson? boundary }

/-- The members of a context. -/
def shape : Json.Shape :=
  .record [("serviceIdField", .any), ("spatialReady", .any), ("geometryField", .any),
    ("bboxReady", .any), ("bboxFields", .ofNames ["minx", "miny", "maxx", "maxy"]),
    ("operatorFields", .any), ("modeField", .any), ("geojsonField", .any),
    ("point", .ofNames ["lat", "lng"]), ("boundary", .any)]

/-- Reads the text of a context. -/
def ofText? (text : String) : Option (Context R) :=
  (Json.parse? shape text).bind ofJson?

/-- Writes a context with all its fields. -/
def toJson (c : Context R) : Json R :=
  .obj [("serviceIdField", Json.ofOption .str c.serviceIdField),
    ("spatialReady", .bool c.spatialReady),
    ("geometryField", Json.ofOption .str c.geometryField),
    ("bboxReady", .bool c.bboxReady),
    ("bboxFields", Json.ofOption BoxColumns.toJson c.bboxFields),
    ("operatorFields", .arr (c.operatorFields.map .str)),
    ("modeField", Json.ofOption .str c.modeField),
    ("geojsonField", Json.ofOption .str c.geojsonField),
    ("point", Json.ofOption LatLng.toJson c.point),
    ("boundary", Json.ofOption Boundary.toJson c.boundary)]

end Context

end TransitQuery
