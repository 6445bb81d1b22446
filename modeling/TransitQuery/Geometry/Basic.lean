import TransitQuery.Scalar.Basic

/-!
# Geometries

Positions in the plane of longitudes and latitudes, and the seven kinds of geometry over them.
The rings of a polygon are closed: `Polygon.ofRings` repeats the first position of a ring at its
end where it does not stand there already.

All definitions are generic in the scalar. A geometry may be a collection of geometries, to any
depth, so what recurses over geometries comes in pairs: one function for a geometry and one for a
list of members, in a mutual block. Nothing is asked of the positions: a line may have none or one,
a ring may cross itself, and a hole may lie anywhere. What these come to is told by the functions
that meet them.
-/

namespace TransitQuery

/-- A position on the globe in degrees. -/
structure LatLng (R : Type) where
  lat : R
  lng : R
  deriving DecidableEq, BEq

/-- A position in the plane: the longitude across and the latitude up. -/
structure Position (R : Type) where
  x : R
  y : R
  deriving DecidableEq, BEq

/-- A piece of a line between two positions. -/
structure Segment (R : Type) where
  start : Position R
  stop : Position R

/-- An outer ring and the rings of its holes. -/
structure Polygon (R : Type) where
  exterior : List (Position R)
  interiors : List (List (Position R))

/-- A figure in the plane. -/
inductive Geometry (R : Type) where
  | point (p : Position R)
  | lineString (line : List (Position R))
  | polygon (p : Polygon R)
  | multiPoint (points : List (Position R))
  | multiLineString (lines : List (List (Position R)))
  | multiPolygon (polygons : List (Polygon R))
  | collection (members : List (Geometry R))

/-- The position of a point of the globe in the plane. -/
def LatLng.position {R : Type} (p : LatLng R) : Position R :=
  ⟨p.lng, p.lat⟩

/-- Whether both coordinates are finite. -/
def LatLng.isFinite {R : Type} [Scalar R] (p : LatLng R) : Bool :=
  Scalar.isFinite p.lat && Scalar.isFinite p.lng

/-- The segments between neighbours on a line. -/
def segments {R : Type} : List (Position R) → List (Segment R)
  | a :: b :: rest => ⟨a, b⟩ :: segments (b :: rest)
  | _ => []

/-- Whether a line ends where it starts. The empty line does. -/
def isClosed {R : Type} [BEq R] (line : List (Position R)) : Bool :=
  line.head? == line.getLast?

/-- A ring that ends where it starts. -/
def closeRing {R : Type} [BEq R] (ring : List (Position R)) : List (Position R) :=
  if isClosed ring then ring else ring ++ ring.head?.toList

namespace Polygon

variable {R : Type}

/-- The polygon with the given rings, closed. -/
def ofRings [BEq R] (exterior : List (Position R)) (interiors : List (List (Position R))) :
    Polygon R where
  exterior := closeRing exterior
  interiors := interiors.map closeRing

/-- All rings, the outer one first. -/
def rings (p : Polygon R) : List (List (Position R)) :=
  p.exterior :: p.interiors

end Polygon

namespace Geometry

variable {R : Type}

/-- The name of the kind of a geometry. -/
def kind : Geometry R → String
  | point _ => "Point"
  | lineString _ => "LineString"
  | polygon _ => "Polygon"
  | multiPoint _ => "MultiPoint"
  | multiLineString _ => "MultiLineString"
  | multiPolygon _ => "MultiPolygon"
  | collection _ => "GeometryCollection"

mutual

/-- All positions of a geometry. -/
def positions : Geometry R → List (Position R)
  | point p => [p]
  | lineString line => line
  | polygon p => p.rings.flatten
  | multiPoint points => points
  | multiLineString lines => lines.flatten
  | multiPolygon polygons => polygons.flatMap fun p => p.rings.flatten
  | collection members => memberPositions members

/-- All positions of several geometries. -/
def memberPositions : List (Geometry R) → List (Position R)
  | [] => []
  | g :: rest => positions g ++ memberPositions rest

end

end Geometry

end TransitQuery
