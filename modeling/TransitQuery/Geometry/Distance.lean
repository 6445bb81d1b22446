import TransitQuery.Geometry.Location

/-!
# Distances

Distances on the globe are great-circle distances in meters on a sphere. Distances in the plane
are in degrees and treat longitudes and latitudes alike. The position of a segment nearest to a
point is always sought in the plane.

There are two measures, and they do not agree on what is nearest. `Geometry.degrees?` is the
distance in the plane to the nearest position of a geometry, and zero inside of a polygon.
`Geometry.isWithin` measures in meters, but on each segment of a line it measures at the position
that is nearest in the plane, which is another one away from the equator. It has a rule for points
and for lines only.
-/

namespace TransitQuery

variable {R : Type} [Scalar R]

/-- The radius of the globe in meters. -/
def earthRadius : R := Scalar.ofInt 6371000

/-- The length of a degree of latitude in meters, by which radii become degrees. -/
def metersPerDegree : R := Scalar.ofInt 111320

/-- The square of the sine of half an angle. -/
def halfSineSquared (angle : R) : R :=
  let s := Scalar.sin (angle / Scalar.two)
  s * s

/-- The great-circle distance in meters. -/
def LatLng.haversine (p q : LatLng R) : R :=
  let dlat := Scalar.radians (q.lat - p.lat)
  let dlng := Scalar.radians (q.lng - p.lng)
  let a := halfSineSquared dlat +
    Scalar.cos (Scalar.radians p.lat) * Scalar.cos (Scalar.radians q.lat) * halfSineSquared dlng
  let c := Scalar.two * Scalar.atan2 (Scalar.sqrt a) (Scalar.sqrt (Scalar.one - a))
  earthRadius * c

/-- The point of the globe at a position. -/
def Position.latLng (p : Position R) : LatLng R :=
  ⟨p.y, p.x⟩

/-- The position of a segment that is nearest to another position in the plane. -/
def Segment.closest (s : Segment R) (p : Position R) : Position R :=
  let dx := s.stop.x - s.start.x
  let dy := s.stop.y - s.start.y
  let length := dx * dx + dy * dy
  -- without length there would be a division of zero by zero
  if length == Scalar.zero then s.start
  else
    let t := Scalar.clampUnit (((p.x - s.start.x) * dx + (p.y - s.start.y) * dy) / length)
    ⟨s.start.x + t * dx, s.start.y + t * dy⟩

/-- The distance in meters from a point to the nearest segment of a line. -/
def lineMeters? (line : List (Position R)) (point : LatLng R) : Option R :=
  Scalar.leastOf ((segments line).map fun s =>
    point.haversine (s.closest point.position).latLng)

/-- The distance of two positions in the plane. -/
def Position.distance (p q : Position R) : R :=
  Scalar.hypot (p.x - q.x) (p.y - q.y)

/-- The distance in the plane from a position to a line; a single position is a line, too. -/
def lineDegrees? (line : List (Position R)) (p : Position R) : Option R :=
  match line with
  | [q] => some (q.distance p)
  | _ => Scalar.leastOf ((segments line).map fun s => (s.closest p).distance p)

/-- The distance in the plane from a position to a polygon, zero inside. -/
def Polygon.degrees? (g : Polygon R) (p : Position R) : Option R :=
  if g.contains p then some Scalar.zero
  else Scalar.leastOf (g.rings.filterMap (lineDegrees? · p))

namespace Geometry

mutual

/-- The distance in the plane from a position to a geometry; none to a geometry without
positions. -/
def degrees? (p : Position R) : Geometry R → Option R
  | point q => some (q.distance p)
  | lineString line => lineDegrees? line p
  | polygon g => g.degrees? p
  | multiPoint points => Scalar.leastOf (points.map (·.distance p))
  | multiLineString lines => Scalar.leastOf (lines.filterMap (lineDegrees? · p))
  | multiPolygon polygons => Scalar.leastOf (polygons.filterMap (·.degrees? p))
  | collection members => Scalar.leastOf (memberDegrees p members)

/-- The distances in the plane from a position to several geometries. -/
def memberDegrees (p : Position R) : List (Geometry R) → List R
  | [] => []
  | g :: rest => (degrees? p g).toList ++ memberDegrees p rest

end

/-- Whether a geometry lies within so many meters of a point, judged by its nearest segment.
Geometries other than points and lines never do. -/
def isWithin (g : Geometry R) (point : LatLng R) (meters : R) : Bool :=
  match g with
  | .point p => point.haversine p.latLng ≤ meters
  | .lineString line => (lineMeters? line point).any (· ≤ meters)
  | .multiLineString lines => lines.any fun line => (lineMeters? line point).any (· ≤ meters)
  | _ => false

end Geometry

end TransitQuery
