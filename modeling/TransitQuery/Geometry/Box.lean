import TransitQuery.Geometry.Basic
import TransitQuery.Json.Record

/-!
# Bounding boxes

A box has sides along the axes and includes them. The box of a geometry is the least one that
holds its positions; of a polygon only the outer ring counts.

Comparisons with a side that is no number are false, so `Box.intersects` and `Box.isApart` are not
each the negation of the other: two boxes with such sides are neither known to share a position nor
known to lie apart. A collection has the box of its members, and one without positions has none.
Boxes are written in JSON with their four sides, the lesser one of each pair first.
-/

namespace TransitQuery

/-- A box with sides along the axes. -/
structure Box (R : Type) where
  minx : R
  miny : R
  maxx : R
  maxy : R
  deriving DecidableEq, BEq

namespace Box

variable {R : Type} [Coordinate R]

/-- Whether two boxes share a position. -/
def intersects (a b : Box R) : Bool :=
  a.minx ≤ b.maxx && b.minx ≤ a.maxx && a.miny ≤ b.maxy && b.miny ≤ a.maxy

/-- Whether two boxes lie apart. It takes a side of one beyond a side of the other, so that boxes
with sides that are no numbers do not. -/
def isApart (a b : Box R) : Bool :=
  a.maxx < b.minx || a.maxy < b.miny || b.maxx < a.minx || b.maxy < a.miny

/-- Whether what is there of two boxes lies apart. -/
def areApart : Option (Box R) → Option (Box R) → Bool
  | some a, some b => a.isApart b
  | _, _ => false

/-- Whether a box holds a position. -/
def contains (b : Box R) (p : Position R) : Bool :=
  b.minx ≤ p.x && p.x ≤ b.maxx && b.miny ≤ p.y && p.y ≤ b.maxy

/-- Widens an interval so that it holds a value. -/
def widen (v low high : R) : R × R :=
  if high < v then (low, v) else if v < low then (v, high) else (low, high)

/-- Widens a box so that it holds a position. -/
def including (b : Box R) (p : Position R) : Box R :=
  let (minx, maxx) := widen p.x b.minx b.maxx
  let (miny, maxy) := widen p.y b.miny b.maxy
  ⟨minx, miny, maxx, maxy⟩

/-- The least box that holds the given positions, if there are any. -/
def ofPositions : List (Position R) → Option (Box R)
  | [] => none
  | p :: rest => some (rest.foldl including ⟨p.x, p.y, p.x, p.y⟩)

/-- The least box that holds two boxes. -/
def join (a b : Box R) : Box R where
  minx := if a.minx < b.minx then a.minx else b.minx
  miny := if a.miny < b.miny then a.miny else b.miny
  maxx := if b.maxx < a.maxx then a.maxx else b.maxx
  maxy := if b.maxy < a.maxy then a.maxy else b.maxy

/-- The least box that holds what is there of two boxes. -/
def joinOptions : Option (Box R) → Option (Box R) → Option (Box R)
  | some a, some b => some (join a b)
  | some a, none => some a
  | none, b => b

end Box

namespace Geometry

variable {R : Type} [Coordinate R]

mutual

/-- The least box that holds a geometry, if it has positions. -/
def box? : Geometry R → Option (Box R)
  | point p => Box.ofPositions [p]
  | lineString line => Box.ofPositions line
  | polygon p => Box.ofPositions p.exterior
  | multiPoint points => Box.ofPositions points
  | multiLineString lines => Box.ofPositions lines.flatten
  | multiPolygon polygons => Box.ofPositions (polygons.flatMap Polygon.exterior)
  | collection members => membersBox? members none

/-- The least box that holds a box and several geometries. -/
def membersBox? : List (Geometry R) → Option (Box R) → Option (Box R)
  | [], b => b
  | g :: rest, b => membersBox? rest (Box.joinOptions b (box? g))

end

end Geometry

namespace Box

variable {R : Type} [Scalar R]

/-- Reads a box. -/
def ofJson? (v : Json R) : Option (Box R) := do
  let [minx, miny, maxx, maxy] ← v.fields? ["minx", "miny", "maxx", "maxy"] | none
  return {
    minx := ← Json.required Json.number? minx
    miny := ← Json.required Json.number? miny
    maxx := ← Json.required Json.number? maxx
    maxy := ← Json.required Json.number? maxy }

/-- Writes a box. -/
def toJson (b : Box R) : Json R :=
  .obj [("minx", Json.ofScalar b.minx), ("miny", Json.ofScalar b.miny),
    ("maxx", Json.ofScalar b.maxx), ("maxy", Json.ofScalar b.maxy)]

end Box

end TransitQuery
