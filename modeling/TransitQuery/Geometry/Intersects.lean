import TransitQuery.Geometry.Box
import TransitQuery.Geometry.Location

/-!
# Figures that share a position

`Geometry.intersects` holds of two geometries that have a position in common, borders included. The
second is taken apart into positions, segments and polygons, its pieces, and each piece is held
against the parts of the first. On the way down a part whose box lies apart from the other figure
is passed over. The box of a polygon is that of its outer ring, so that of a hole that leaves its
polygon only what lies in the box counts.

A line with fewer than two positions has no segments and meets nothing.

A polygon is met by what is on one of its rings or inside; a segment that is neither crosses no
ring, and so lies on one side of each of them. All decisions are made by turns and by comparing
coordinates, so no position is computed.
-/

namespace TransitQuery

/-- What is held as a whole against another figure. -/
inductive Piece (R : Type) where
  | position (p : Position R)
  | segment (s : Segment R)
  | area (g : Polygon R)

variable {R : Type} [Coordinate R]

/-! ### Lines and polygons -/

/-- Whether the boxes of two lines lie apart. -/
def linesAreApart (a b : List (Position R)) : Bool :=
  Box.areApart (Box.ofPositions a) (Box.ofPositions b)

/-- Whether a line holds a position. -/
def lineMeets (line : List (Position R)) (p : Position R) : Bool :=
  !linesAreApart line [p] && (segments line).any (·.meets p)

/-- Whether a line and a segment share a position. -/
def lineMeetsSegment (line : List (Position R)) (s : Segment R) : Bool :=
  !linesAreApart line [s.start, s.stop] && (segments line).any (·.intersects s)

namespace Polygon

/-- Whether a polygon holds a position. -/
def meets (g : Polygon R) (p : Position R) : Bool :=
  g.locate p != .outside

/-- Whether a polygon and a segment share a position. -/
def meetsSegment (g : Polygon R) (s : Segment R) : Bool :=
  g.rings.any (lineMeetsSegment · s) || g.meets s.start || g.meets s.stop

/-- Whether a polygon and a line share a position. -/
def meetsLine (g : Polygon R) (line : List (Position R)) : Bool :=
  !linesAreApart line g.exterior && (segments line).any g.meetsSegment

/-- Whether two polygons share a position. -/
def intersects (g h : Polygon R) : Bool :=
  !linesAreApart g.exterior h.exterior &&
    (h.rings.any g.meetsLine || h.meetsLine g.exterior)

end Polygon

/-! ### Pieces -/

namespace Piece

/-- The box of a piece. -/
def box? : Piece R → Option (Box R)
  | position p => Box.ofPositions [p]
  | segment s => Box.ofPositions [s.start, s.stop]
  | area g => Box.ofPositions g.exterior

/-- Whether a piece holds a position. -/
def meets (p : Position R) : Piece R → Bool
  | position q => p == q
  | segment s => s.meets p
  | area g => g.meets p

/-- Whether a piece and a line share a position. -/
def meetsLine (line : List (Position R)) : Piece R → Bool
  | position p => lineMeets line p
  | segment s => lineMeetsSegment line s
  | area g => g.meetsLine line

/-- Whether a piece and a polygon share a position. -/
def meetsPolygon (g : Polygon R) : Piece R → Bool
  | position p => g.meets p
  | segment s => g.meetsSegment s
  | area h => g.intersects h

end Piece

namespace Geometry

/-- Whether the boxes of a geometry and a piece lie apart. -/
def isApart (g : Geometry R) (piece : Piece R) : Bool :=
  Box.areApart g.box? piece.box?

mutual

/-- Whether a geometry and a piece share a position. -/
def meetsPiece (piece : Piece R) : Geometry R → Bool
  | point p => !isApart (point p) piece && piece.meets p
  | lineString line => piece.meetsLine line
  | polygon g => !isApart (polygon g) piece && piece.meetsPolygon g
  | multiPoint points => !isApart (multiPoint points) piece && points.any piece.meets
  | multiLineString lines => !isApart (multiLineString lines) piece && lines.any piece.meetsLine
  | multiPolygon polygons =>
    !isApart (multiPolygon polygons) piece && polygons.any piece.meetsPolygon
  | collection members => !isApart (collection members) piece && anyMeetsPiece piece members

/-- Whether one of several geometries and a piece share a position. -/
def anyMeetsPiece (piece : Piece R) : List (Geometry R) → Bool
  | [] => false
  | g :: rest => meetsPiece piece g || anyMeetsPiece piece rest

end

/-- Whether a geometry and a line share a position. -/
def meetsLine (g : Geometry R) (line : List (Position R)) : Bool :=
  !Box.areApart g.box? (Box.ofPositions line) &&
    (segments line).any fun s => g.meetsPiece (.segment s)

mutual

/-- Whether two geometries share a position. -/
def intersects (h : Geometry R) : Geometry R → Bool
  | point p => h.meetsPiece (.position p)
  | lineString line => h.meetsLine line
  | polygon g => h.meetsPiece (.area g)
  | multiPoint points =>
    !Box.areApart (box? (multiPoint points)) h.box? &&
      points.any fun p => h.meetsPiece (.position p)
  | multiLineString lines =>
    !Box.areApart (box? (multiLineString lines)) h.box? && lines.any h.meetsLine
  | multiPolygon polygons =>
    !Box.areApart (box? (multiPolygon polygons)) h.box? &&
      polygons.any fun g => h.meetsPiece (.area g)
  | collection members =>
    !Box.areApart (box? (collection members)) h.box? && anyIntersects h members

/-- Whether one of several geometries shares a position with another one. -/
def anyIntersects (h : Geometry R) : List (Geometry R) → Bool
  | [] => false
  | g :: rest => intersects h g || anyIntersects h rest

end

end Geometry

end TransitQuery
