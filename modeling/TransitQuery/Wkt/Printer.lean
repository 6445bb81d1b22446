import TransitQuery.Geometry.Basic
import TransitQuery.Text.Joined

/-!
# Writing Well-Known Text

A geometry is written as the name of its kind followed by its parts in parentheses, or by `EMPTY`
when there are none. An outer ring without positions is left out of its polygon. Empty parts
inside others are written with nothing between their parentheses.

The kinds and their grammar are those of simple features in two dimensions. Coordinates are written
longitude first, separated by a blank, as plain decimals without exponent (`positionChars`). Parts
are separated by a comma without a blank.

Not every geometry can be written so that it comes back. A polygon whose outer ring has no position
loses it, and its first hole would be read as the outer ring; an empty hole or an empty line among
others leaves a pair of parentheses with nothing in it, which the reader refuses. When a text is
read back as the geometry it came from is settled in the theory of this text.
-/

namespace TransitQuery

namespace Wkt

variable {R : Type} [Scalar R]

/-- The two coordinates of a position. -/
def positionChars (p : Position R) : List Char :=
  Scalar.chars p.x ++ ' ' :: Scalar.chars p.y

/-- The positions of a line with commas between them. -/
def lineChars (line : List (Position R)) : List Char :=
  Text.separated [','] (line.map positionChars)

/-- Text in parentheses. -/
def parenthesized (s : List Char) : List Char :=
  '(' :: s ++ [')']

/-- Lines, each in parentheses, with commas between them; an empty list reads like one empty
line. -/
def linesChars (lines : List (List (Position R))) : List Char :=
  parenthesized (Text.separated [')', ',', '('] (lines.map lineChars))

/-- The rings that are written: all but an empty outer one. -/
def writtenRings (g : Polygon R) : List (List (Position R)) :=
  if g.exterior.isEmpty then g.interiors else g.rings

/-- The name of a kind, then the parts in parentheses, or `EMPTY` if there are none. -/
def tagged {α : Type} (name : String) (write : List α → List Char) (parts : List α) :
    List Char :=
  name.toList ++
    if parts.isEmpty then [' ', 'E', 'M', 'P', 'T', 'Y'] else parenthesized (write parts)

end Wkt

namespace Geometry

open Wkt

variable {R : Type} [Scalar R]

mutual

/-- The Well-Known Text of a geometry. -/
def wktChars : Geometry R → List Char
  | point p => tagged "POINT" (fun ps => lineChars ps) [p]
  | lineString line => tagged "LINESTRING" lineChars line
  | polygon g => tagged "POLYGON" linesChars (writtenRings g)
  | multiPoint points =>
    tagged "MULTIPOINT"
      (fun ps => Text.separated [','] (ps.map fun p => parenthesized (positionChars p)))
      points
  | multiLineString lines => tagged "MULTILINESTRING" linesChars lines
  | multiPolygon polygons =>
    tagged "MULTIPOLYGON"
      (fun gs => Text.separated [','] (gs.map fun g => parenthesized (linesChars (writtenRings g))))
      polygons
  | collection members =>
    "GEOMETRYCOLLECTION".toList ++
      match members with
      | [] => [' ', 'E', 'M', 'P', 'T', 'Y']
      | _ => parenthesized (membersWktChars members)

/-- The Well-Known Text of several geometries with commas between them. -/
def membersWktChars : List (Geometry R) → List Char
  | [] => []
  | [g] => wktChars g
  | g :: rest => wktChars g ++ ',' :: membersWktChars rest

end

/-- The Well-Known Text of a geometry. -/
def toWkt (g : Geometry R) : String :=
  String.ofList g.wktChars

end Geometry

end TransitQuery
