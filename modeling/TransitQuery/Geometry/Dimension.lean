import TransitQuery.Geometry.Basic

/-!
# Dimensions

The dimension of a geometry is the greatest dimension among its positions' neighbourhoods in it. It
follows the positions and not the kind alone: a line without length is a point, and a polygon whose
outer ring has two positions only is a line.

A collection has the greatest dimension of its members, and a geometry without positions is empty.
The dimension decides how two figures can cross each other: what a crossing of a line with an area
bears out differs from what one of two lines does (`Geometry.incidence`).
-/

namespace TransitQuery

/-- What a figure consists of at most: nothing, points, lines or areas. -/
inductive Dimension where
  | empty
  | zero
  | one
  | two
  deriving DecidableEq

/-- The place of a dimension in their order. -/
def Dimension.rank : Dimension → Nat
  | empty => 0
  | zero => 1
  | one => 2
  | two => 3

/-- The greater of two dimensions. -/
def Dimension.join (a b : Dimension) : Dimension :=
  if a.rank < b.rank then b else a

variable {R : Type} [BEq R]

/-- The dimension of a line. -/
def lineDimension : List (Position R) → Dimension
  | [] => .empty
  | p :: rest => if rest.any (· != p) then .one else .zero

/-- The dimension of a polygon, as its outer ring tells. -/
def Polygon.dimension (g : Polygon R) : Dimension :=
  match g.exterior with
  | [] => .empty
  | p :: rest =>
    match rest.find? (· != p) with
    | none => .zero
    | some q => if rest.any fun r => r != p && r != q then .two else .one

namespace Geometry

mutual

/-- The dimension of a geometry. -/
def dimension : Geometry R → Dimension
  | point _ => .zero
  | lineString line => lineDimension line
  | polygon g => g.dimension
  | multiPoint points => if points.isEmpty then .empty else .zero
  | multiLineString lines => lines.foldl (fun d line => d.join (lineDimension line)) .empty
  | multiPolygon polygons => polygons.foldl (fun d g => d.join g.dimension) .empty
  | collection members => membersDimension members

/-- The greatest dimension of several geometries. -/
def membersDimension : List (Geometry R) → Dimension
  | [] => .empty
  | g :: rest => (dimension g).join (membersDimension rest)

end

end Geometry

end TransitQuery
