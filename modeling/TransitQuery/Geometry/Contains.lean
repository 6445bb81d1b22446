import TransitQuery.Geometry.Intersects
import TransitQuery.Geometry.Topology.Relate

/-!
# Figures within others

`Geometry.contains` holds if one geometry has another within it. In general that means: no
position inside or on the boundary of the second is outside the first, and some position is
inside both, so that a figure does not contain what lies on its boundary alone. Some pairs of
kinds have a rule of their own, which differs where figures are degenerate.

The general rule looks at the incidence of the two geometries (`Incidence.isContaining`). The rules
for points and lines do not: a point is looked up, and whether a line covers another one is decided
segment by segment, cutting off what each segment of the first covers until nothing is left. Empty
parts matter here, since a geometry that has nothing inside is within none.
-/

namespace TransitQuery

/-! ### The general rule -/

variable {R : Type} [Scalar R]

/-- The general rule. -/
def Geometry.covers (g h : Geometry R) : Bool :=
  (g.incidence h).isContaining

/-! ### Points -/

/-- Whether a position lies on a line but is none of the ends of an open one. -/
def lineContains (line : List (Position R)) (p : Position R) : Bool :=
  if line.head? == some p || line.getLast? == some p then isClosed line
  else lineMeets line p

namespace Geometry

mutual

/-- Whether a geometry has a position within it. -/
def containsPosition (p : Position R) : Geometry R → Bool
  | point q => q == p
  | lineString line => lineContains line p
  | polygon g => g.contains p
  | multiPoint points => points.any (· == p)
  | multiLineString lines => lines.any (lineContains · p)
  | multiPolygon polygons => polygons.any (·.contains p)
  | collection members => anyContainsPosition p members

/-- Whether one of several geometries has a position within it. -/
def anyContainsPosition (p : Position R) : List (Geometry R) → Bool
  | [] => false
  | g :: rest => containsPosition p g || anyContainsPosition p rest

end

end Geometry

/-- Whether a line has positions and all of them are the given one. -/
def isOnly (p : Position R) (line : List (Position R)) : Bool :=
  !line.isEmpty && line.all (· == p)

/-- Whether a polygon has an outer ring and all positions of its rings are the given one. -/
def Polygon.isOnly (p : Position R) (g : Polygon R) : Bool :=
  TransitQuery.isOnly p g.exterior && g.interiors.all (·.all (· == p))

namespace Geometry

mutual

/-- Whether a geometry lies within a point: all its parts are that point, and none is empty. -/
def isWithinPoint (p : Position R) : Geometry R → Bool
  | point q => q == p
  | lineString line => isOnly p line
  | polygon g => g.isOnly p
  | multiPoint points => isOnly p points
  | multiLineString lines => !lines.isEmpty && lines.all (isOnly p)
  | multiPolygon polygons => !polygons.isEmpty && polygons.all (·.isOnly p)
  | collection members => !members.isEmpty && allAreWithinPoint p members

/-- Whether each of several geometries lies within a point. -/
def allAreWithinPoint (p : Position R) : List (Geometry R) → Bool
  | [] => true
  | g :: rest => isWithinPoint p g && allAreWithinPoint p rest

end

end Geometry

/-! ### Lines -/

/-- The part of `rest` that a segment of a line does not cover, when the segment holds one end of
it and one of the segment's ends lies on `rest`; the outer option is empty when the segment says
nothing about `rest`, the inner one when nothing is left. -/
def Segment.cutFrom (s rest : Segment R) : Option (Option (Segment R)) :=
  let cut (other : Position R) (shorten : Position R → Segment R) : Option (Option (Segment R)) :=
    if s.meets other then some none
    else if rest.contains s.start then some (some (shorten s.start))
    else if rest.contains s.stop then some (some (shorten s.stop))
    else none
  if s.meets rest.start then cut rest.stop fun p => ⟨p, rest.stop⟩
  else if s.meets rest.stop then cut rest.start fun p => ⟨rest.start, p⟩
  else none

/-- Whether the segments left cover what is left of a segment. The segments of the line are walked
through twice, but the second time only up to the one that made the first cut; `first` counts
down to it from the first cut on, over as many segments as the line has. -/
def coversRest (count : Nat) :
    List (Segment R) → (walked : Nat) → (first : Option Nat) → Segment R → Bool
  | [], _, _, _ => false
  | s :: segs, walked, first, rest =>
    -- Without a cut there is no second walk, and with one it ends at the segment that made it.
    let stop :=
      if walked < count then false
      else
        match first with
        | none => true
        | some i => count + i ≤ walked
    if stop then false
    else
      match s.cutFrom rest with
      | none => coversRest count segs (walked + 1) first rest
      | some none => true
      | some (some rest) => coversRest count segs (walked + 1) (first.or (some walked)) rest

/-- Whether a line covers a segment. -/
def lineCoversSegment (line : List (Position R)) (s : Segment R) : Bool :=
  if s.start == s.stop then lineContains line s.start
  else
    let segs := segments line
    coversRest segs.length (segs ++ segs) 0 none s

/-- Whether a line covers every segment of another. -/
def lineCoversLine (line other : List (Position R)) : Bool :=
  !line.isEmpty && !other.isEmpty && (segments other).all (lineCoversSegment line)

/-! ### All kinds -/

/-- Whether the first geometry has the second one within it. -/
def Geometry.contains (g h : Geometry R) : Bool :=
  match g, h with
  | g, .point p => g.containsPosition p
  | .point p, h => h.isWithinPoint p
  | .lineString a, .lineString b => lineCoversLine a b
  | .multiPolygon polygons, .multiPoint points =>
    !points.isEmpty && points.all fun p => polygons.any (·.contains p)
  | g, h => g.covers h

end TransitQuery
