import TransitQuery.Geometry.Basic

/-!
# Where a position lies

A position lies inside a figure, on its boundary, or outside. `locateInRing` decides it for the
area within a ring by counting how often the ring winds around the position, without computing
any coordinate; `Polygon.locate` leaves the holes out. `Geometry.locate` follows the rule that a
position on an even number of boundaries of the members is on no boundary of the whole.

Everything here asks only for a `Coordinate`: an order, an equality and the side of a turn. The
winding number counts a segment of the ring when it passes the height of the position, one more for
a passage upward with the position on its left and one less for a passage downward with the
position on its right; half-open heights make sure that a corner counts once (`Segment.crossing`).
A position on a segment ends the count at once.

For lines and collections the members are tallied first (`Tally`): whether one has the position
inside, and how many have it on their boundary. The ends of an open line are its boundary, and two
lines that end at one position have no boundary there. The tally of a collection is taken by
recursion over the nested members, so that two collections with the same members in a different
nesting locate a position alike.
-/

namespace TransitQuery

/-- How a position lies to a figure. -/
inductive Location where
  | inside
  | onBoundary
  | outside
  deriving DecidableEq

variable {R : Type} [Coordinate R]

/-- The turn at `b` on the way from `a` to `c`. -/
def turn (a b c : Position R) : Ordering :=
  Coordinate.turn a.x a.y b.x b.y c.x c.y

/-- Whether a value lies between two others, which come in either order. -/
def isBetween (v a b : R) : Bool :=
  if a < b then a ≤ v && v ≤ b else b ≤ v && v ≤ a

/-- Whether a position lies in the box with two given corners. -/
def isInCorners (p a b : Position R) : Bool :=
  isBetween p.x a.x b.x && isBetween p.y a.y b.y

namespace Segment

/-- Whether a position lies on a segment. -/
def meets (s : Segment R) (p : Position R) : Bool :=
  turn s.start s.stop p == .eq && isInCorners p s.start s.stop

/-- Whether a position lies on a segment but is none of its ends. A segment without length
contains its one position. -/
def contains (s : Segment R) (p : Position R) : Bool :=
  if s.start == s.stop then s.start == p
  else p != s.start && p != s.stop && s.meets p

/-- Whether two segments share a position. Of two segments on one line it is enough to look at three
ends: if the fourth one lies on the other segment, so does a further one. -/
def intersects (s t : Segment R) : Bool :=
  if s.start == s.stop then t.meets s.start
  else
    let a := turn s.start s.stop t.start
    let b := turn s.start s.stop t.stop
    if a != b then turn t.start t.stop s.start != turn t.start t.stop s.stop
    else if a == .eq then
      isInCorners t.start s.start s.stop || isInCorners t.stop s.start s.stop ||
        isInCorners s.stop t.start t.stop
    else false

end Segment

/-! ### Areas -/

/-- What one segment of a ring says about a position: it lies on the segment, or the ring has
wound around it by so many more turns to the left. An upward segment counts with its start and
without its stop, a downward one the other way round, a level one not at all. -/
inductive Crossing where
  | on
  | turns (n : Int)

/-- What a segment of a ring says about a position. -/
def Segment.crossing (s : Segment R) (p : Position R) : Crossing :=
  if s.start.y ≤ p.y then
    if p.y ≤ s.stop.y then
      match turn s.start s.stop p with
      | .gt => if s.stop.y == p.y then .turns 0 else .turns 1
      | .eq => if isBetween p.x s.start.x s.stop.x then .on else .turns 0
      | .lt => .turns 0
    else .turns 0
  else if s.stop.y ≤ p.y then
    match turn s.start s.stop p with
    | .lt => .turns (-1)
    | .eq => if isBetween p.x s.start.x s.stop.x then .on else .turns 0
    | .gt => .turns 0
  else .turns 0

/-- How a position lies to an area whose ring has the given segments left and has wound around
the position so many times. -/
def locateBySegments (p : Position R) : List (Segment R) → Int → Location
  | [], winding => if winding = 0 then .outside else .inside
  | s :: rest, winding =>
    match s.crossing p with
    | .on => .onBoundary
    | .turns n => locateBySegments p rest (winding + n)

/-- How a position lies to the area within a ring. A ring of one position has no area. -/
def locateInRing (ring : List (Position R)) (p : Position R) : Location :=
  match ring with
  | [] => .outside
  | [q] => if p == q then .onBoundary else .outside
  | _ => locateBySegments p (segments ring) 0

/-- How a position that lies within the outer ring lies to an area with the given holes. -/
def locateAmongHoles (p : Position R) : List (List (Position R)) → Location
  | [] => .inside
  | hole :: rest =>
    match locateInRing hole p with
    | .outside => locateAmongHoles p rest
    | .onBoundary => .onBoundary
    | .inside => .outside

/-- How a position lies to a polygon. -/
def Polygon.locate (g : Polygon R) (p : Position R) : Location :=
  match locateInRing g.exterior p with
  | .inside => locateAmongHoles p g.interiors
  | l => l

/-- Whether a position lies strictly inside a polygon. -/
def Polygon.contains (g : Polygon R) (p : Position R) : Bool :=
  g.locate p = .inside

/-! ### Lines and mixed figures -/

/-- What the members of a figure say about a position. -/
structure Tally where
  /-- A member has the position inside. -/
  inside : Bool
  /-- So many members have it on their boundary. -/
  boundaries : Nat

/-- No member touches the position. -/
def Tally.none : Tally := ⟨false, 0⟩

/-- The tallies of two figures together. -/
def Tally.add (a b : Tally) : Tally :=
  ⟨a.inside || b.inside, a.boundaries + b.boundaries⟩

/-- Where a position with a tally lies. Boundaries cancel in pairs. -/
def Tally.location (t : Tally) : Location :=
  if t.boundaries % 2 = 1 then .onBoundary
  else if t.inside then .inside
  else .outside

/-- What a line says about a position. A closed line has no ends, a line whose two positions agree
is a point, and a line with fewer positions is nothing. -/
def lineTally (line : List (Position R)) (p : Position R) : Tally :=
  let on := (segments line).any (·.meets p)
  match line with
  | [] | [_] => Tally.none
  | [a, b] =>
    if a == b then ⟨a == p, 0⟩
    else if p == a || p == b then ⟨false, 1⟩
    else ⟨on, 0⟩
  | _ =>
    if !isClosed line && (line.head? == some p || line.getLast? == some p) then ⟨false, 1⟩
    else ⟨on, 0⟩

/-- What a polygon says about a position. -/
def Polygon.tally (g : Polygon R) (p : Position R) : Tally :=
  match g.locate p with
  | .inside => ⟨true, 0⟩
  | .onBoundary => ⟨false, 1⟩
  | .outside => Tally.none

namespace Geometry

mutual

/-- What the members of a geometry say about a position. -/
def tally (p : Position R) : Geometry R → Tally
  | point q => ⟨q == p, 0⟩
  | lineString line => lineTally line p
  | polygon g => g.tally p
  | multiPoint points => ⟨points.any (· == p), 0⟩
  | multiLineString lines => lines.foldl (fun t line => t.add (lineTally line p)) Tally.none
  | multiPolygon polygons => polygons.foldl (fun t g => t.add (g.tally p)) Tally.none
  | collection members => membersTally p members

/-- What several geometries say about a position. -/
def membersTally (p : Position R) : List (Geometry R) → Tally
  | [] => Tally.none
  | g :: rest => (tally p g).add (membersTally p rest)

end

/-- How a position lies to a geometry. -/
def locate (g : Geometry R) (p : Position R) : Location :=
  (g.tally p).location

end Geometry

end TransitQuery
