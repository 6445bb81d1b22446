import TransitQuery.Geometry.Topology.Arc

/-!
# Networks

The network of a figure holds its arcs and its nodes: points, the ends of lines, one position of
each ring, and all positions at which arcs of the figure meet each other. Of each node it is known
whether it lies inside the figure or on its boundary. `Network.ofGeometry` builds it.

A figure is taken to be well-formed as far as its kind promises: rings are not looked at for
meetings with themselves.

An arc is a line or a ring, with a label that says where it lies to its own figure. The ends of
lines are on the boundary, unless two of them are at one position: then they cancel, and a third
one counts again. A ring has its area on one side, and to which side it turns is told by its
leftmost position.
-/

namespace TransitQuery

/-- The arcs and nodes of a figure. -/
structure Network (R : Type) where
  operand : Operand
  arcs : List (Arc R)
  nodes : List (Position R × Location)

/-! ### Rings -/

section

variable {R : Type} [Coordinate R]

/-- Whether a position comes before another, from left to right and then upwards. -/
def Position.isBefore (p q : Position R) : Bool :=
  p.x < q.x || (p.x == q.x && p.y < q.y)

/-- The first position of a list that no other comes before, with those behind it and those before
it, the nearest first. -/
def leastPosition? : (before : List (Position R)) → List (Position R) →
    Option (List (Position R) × Position R × List (Position R))
  | _, [] => none
  | before, p :: rest =>
    match leastPosition? (p :: before) rest with
    | some (before', q, rest') =>
      -- of equal positions the first one stays
      if q.isBefore p then some (before', q, rest') else some (before, p, rest)
    | none => some (before, p, rest)

/-- To which side a ring turns at its leftmost position: it winds around its area to that side. A
ring with fewer than three different positions turns to no side. -/
def windingTurn (ring : List (Position R)) : Ordering :=
  if ring.length < 4 || !isClosed ring then .eq
  else
    match leastPosition? [] ring with
    | none => .eq
    | some (before, p, rest) =>
      -- a repetition of the position would give the turn no direction
      let next := (rest ++ before.reverse).find? (· != p)
      let previous := (before ++ rest.reverse).find? (· != p)
      match previous, next with
      | some a, some b => turn a p b
      | _, _ => .eq

end

namespace Network

variable {R : Type} [Scalar R]

/-! ### Nodes -/

/-- Where a node lies. -/
def location? (n : Network R) (p : Position R) : Option Location :=
  (n.nodes.find? (·.1 == p)).map Prod.snd

/-- Whether a position is a node on the boundary. -/
def isBoundary (n : Network R) (p : Position R) : Bool :=
  n.location? p = some .onBoundary

/-- Says where a node lies, in place of what was said before. -/
def put (n : Network R) (p : Position R) (l : Location) : Network R :=
  if (n.location? p).isSome then
    { n with nodes := n.nodes.map fun node => if node.1 == p then (node.1, l) else node }
  else { n with nodes := n.nodes ++ [(p, l)] }

/-- Adds an end of a line. Two ends at one position make it an inner one. -/
def putEnd (n : Network R) (p : Position R) : Network R :=
  n.put p (if n.isBoundary p then .inside else .onBoundary)

/-- Adds a meeting of arcs. What is on the boundary stays there. -/
def putMeeting (n : Network R) (l : Location) (p : Position R) : Network R :=
  if n.isBoundary p then n else n.put p l

/-! ### Figures -/

/-- Adds an arc. -/
def addArc (n : Network R) (positions : List (Position R)) (label : Label) : Network R :=
  { n with arcs := n.arcs ++ [Arc.uncut positions label] }

/-- Adds a line. A line of one position is a point. -/
def addLine (n : Network R) (line : List (Position R)) : Network R :=
  match line.eraseReps with
  | [] => n
  | [p] => n.put p .inside
  | p :: q :: rest =>
    ((n.putEnd p).putEnd ((q :: rest).getLast?.getD q)).addArc (p :: q :: rest)
      (.ofLine n.operand .inside)

/-- Adds a ring, with what lies to its left and right if it winds to the right or not at all. -/
def addRing (n : Network R) (left right : Location) (ring : List (Position R)) : Network R :=
  match ring.eraseReps with
  | [] => n
  | p :: rest =>
    let label : Label :=
      if windingTurn ring == .gt then .ofBorder n.operand right left
      else .ofBorder n.operand left right
    (n.addArc (p :: rest) label).put p .onBoundary

/-- Adds a polygon. The area lies to the right of its outer ring and to the left of its holes, if
they wind to the right. -/
def addPolygon (n : Network R) (g : Polygon R) : Network R :=
  g.interiors.foldl (·.addRing .inside .outside ·) (n.addRing .outside .inside g.exterior)

mutual

/-- Adds a geometry. Holes without an outer ring count only beside other polygons. -/
def add (n : Network R) : Geometry R → Network R
  | .point p => n.put p .inside
  | .lineString line => n.addLine line
  | .polygon g => if g.exterior.isEmpty then n else n.addPolygon g
  | .multiPoint points => points.foldl (·.put · .inside) n
  | .multiLineString lines => lines.foldl addLine n
  | .multiPolygon polygons =>
    if polygons.all (·.exterior.isEmpty) then n else polygons.foldl addPolygon n
  | .collection members => addMembers n members

/-- Adds several geometries. -/
def addMembers (n : Network R) : List (Geometry R) → Network R
  | [] => n
  | g :: rest => addMembers (add n g) rest

end

/-! ### Meetings within a figure -/

/-- Whether the arcs of a geometry are rings, which by their kind do not meet themselves. -/
def hasRingsOnly : Geometry R → Bool
  | .lineString line => isClosed line
  | .multiLineString lines => lines.all isClosed
  | .polygon _ | .multiPolygon _ => true
  | _ => false

/-- An arc with cuts at its meetings with others, and with itself if asked for. -/
def cutWithin (rings : Bool) (arcs : List (Arc R)) (a : Arc R) (i : Nat) : Arc R :=
  arcs.zipIdx.foldl (fun cut (b, j) =>
    if i = j then
      if rings then cut else (cut.cutFirst a.selfMeetings).cutSecond a.selfMeetings
    else (cut.cutFirst (a.meetings b)).cutSecond (b.meetings a)) a

/-- Makes a node of every position at which arcs have been cut. -/
def markCuts (n : Network R) : Network R :=
  n.arcs.foldl (fun n a =>
    match (a.label.get n.operand).on with
    | none => n
    | some l => (a.cuts.map Cut.position).foldl (·.putMeeting l) n) n

/-- The network of a geometry as one of two figures. -/
def ofGeometry (operand : Operand) (g : Geometry R) : Network R :=
  let n : Network R := add ⟨operand, [], []⟩ g
  markCuts { n with arcs := n.arcs.mapIdx fun i a => cutWithin (hasRingsOnly g) n.arcs a i }

end Network

end TransitQuery
