import TransitQuery.Geometry.Topology.Arc

/-!
# Stars

Around a node, the pieces of arcs that end there leave as spokes. A star holds them in the order of
their directions, counter-clockwise from the right, and spokes of one direction as one ray. The
labels of a star go once around the node: behind a ray that bounds an area lies what is to its
left, and so the rays that know nothing of that area learn on which side of it they lie.

Directions are compared by quarters of the plane and then by turns, so that no angle is computed.
Spokes of one direction lie on one another near the node. What their ray says of a figure is what
they say together: borders cancel in pairs, and an inner side goes before an outer one.
-/

namespace TransitQuery

/-- The piece of an arc next to a node, from the node outwards. -/
structure Spoke (R : Type) where
  start : Position R
  toward : Position R
  label : Label

/-- The spokes of one direction. The first of them stands for the direction. -/
structure Ray (R : Type) where
  first : Spoke R
  others : List (Spoke R)

variable {R : Type} [Scalar R]

/-! ### Directions -/

/-- The quarter of the plane into which a vector points, counted counter-clockwise; none for a
vector without length. -/
def quarter? (dx dy : R) : Option Nat :=
  if dx == Scalar.zero && dy == Scalar.zero then none
  else
    match decide (Scalar.zero ≤ dy), decide (Scalar.zero ≤ dx) with
    | true, true => some 0
    | true, false => some 1
    | false, false => some 2
    | false, true => some 3

namespace Spoke

/-- How the direction of a spoke compares with that of another. -/
def compare (s t : Spoke R) : Ordering :=
  let sx := s.toward.x - s.start.x
  let sy := s.toward.y - s.start.y
  let tx := t.toward.x - t.start.x
  let ty := t.toward.y - t.start.y
  let side := turn t.start t.toward s.toward
  if sx == tx && sy == ty then .eq
  else
    match quarter? sx sy, quarter? tx ty with
    | some a, some b => if a < b then .lt else if b < a then .gt else side
    | _, _ => side

/-- Puts a spoke in its place among rays. -/
def insert (s : Spoke R) : List (Ray R) → List (Ray R)
  | [] => [⟨s, []⟩]
  | r :: rest =>
    match s.compare r.first with
    | .lt => ⟨s, []⟩ :: r :: rest
    | .eq => { r with others := r.others ++ [s] } :: rest
    | .gt => r :: s.insert rest

end Spoke

namespace Arc

/-- The spoke back along an arc from a cut, if it is not the start: to the cut before, unless a
position of the arc lies between. -/
def spokeBack? (a : Arc R) (previous : Option (Cut R)) (c : Cut R) : Option (Spoke R) :=
  let atPosition := c.along == Scalar.zero
  if atPosition && c.segment = 0 then none
  else
    let i := if atPosition then c.segment - 1 else c.segment
    let toward :=
      match previous with
      | some d => if i ≤ d.segment then some d.position else a.positions[i]?
      | none => a.positions[i]?
    toward.map fun p => ⟨c.position, p, a.label.flip⟩

/-- The spoke on along an arc from a cut, if it is not the end: to the next cut, unless a position
of the arc lies between. -/
def spokeOn? (a : Arc R) (c : Cut R) (next : Option (Cut R)) : Option (Spoke R) :=
  let toward :=
    match next with
    | some d => if d.segment = c.segment then some d.position else a.positions[c.segment + 1]?
    | none => a.positions[c.segment + 1]?
  toward.map fun p => ⟨c.position, p, a.label⟩

/-- The spokes at cuts that follow one another. -/
def spokesAt (a : Arc R) : (previous : Option (Cut R)) → List (Cut R) → List (Spoke R)
  | _, [] => []
  | previous, c :: rest =>
    (a.spokeBack? previous c).toList ++ (a.spokeOn? c rest.head?).toList ++
      a.spokesAt (some c) rest

/-- The spokes at all cuts and both ends of an arc. -/
def spokes (a : Arc R) : List (Spoke R) :=
  a.spokesAt none a.withEnds.cuts

end Arc

/-! ### Labels of rays -/

namespace Ray

/-- All spokes of a ray. -/
def spokes (r : Ray R) : List (Spoke R) :=
  r.first :: r.others

/-- Where the positions of a ray lie to a figure, as its spokes tell. Borders cancel in pairs and
leave inner positions. -/
def on (r : Ray R) (o : Operand) : Option Location :=
  let told := r.spokes.filterMap fun s => (s.label.get o).on
  let borders := told.countP (· = .onBoundary)
  if 0 < borders then some (if borders % 2 = 1 then .onBoundary else .inside)
  else if told.contains .inside then some .inside
  else none

/-- What lies on one side of a ray. An inner side goes before an outer one. -/
def side (r : Ray R) (pick : Sides → Option Location) (o : Operand) : Option Location :=
  let told := r.spokes.filterMap fun s => pick (s.label.get o)
  if told.contains .inside then some .inside
  else if told.contains .outside then some .outside
  else none

/-- The label of a ray. -/
def label (r : Ray R) : Label :=
  let sides (o : Operand) : Sides :=
    if r.spokes.any (·.label.isArea) then
      .area (r.on o) (r.side Sides.left o) (r.side Sides.right o)
    else .line (r.on o)
  ⟨sides .first, sides .second⟩

end Ray

/-! ### Labels of stars -/

namespace Star

/-- What lies to the left of the last ray that tells. -/
def lastLeft (o : Operand) (labels : List Label) : Option Location :=
  (labels.filterMap fun l => (l.get o).left).getLast?

/-- Goes around a node with what lies behind the rays passed so far. -/
def spread (o : Operand) : Location → List Label → List Label
  | _, [] => []
  | l, label :: rest =>
    let label := label.modify o fun s => if s.on.isNone then s.setOn l else s
    -- a ray that bounds the area says what comes next, whatever has been carried so far
    match (label.get o).right with
    | some _ => label :: spread o (((label.get o).left).getD l) rest
    | none => label.modify o (·.setSides l) :: spread o l rest

/-- Tells the rays of a star on which side of an area they lie, if one of them bounds it. -/
def propagate (o : Operand) (labels : List Label) : List Label :=
  match lastLeft o labels with
  | none => labels
  | some l => spread o l labels

/-- Whether a ray without sides is on the boundary of a figure, whose area has collapsed there. -/
def hasCollapse (o : Operand) (labels : List Label) : Bool :=
  labels.any fun l => !(l.get o).isArea && (l.get o).on = some .onBoundary

/-- Settles what the rays do not know of a figure: they lie where the node does. -/
def settle (o : Operand) (node : Location) (labels : List Label) : List Label :=
  let l := if hasCollapse o labels then .outside else node
  labels.map fun label => label.modify o fun s => if s.isPartial then s.fill l else s

/-- The labels of the rays of a star around a node that lies so to the areas of both figures. -/
def labels (first second : Location) (rays : List (Ray R)) : List Label :=
  let told := propagate .second (propagate .first (rays.map Ray.label))
  settle .second second (settle .first first told)

end Star

end TransitQuery
