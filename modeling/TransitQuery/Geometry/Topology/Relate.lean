import TransitQuery.Geometry.Dimension
import TransitQuery.Geometry.Topology.Incidence
import TransitQuery.Geometry.Topology.Network
import TransitQuery.Geometry.Topology.Star

/-!
# How two figures relate

`Geometry.incidence` tells which parts of two figures meet. The networks of both are laid over each
other: where their arcs touch, they are cut and a common node is made. Each node and each ray around
it then lies in a certain way to both figures, and so does each arc that meets none of the other
figure. All that these bear out is the answer.

Crossings of arcs are not cut. They follow no positions of the figures but computed ones, and what a
crossing bears out is known beforehand.

Figures whose boxes lie apart are not looked at: they have no more in common than the outside.
Otherwise the answer is put together from three sources: the junctions of the overlay with the rays
around them, the arcs that meet none of the other figure, and the crossings. Each of these is a
function of its own, and their pairs are appended.
-/

namespace TransitQuery

/-- A position that is a node of one of two figures. -/
structure Junction (R : Type) where
  position : Position R
  label : Label
  rays : List (Ray R)

/-- The nodes of two figures laid over each other. -/
abbrev Overlay (R : Type) := List (Junction R)

variable {R : Type} [Scalar R]

namespace Overlay

/-- Changes the junction at a position, which is made if it is not there. -/
def modify (p : Position R) (change : Junction R → Junction R) : Overlay R → Overlay R
  | [] => [change ⟨p, Label.unknown, []⟩]
  | j :: rest => if j.position == p then change j :: rest else j :: modify p change rest

/-- Adds a cut of an arc of one figure. Cuts of borders cancel in pairs. -/
def addCut (o : Operand) (border : Bool) (v : Overlay R) (p : Position R) : Overlay R :=
  modify p (fun j =>
    let known := (j.label.get o).on
    let l :=
      if border then some (if known = some .onBoundary then Location.inside else .onBoundary)
      else if known.isNone then some .inside
      else known
    { j with label := j.label.modify o fun s => (l.map s.setOn).getD s }) v

/-- Adds the cuts of the arcs of a network. -/
def addCuts (o : Operand) (v : Overlay R) (arcs : List (Arc R)) : Overlay R :=
  arcs.foldl (fun v a =>
    let border := (a.label.get o).on = some .onBoundary
    (a.cuts.map Cut.position).foldl (addCut o border) v) v

/-- Adds the nodes of a network. What it says of them goes before what cuts said. -/
def addNodes (v : Overlay R) (n : Network R) : Overlay R :=
  n.nodes.foldl (fun v (p, l) =>
    modify p (fun j => { j with label := j.label.modify n.operand (·.setOn l) }) v) v

/-- Adds a spoke. -/
def addSpoke (v : Overlay R) (s : Spoke R) : Overlay R :=
  modify s.start (fun j => { j with rays := s.insert j.rays }) v

end Overlay

namespace Junction

/-- Settles where a node of one figure lies to the other. -/
def locate (g h : Geometry R) (j : Junction R) : Junction R :=
  match j.label.first.on, j.label.second.on with
  | none, some _ => { j with label := j.label.modify .first (·.setOn (g.locate j.position)) }
  | some _, none => { j with label := j.label.modify .second (·.setOn (h.locate j.position)) }
  | _, _ => j

/-- Where a node lies to the areas of a figure. -/
def locationInAreas (g : Geometry R) (j : Junction R) : Location :=
  if g.dimension = .two then g.locate j.position else .outside

/-- What a node and the rays around it bear out. -/
def incidence (g h : Geometry R) (j : Junction R) : Incidence :=
  Incidence.ofLabel j.label ++
    (Star.labels (j.locationInAreas g) (j.locationInAreas h) j.rays).flatMap Incidence.ofLabel

end Junction

/-! ### Arcs of two figures -/

/-- All meetings of the arcs of two networks. -/
def Network.meetings (n m : Network R) : List (ArcMeeting R) :=
  n.arcs.flatMap fun a => m.arcs.flatMap a.meetings

/-- Meetings that are no crossings. -/
def touches (ms : List (ArcMeeting R)) : List (ArcMeeting R) :=
  ms.filter fun m => m.meeting.crossing?.isNone

/-- What a crossing of arcs bears out, by the dimensions of the figures. `inner` says that one of
the crossings is a boundary position of neither. -/
def crossingIncidence (inner : Bool) : Dimension → Dimension → Incidence
  | .two, .two => Incidence.full
  | .two, .one =>
    [(.onBoundary, .inside), (.outside, .outside)] ++
      if inner then [(.inside, .inside), (.outside, .inside)] else []
  | .one, .two =>
    [(.inside, .onBoundary), (.outside, .outside)] ++
      if inner then [(.inside, .inside), (.inside, .outside)] else []
  | .one, .one => if inner then [(.inside, .inside)] else []
  | _, _ => []

/-- What the crossings of two figures bear out. -/
def crossingsIncidence (g h : Geometry R) (n m : Network R) : Incidence :=
  match (n.meetings m).filterMap (·.meeting.crossing?) with
  | [] => []
  | crossings =>
    let inner := crossings.any fun p => !n.isBoundary p && !m.isBoundary p
    crossingIncidence inner g.dimension h.dimension

/-- What an arc of one figure bears out that meets no arc of the other. -/
def lonelyIncidence (o : Operand) (other : Geometry R) (a : Arc R) : Incidence :=
  let l :=
    match other.dimension, a.positions with
    | .one, p :: _ | .two, p :: _ => other.locate p
    | _, _ => .outside
  Incidence.ofLabel (a.label.modify o (·.setAll l))

/-! ### The whole -/

namespace Geometry

/-- Which parts of two figures meet, that are not apart. -/
def overlayIncidence (g h : Geometry R) : Incidence :=
  let n := Network.ofGeometry .first g
  let m := Network.ofGeometry .second h
  let first := n.arcs.map fun a =>
    m.arcs.foldl (fun cut b => cut.cutFirst (touches (a.meetings b))) a
  let second := m.arcs.map fun b =>
    n.arcs.foldl (fun cut a => cut.cutSecond (touches (a.meetings b))) b
  let junctions :=
    (((Overlay.addCuts .first [] first).addCuts .second second).addNodes n).addNodes m
  let located := junctions.map (Junction.locate g h)
  let overlay := ((first ++ second).flatMap Arc.spokes).foldl Overlay.addSpoke located
  let lonelyFirst := n.arcs.filter fun a => m.arcs.all fun b => (a.meetings b).isEmpty
  let lonelySecond := m.arcs.filter fun b => n.arcs.all fun a => (a.meetings b).isEmpty
  crossingsIncidence g h n m ++
    lonelyFirst.flatMap (lonelyIncidence .second h) ++
    lonelySecond.flatMap (lonelyIncidence .first g) ++
    overlay.flatMap (Junction.incidence g h)

/-- Which parts of two figures meet, but for the outside of both and for figures that are apart,
which have no more in common. -/
def incidence (g h : Geometry R) : Incidence :=
  match g.box?, h.box? with
  | some a, some b => if a.isApart b then [] else overlayIncidence g h
  | _, _ => []

end Geometry

end TransitQuery
