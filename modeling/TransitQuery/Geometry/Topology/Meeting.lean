import TransitQuery.Geometry.Box
import TransitQuery.Geometry.Location

/-!
# Where segments meet

`Segment.meeting?` tells whether two segments meet and where. Whether they meet is decided by turns
alone. Where they touch, an end of one of them is taken as it stands; only where they cross is a
position computed, and then it is rounded and need not lie on either of them.

Two segments may touch in a position or in a piece, or they may cross, which means that each has
its ends on both sides of the other. A crossing is computed in coordinates around the middle of
what the two boxes have in common, to lose less, and is given up for an end of a segment if it
falls out of the boxes. That happens for segments that are nearly parallel.
-/

namespace TransitQuery

/-- Where two segments meet. -/
inductive Meeting (R : Type) where
  /-- At a position inside both. -/
  | crossing (p : Position R)
  /-- At an end of one of them only. -/
  | touch (p : Position R)
  /-- Along a common piece. -/
  | overlap (s : Segment R)

/-- The positions that a meeting marks on both segments. -/
def Meeting.positions {R : Type} : Meeting R → List (Position R)
  | crossing p | touch p => [p]
  | overlap s => [s.start, s.stop]

/-- The position of a crossing. -/
def Meeting.crossing? {R : Type} : Meeting R → Option (Position R)
  | crossing p => some p
  | _ => none

namespace Segment

/-! ### Segments on one line -/

section

variable {R : Type} [Coordinate R]

/-- The least box that holds a segment. -/
def box (s : Segment R) : Box R :=
  Box.including ⟨s.start.x, s.start.y, s.start.x, s.start.y⟩ s.stop

/-- The piece between two positions, which are ends of two segments. -/
def between (p q : Position R) : Meeting R :=
  if p == q then .touch p else .overlap ⟨p, q⟩

/-- Where two segments on one line meet. -/
def commonPiece? (s t : Segment R) : Option (Meeting R) :=
  let tStart := s.box.contains t.start
  let tStop := s.box.contains t.stop
  let sStart := t.box.contains s.start
  let sStop := t.box.contains s.stop
  if tStart && tStop then some (.overlap t)
  else if sStart && sStop then some (.overlap s)
  else if tStart && sStart then some (between t.start s.start)
  else if tStart && sStop then some (between t.start s.stop)
  else if tStop && sStart then some (between t.stop s.start)
  else if tStop && sStop then some (between t.stop s.stop)
  else none

end

/-! ### Crossings -/

variable {R : Type} [Scalar R]

/-- The distance from a position to a segment. -/
def gap (s : Segment R) (p : Position R) : R :=
  let dx := s.stop.x - s.start.x
  let dy := s.stop.y - s.start.y
  let square := dx * dx + dy * dy
  let along := ((p.x - s.start.x) * dx + (p.y - s.start.y) * dy) / square
  let distance (q : Position R) : R := Scalar.hypot (q.x - p.x) (q.y - p.y)
  if s.start == s.stop then distance s.start
  else if along ≤ Scalar.zero then distance s.start
  else if Scalar.one ≤ along then distance s.stop
  else
    let across := ((s.start.y - p.y) * dx - (s.start.x - p.x) * dy) / square
    Scalar.magnitude across * Scalar.hypot dx dy

/-- The first of some positions with the least distance. -/
def nearestOf (best : Position R) (distance : R) : List (Position R × R) → Position R
  | [] => best
  | (p, d) :: rest => if d < distance then nearestOf p d rest else nearestOf best distance rest

/-- The end of one of two segments that is nearest to the other one. -/
def nearestEnd (s t : Segment R) : Position R :=
  nearestOf s.start (t.gap s.start)
    [(s.stop, t.gap s.stop), (t.start, s.gap t.start), (t.stop, s.gap t.stop)]

/-- The middle of what two intervals have in common, each given by its ends in either order. -/
def commonMiddle (a b c d : R) : R :=
  (Scalar.greatest (Scalar.least a b) (Scalar.least c d) +
    Scalar.least (Scalar.greatest a b) (Scalar.greatest c d)) / Scalar.two

/-- The position where the lines through two segments cross, if it can be computed. The coordinates
are taken relative to the middle of the common box, which keeps most of their digits. -/
def lineCrossing? (s t : Segment R) : Option (Position R) :=
  let x := commonMiddle s.start.x s.stop.x t.start.x t.stop.x
  let y := commonMiddle s.start.y s.stop.y t.start.y t.stop.y
  let coefficients (u : Segment R) : R × R × R :=
    let x₁ := u.start.x - x
    let y₁ := u.start.y - y
    let x₂ := u.stop.x - x
    let y₂ := u.stop.y - y
    (y₁ - y₂, x₂ - x₁, x₁ * y₂ - x₂ * y₁)
  let (px, py, pw) := coefficients s
  let (qx, qy, qw) := coefficients t
  let w := px * qy - qx * py
  let cx := (py * qw - qy * pw) / w
  let cy := (qx * pw - px * qw) / w
  if Scalar.isFinite cx && Scalar.isFinite cy then some ⟨cx + x, cy + y⟩ else none

/-- The position where two segments cross. Where the computed one does not lie in the boxes of both,
an end that is near has to do. -/
def crossingPosition (s t : Segment R) : Position R :=
  let p := (lineCrossing? s t).getD (nearestEnd s t)
  if s.box.contains p && t.box.contains p then p else nearestEnd s t

/-- Whether two positions lie on one side of a line, given as turns. -/
def isOneSided (a b : Ordering) : Bool :=
  a == b && a != .eq

/-- Where two segments meet, if they do. -/
def meeting? (s t : Segment R) : Option (Meeting R) :=
  let tStart := turn s.start s.stop t.start
  let tStop := turn s.start s.stop t.stop
  let sStart := turn t.start t.stop s.start
  let sStop := turn t.start t.stop s.stop
  if s.box.isApart t.box || isOneSided tStart tStop || isOneSided sStart sStop then none
  else if tStart == .eq && tStop == .eq && sStart == .eq && sStop == .eq then s.commonPiece? t
  -- Equal ends go first: turns of nearly parallel segments need not agree with each other.
  else if tStart != .eq && tStop != .eq && sStart != .eq && sStop != .eq then
    some (.crossing (s.crossingPosition t))
  else if s.start == t.start || s.start == t.stop then some (.touch s.start)
  else if s.stop == t.start || s.stop == t.stop then some (.touch s.stop)
  else if tStart == .eq then some (.touch t.start)
  else if tStop == .eq then some (.touch t.stop)
  else if sStart == .eq then some (.touch s.start)
  else some (.touch s.stop)

end Segment

end TransitQuery
