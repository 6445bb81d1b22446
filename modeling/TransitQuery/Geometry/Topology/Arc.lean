import TransitQuery.Geometry.Topology.Label
import TransitQuery.Geometry.Topology.Meeting

/-!
# Arcs

An arc is a line of a figure, the whole of one line or of one ring of a polygon. Where it meets
others it is cut; the cuts stand in their order along the arc, and two cuts at the same place along
a segment count as one. `Arc.meetings` lists where two arcs meet.

A cut is named by the number of its segment and by how far along the segment it lies
(`Segment.along`). That distance is only there to order cuts: it is measured on the longer side of
the box of the segment, without a root, and it is positive for every position but the start, even
where rounding would make it zero. A position at the end of a segment is filed as the start of the
next one (`Arc.place?`), so that one position of a line has one name.

`Arc.selfMeetings` leaves out that consecutive segments share a position, which is no meeting worth
a cut; two segments that overlap are kept, whichever they are. `Arc.withEnds` cuts both ends, so
that the pieces between neighbouring cuts are the edges of the graph. A closed arc keeps its first
and its last position as two cuts, one at either end.
-/

namespace TransitQuery

/-- A place on an arc: a position on the segment with a number, and how far along that segment. A
place at the end of a segment counts as the start of the next. -/
structure Cut (R : Type) where
  position : Position R
  segment : Nat
  along : R

/-- A line of a figure with its cuts. -/
structure Arc (R : Type) where
  positions : List (Position R)
  label : Label
  cuts : List (Cut R)

/-- Where two arcs meet: the numbers of their segments that do, and how these meet. -/
structure ArcMeeting (R : Type) where
  first : Nat
  second : Nat
  meeting : Meeting R

variable {R : Type} [Scalar R]

/-- How far a position is along a segment that holds it, measured on the longer side of the box. -/
def Segment.along (s : Segment R) (p : Position R) : R :=
  let width := Scalar.magnitude (s.stop.x - s.start.x)
  let height := Scalar.magnitude (s.stop.y - s.start.y)
  let px := Scalar.magnitude (p.x - s.start.x)
  let py := Scalar.magnitude (p.y - s.start.y)
  if p == s.start then Scalar.zero
  else if p == s.stop then (if height < width then width else height)
  else
    let distance := if height < width then px else py
    -- A position that is not the start is some way along, whatever was rounded.
    if distance == Scalar.zero then Scalar.greatest px py else distance

namespace Cut

/-- Whether a cut comes before another. -/
def isBefore (c d : Cut R) : Bool :=
  c.segment < d.segment || (c.segment = d.segment && decide (c.along < d.along))

/-- Puts a cut in its place. One that is there already at the same place stays. -/
def insert (c : Cut R) : List (Cut R) → List (Cut R)
  | [] => [c]
  | d :: rest =>
    if c.isBefore d then c :: d :: rest
    else if d.isBefore c then d :: insert c rest
    else d :: rest

end Cut

namespace Arc

/-- An arc without cuts. -/
def uncut (positions : List (Position R)) (label : Label) : Arc R :=
  ⟨positions, label, []⟩

/-- The segments with their numbers. -/
def segments (a : Arc R) : List (Segment R × Nat) :=
  (TransitQuery.segments a.positions).zipIdx

/-- The place of a position on the segment with a number. -/
def place? (a : Arc R) (segment : Nat) (p : Position R) : Option (Cut R) :=
  match a.positions[segment]?, a.positions[segment + 1]? with
  | some start, some stop =>
    some (if p == stop then ⟨p, segment + 1, Scalar.zero⟩
      else ⟨p, segment, Segment.along ⟨start, stop⟩ p⟩)
  | _, _ => none

/-- An arc with more cuts. -/
def cut (a : Arc R) (cuts : List (Cut R)) : Arc R :=
  { a with cuts := cuts.foldl (fun all c => c.insert all) a.cuts }

/-- Cuts an arc where its segment with a number meets another one. -/
def cutAt (a : Arc R) (segment : Nat) (m : Meeting R) : Arc R :=
  a.cut (m.positions.filterMap (a.place? segment))

/-- The arc with cuts at both of its ends. -/
def withEnds (a : Arc R) : Arc R :=
  let first := a.positions.head?.map fun p => ⟨p, 0, Scalar.zero⟩
  let last := a.positions.getLast?.map fun p => ⟨p, a.positions.length - 1, Scalar.zero⟩
  a.cut (first.toList ++ last.toList)

/-- Where two arcs meet. -/
def meetings (a b : Arc R) : List (ArcMeeting R) :=
  a.segments.flatMap fun (s, i) =>
    b.segments.filterMap fun (t, j) => (s.meeting? t).map fun m => ⟨i, j, m⟩

/-- Where an arc meets itself, but for the positions that neighbouring segments share. -/
def selfMeetings (a : Arc R) : List (ArcMeeting R) :=
  (a.meetings a).filter fun m =>
    m.first != m.second &&
      match m.meeting with
      | .overlap _ => true
      | _ => m.first + 1 != m.second && m.second + 1 != m.first

/-- Cuts an arc at meetings in which it comes first. -/
def cutFirst (a : Arc R) (ms : List (ArcMeeting R)) : Arc R :=
  ms.foldl (fun a m => a.cutAt m.first m.meeting) a

/-- Cuts an arc at meetings in which it comes second. -/
def cutSecond (a : Arc R) (ms : List (ArcMeeting R)) : Arc R :=
  ms.foldl (fun a m => a.cutAt m.second m.meeting) a

end Arc

end TransitQuery
