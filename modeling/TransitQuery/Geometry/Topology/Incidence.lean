import TransitQuery.Geometry.Topology.Label

/-!
# Incidence

How two figures lie to each other is told by which parts of them meet: of the nine pairs of inside,
boundary and outside of the one with those of the other, the pairs that have a position in common.

A list of pairs stands for the matrix of the nine, without dimensions, as these are not asked for.
Incidences are put together by appending what several parts bear out (`Incidence.ofLabel`), and
order and repetitions do not count: `Incidence.isContaining` only looks for pairs.
-/

namespace TransitQuery

/-- Pairs of locations that some position has in a first and a second figure. -/
abbrev Incidence := List (Location × Location)

namespace Incidence

/-- The pair of two locations, if both are known. -/
def ofBoth : Option Location → Option Location → Incidence
  | some a, some b => [(a, b)]
  | _, _ => []

/-- The pairs that a part with a label bears out. -/
def ofLabel (l : Label) : Incidence :=
  ofBoth l.first.on l.second.on ++ ofBoth l.first.left l.second.left ++
    ofBoth l.first.right l.second.right

/-- Every pair. -/
def full : Incidence :=
  let all : List Location := [.inside, .onBoundary, .outside]
  all.flatMap fun a => all.map fun b => (a, b)

/-- Whether the first figure has the second one within it: they share inner positions, and nothing
of the second is outside the first. -/
def isContaining (pairs : Incidence) : Bool :=
  pairs.contains (.inside, .inside) && !pairs.contains (.outside, .inside) &&
    !pairs.contains (.outside, .onBoundary)

end Incidence

end TransitQuery
