import TransitQuery.Geometry.Box
import TransitQuery.Query.Context

/-!
# Predicates

A predicate is a condition on the rows of a table. Its leaves compare a column with a text, or the
geometry in a column with a point, a boundary or a box; the other nodes combine conditions. The
same tree is written as SQL for an engine and decided on rows in memory.

There are two leaves for a distance in degrees, one for distance and one for a widened point,
because an engine has a function for each; on rows in memory they mean the same. The distance in
meters is a leaf of its own and appears in exact forms only. A boundary is kept as Well-Known Text
and parsed by whoever decides the predicate.

`Predicate.columns` lists what a predicate reads. A row may be reduced to these columns without
changing the verdict, which is what lets a refinement ask for no more than it needs. `anyOf`
without members holds for no row, and `always` is the only trivial predicate: trivial clauses are
recognised by their form (`isTrivial`), not by what they mean.
-/

namespace TransitQuery

/-- How the geometry of a row relates to a boundary. -/
inductive SpatialRelation where
  | intersects
  | within
  | touches
  deriving DecidableEq

/-- A condition on a row. Radii are in degrees unless they are called meters. -/
inductive Predicate (R : Type) where
  | always
  | and (left right : Predicate R)
  | or (left right : Predicate R)
  | not (inner : Predicate R)
  /-- At least one of the members. -/
  | anyOf (members : List (Predicate R))
  /-- The column holds the text. -/
  | equals (field value : String)
  /-- The geometry lies within a radius of the point. -/
  | distanceWithin (field : String) (point : LatLng R) (radius : R)
  /-- The geometry meets a disc around the point. -/
  | intersectsBuffer (field : String) (point : LatLng R) (radius : R)
  /-- The geometry lies within a great-circle distance of the point. -/
  | withinMeters (field : String) (point : LatLng R) (meters : R)
  /-- The geometry relates to a boundary, which a positive buffer widens. -/
  | boundary (relation : SpatialRelation) (field wkt : String) (buffer : R)
  /-- The box in the four columns overlaps the given one. -/
  | boxOverlap (columns : BoxColumns) (box : Box R)

namespace Predicate

variable {R : Type}

/-- Whether a predicate is the one that always holds. -/
def isTrivial : Predicate R → Bool
  | always => true
  | _ => false

mutual

/-- The columns that a predicate reads, from left to right, as often as it reads them. -/
def reads : Predicate R → List String
  | always => []
  | and l r | or l r => reads l ++ reads r
  | not p => reads p
  | anyOf members => memberReads members
  | equals field _ | distanceWithin field _ _ | intersectsBuffer field _ _
  | withinMeters field _ _ | boundary _ field _ _ => [field]
  | boxOverlap columns _ => columns.names

/-- The columns that several predicates read. -/
def memberReads : List (Predicate R) → List String
  | [] => []
  | p :: rest => reads p ++ memberReads rest

end

/-- The columns that a predicate reads, each once, in the order in which they are first read. -/
def columns (p : Predicate R) : List String :=
  p.reads.eraseDups

end Predicate

end TransitQuery
