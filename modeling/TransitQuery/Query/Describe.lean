import TransitQuery.Query.Basic

/-!
# Queries in words

`SpatialQuery.describe` sums a query up in one line for display. It describes queries as they are
written, valid or not.

The wording follows the structure and not the meaning: a radius is given for a point and left out
for a boundary, even where the boundary is widened by it; a block near the point names the radius
that it would inherit; an attribute without a value reads as `any`. A type that is not known reads
like an inclusion and an operator that is not known like an unrecognized condition. Scalars are
written as among words, without an exponent and without a fraction on whole values.
-/

namespace TransitQuery

variable {R : Type} [Scalar R]

/-- What a query is measured against, in words. -/
def Target.phrase : Target → String
  | selectedPoint => "the selected point"
  | boundary => "the boundary"

/-- How a block combines, in words. A type that is not known reads like an inclusion. -/
def Block.verb (b : Block R) : String :=
  match b.parsedType with
  | .ok .excluded => "excluding"
  | .ok .alsoIncluded => "also including"
  | _ => "including"

/-- What a block tests, in words. -/
def Block.phrase (inherited : R) (b : Block R) : String :=
  match b.parsedOperator with
  | some (.ok .nearPoint) =>
    "near the point (" ++ Scalar.text (b.distance.getD inherited) ++ "m)"
  | some (.ok .touchesBoundary) => "touching the boundary"
  | some (.ok .insideBoundary) => "inside the boundary"
  | some (.ok op) => op.name ++ " = " ++ b.value.getD "any"
  | _ => "an unrecognized condition"

namespace SpatialQuery

/-- The main clause of a query in words. -/
def mainPhrase (q : SpatialQuery R) : String :=
  let target := q.target.phrase
  match q.condition, q.target with
  | .within, .selectedPoint =>
    "Find " ++ q.find.name ++ " within " ++ Scalar.text q.distance ++ "m of " ++ target
  | .within, .boundary => "Find " ++ q.find.name ++ " within " ++ target
  | .intersect, _ => "Find " ++ q.find.name ++ " intersecting " ++ target

/-- The query in words: its main clause, then each block after a comma. -/
def describe (q : SpatialQuery R) : String :=
  q.blocks.foldl
    (fun text b => text ++ ", " ++ b.verb ++ " " ++ b.phrase q.distance)
    q.mainPhrase

end SpatialQuery

end TransitQuery
