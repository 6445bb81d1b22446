import TransitQuery.Predicate.Evaluate

/-!
# Refining candidates

The tier of boxes accepts too many rows. A refinement decides the exact form of a query on the
candidates and keeps the identifiers of those that pass. A row on which that cannot be decided
does not pass.

A refinement is a predicate like any other, evaluated on the rows that the engine returned and not
on those it stores; what it reads has to be among the columns of the request, which is why its
columns can be asked for (`columns`). Identifiers are reported in the order of the rows, each once.

Other than in the engine, a row on which the predicate cannot be decided fails nobody else: it is
left out. A refinement can therefore only shorten an answer. `Refinement.within` is the simplest
one, a great-circle distance from a point and nothing else.
-/

namespace TransitQuery

/-- The exact form of a query, and the column with the identifier. -/
structure Refinement (R : Type) where
  predicate : Predicate R
  idField : String

namespace Refinement

variable {R : Type}

/-- The refinement to rows whose geometry lies within a great-circle distance of a point. -/
def within (point : LatLng R) (meters : R) (idField geometryField : String) : Refinement R where
  predicate := .withinMeters geometryField point meters
  idField

/-- The columns that candidates must carry besides the identifier. -/
def columns (r : Refinement R) : List String :=
  r.predicate.columns

variable [Scalar R]

/-- Whether a row passes. -/
def accepts (r : Refinement R) (row : Row R) : Bool :=
  match r.predicate.evaluate row with
  | .ok b => b
  | .error _ => false

/-- The identifiers of the rows that pass. -/
def ids (r : Refinement R) (rows : List (Row R)) : List String :=
  Row.distinctIds r.idField (rows.filter r.accepts)

end Refinement

end TransitQuery
