import TransitQuery.Geometry.Cell
import TransitQuery.Geometry.Contains
import TransitQuery.Geometry.Distance
import TransitQuery.Geometry.Intersects
import TransitQuery.Predicate.Basic
import TransitQuery.Row

/-!
# Deciding predicates on rows

`Predicate.evaluate` decides a predicate on a row, from left to right and no further than needed.
A row whose cell is missing or holds no geometry satisfies no spatial leaf. Two things cannot be
decided on rows in memory: whether a geometry touches a boundary, and whether it meets a widened
boundary that is no point.

A verdict is either a truth value or an error, and the connectives are short-circuit: the right
operand of `and` is looked at only where the left one holds, and of `or` only where it does not. An
error on the left is therefore an error of the whole, and one on the right may never be seen. The
order of clauses matters for nothing else.

Attributes are compared as texts, and a cell has the text by which it would identify its row: a
number or a truth value is compared in its JSON form, and a cell that identifies nothing equals no
text. `Predicate.filter` decides all rows of a table and gives no rows at all if one of them cannot
be decided.
-/

namespace TransitQuery

variable {R : Type}

/-- Why a predicate cannot be decided on a row. -/
inductive EvaluationError (R : Type) where
  | badBoundary (cause : GeometryError R)
  | widenedBoundary
  | touches

variable [Scalar R]

/-- The wording of an error. -/
def EvaluationError.message : EvaluationError R → String
  | badBoundary cause => cause.message
  | widenedBoundary =>
    "evaluation error: buffered intersects is only evaluated in memory for point boundaries"
  | touches => "evaluation error: touches is not evaluated in memory"

/-- The geometry in a column, if there is a readable one. -/
def Row.geometry? (row : Row R) (column : String) : Option (Geometry R) :=
  (row.cell? column).bind fun v => (Geometry.ofCell v).toOption

/-- The distance in degrees from a point to a geometry is at most a radius. -/
def Geometry.isNear (g : Geometry R) (point : LatLng R) (radius : R) : Bool :=
  (g.degrees? point.position).any (· ≤ radius)

/-- Whether a geometry relates to a boundary, widened by a buffer. -/
def SpatialRelation.holds (relation : SpatialRelation) (g shape : Geometry R) (buffer : R) :
    Except (EvaluationError R) Bool :=
  match relation with
  | within => .ok (shape.contains g)
  | touches => .error .touches
  | intersects =>
    if Scalar.zero < buffer then
      match shape with
      | .point p => .ok (g.isNear p.latLng buffer)
      | _ => .error .widenedBoundary
    else .ok (shape.intersects g)

/-- Whether the box in four columns of a row overlaps another. -/
def Row.boxOverlaps (row : Row R) (columns : BoxColumns) (box : Box R) : Bool :=
  match row.number? columns.minx, row.number? columns.miny, row.number? columns.maxx,
      row.number? columns.maxy with
  | some minx, some miny, some maxx, some maxy =>
    minx ≤ box.maxx && box.minx ≤ maxx && miny ≤ box.maxy && box.miny ≤ maxy
  | _, _, _, _ => false

namespace Predicate

/-- Whether the geometry in a column relates to a boundary. -/
def boundaryHolds (row : Row R) (relation : SpatialRelation) (field wkt : String) (buffer : R) :
    Except (EvaluationError R) Bool :=
  match row.geometry? field with
  | none => .ok false
  | some g =>
    match Geometry.ofWkt wkt with
    | .error cause => .error (.badBoundary cause)
    | .ok shape => relation.holds g shape buffer

mutual

/-- Whether a row satisfies a predicate. -/
def evaluate (row : Row R) : Predicate R → Except (EvaluationError R) Bool
  | always => .ok true
  | and l r => do if ← evaluate row l then evaluate row r else return false
  | or l r => do if ← evaluate row l then return true else evaluate row r
  | not p => return !(← evaluate row p)
  | anyOf members => evaluateAny row members
  | equals field value => .ok (row.id? field = some value)
  | distanceWithin field point radius | intersectsBuffer field point radius =>
    .ok ((row.geometry? field).any (·.isNear point radius))
  | withinMeters field point meters =>
    .ok ((row.geometry? field).any (·.isWithin point meters))
  | boundary relation field wkt buffer => boundaryHolds row relation field wkt buffer
  | boxOverlap columns box => .ok (row.boxOverlaps columns box)

/-- Whether a row satisfies one of several predicates. -/
def evaluateAny (row : Row R) : List (Predicate R) → Except (EvaluationError R) Bool
  | [] => .ok false
  | p :: rest => do if ← evaluate row p then return true else evaluateAny row rest

end

theorem evaluate_not_eq (row : Row R) (p : Predicate R) :
    (not p).evaluate row = (do return !(← p.evaluate row)) := rfl

theorem evaluate_and_eq (row : Row R) (l r : Predicate R) :
    (and l r).evaluate row =
      (do if ← l.evaluate row then r.evaluate row else return false) := rfl

theorem evaluate_or_eq (row : Row R) (l r : Predicate R) :
    (or l r).evaluate row =
      (do if ← l.evaluate row then return true else r.evaluate row) := rfl

theorem evaluate_anyOf (row : Row R) (members : List (Predicate R)) :
    (anyOf members).evaluate row = evaluateAny row members := rfl

theorem evaluateAny_cons (row : Row R) (p : Predicate R) (rest : List (Predicate R)) :
    evaluateAny row (p :: rest) =
      (do if ← p.evaluate row then return true else evaluateAny row rest) := rfl

/-- The rows that satisfy a predicate, if it can be decided on all of them. -/
def filter (p : Predicate R) : List (Row R) → Except (EvaluationError R) (List (Row R))
  | [] => .ok []
  | row :: rest => do
    let keep ← p.evaluate row
    let kept ← p.filter rest
    return if keep then row :: kept else kept

end Predicate

end TransitQuery
