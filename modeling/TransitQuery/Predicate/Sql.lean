import TransitQuery.Predicate.Basic
import TransitQuery.Text.Joined

/-!
# Predicates as SQL

`Predicate.toSql` writes a predicate as a SQL condition. Names of columns stand between double
quotes and texts between single quotes, with a quote inside written twice, and every connective
has its own parentheses, so that no content can be taken for structure.

Finite numbers are written in plain decimal notation and never with an exponent. A boundary is
embedded as a text and handed to the engine's own reader; a buffer that is not positive leaves it
plain. The functions are those that spatial engines share: `ST_Distance`, `ST_Intersects`,
`ST_Within`, `ST_Touches`, `ST_Buffer`, and the distance on a sphere for exact forms.

A disjunction of no members is `FALSE`, one of a single member is that member, and one of two has
the text of `or`. So a condition does not tell from which tree it was written; but its parentheses
let it be read in one way only, and the trees with one text have one meaning.
-/

namespace TransitQuery

namespace Sql

/-- The name of a column or table. -/
def identifier (name : String) : List Char :=
  Text.enclosed '"' name.toList

/-- A text. -/
def literal (value : String) : List Char :=
  Text.enclosed '\'' value.toList

/-- A function applied to arguments. -/
def call (name : String) (arguments : List (List Char)) : List Char :=
  name.toList ++ '(' :: Text.separated [',', ' '] arguments ++ [')']

/-- Two operands with an operator between them. -/
def operation (left : List Char) (operator : String) (right : List Char) : List Char :=
  left ++ ' ' :: operator.toList ++ ' ' :: right

/-- An expression in parentheses. -/
def grouped (s : List Char) : List Char :=
  '(' :: s ++ [')']

variable {R : Type} [Scalar R]

/-- A point, longitude first. -/
def point (p : LatLng R) : List Char :=
  call "ST_Point" [Scalar.chars p.lng, Scalar.chars p.lat]

/-- A shape widened by a radius. -/
def buffered (shape : List Char) (radius : R) : List Char :=
  call "ST_Buffer" [shape, Scalar.chars radius]

/-- A boundary, widened if the buffer is positive. -/
def shape (wkt : String) (buffer : R) : List Char :=
  let plain := call "ST_GeomFromText" [literal wkt]
  if Scalar.zero < buffer then buffered plain buffer else plain

/-- The comparison of a column with a scalar. -/
def comparison (column operator : String) (x : R) : List Char :=
  operation (identifier column) operator (Scalar.chars x)

/-- The four comparisons by which two boxes overlap. -/
def overlap (columns : BoxColumns) (box : Box R) : List Char :=
  grouped (Text.separated " AND ".toList
    [comparison columns.minx "<=" box.maxx, comparison columns.maxx ">=" box.minx,
      comparison columns.miny "<=" box.maxy, comparison columns.maxy ">=" box.miny])

end Sql

/-- The SQL function for a relation. -/
def SpatialRelation.sqlFunction : SpatialRelation → String
  | intersects => "ST_Intersects"
  | within => "ST_Within"
  | touches => "ST_Touches"

namespace Predicate

variable {R : Type} [Scalar R]

mutual

/-- The SQL condition for a predicate. -/
def sqlChars : Predicate R → List Char
  | always => "TRUE".toList
  | and l r => Sql.grouped (Sql.operation (sqlChars l) "AND" (sqlChars r))
  | or l r => Sql.grouped (Sql.operation (sqlChars l) "OR" (sqlChars r))
  | not p => "NOT ".toList ++ Sql.grouped (sqlChars p)
  | anyOf [] => "FALSE".toList
  | anyOf [p] => sqlChars p
  | anyOf members => Sql.grouped (Text.separated " OR ".toList (memberSqlChars members))
  | equals field value => Sql.operation (Sql.identifier field) "=" (Sql.literal value)
  | distanceWithin field point radius =>
    Sql.operation (Sql.call "ST_Distance" [Sql.identifier field, Sql.point point]) "<="
      (Scalar.chars radius)
  | intersectsBuffer field point radius =>
    Sql.call "ST_Intersects" [Sql.identifier field, Sql.buffered (Sql.point point) radius]
  | withinMeters field point meters =>
    Sql.operation (Sql.call "ST_Distance_Sphere" [Sql.identifier field, Sql.point point]) "<="
      (Scalar.chars meters)
  | boundary relation field wkt buffer =>
    Sql.call relation.sqlFunction [Sql.identifier field, Sql.shape wkt buffer]
  | boxOverlap columns box => Sql.overlap columns box

/-- The SQL conditions for several predicates. -/
def memberSqlChars : List (Predicate R) → List (List Char)
  | [] => []
  | p :: rest => sqlChars p :: memberSqlChars rest

end

theorem sqlChars_and (l r : Predicate R) :
    (and l r).sqlChars = Sql.grouped (Sql.operation l.sqlChars "AND" r.sqlChars) := rfl

theorem sqlChars_or (l r : Predicate R) :
    (or l r).sqlChars = Sql.grouped (Sql.operation l.sqlChars "OR" r.sqlChars) := rfl

theorem sqlChars_not (p : Predicate R) :
    (not p).sqlChars = "NOT ".toList ++ Sql.grouped p.sqlChars := rfl

theorem sqlChars_anyOf_singleton (p : Predicate R) : (anyOf [p]).sqlChars = p.sqlChars := rfl

theorem sqlChars_anyOf_cons (p q : Predicate R) (rest : List (Predicate R)) :
    (anyOf (p :: q :: rest)).sqlChars =
      Sql.grouped (Text.separated " OR ".toList (memberSqlChars (p :: q :: rest))) := rfl

theorem sqlChars_equals (field value : String) :
    (equals field value : Predicate R).sqlChars =
      Sql.operation (Sql.identifier field) "=" (Sql.literal value) := rfl

theorem sqlChars_distanceWithin (field : String) (point : LatLng R) (radius : R) :
    (distanceWithin field point radius).sqlChars =
      Sql.operation (Sql.call "ST_Distance" [Sql.identifier field, Sql.point point]) "<="
        (Scalar.chars radius) := rfl

theorem sqlChars_intersectsBuffer (field : String) (point : LatLng R) (radius : R) :
    (intersectsBuffer field point radius).sqlChars =
      Sql.call "ST_Intersects" [Sql.identifier field, Sql.buffered (Sql.point point) radius] := rfl

theorem sqlChars_withinMeters (field : String) (point : LatLng R) (meters : R) :
    (withinMeters field point meters).sqlChars =
      Sql.operation (Sql.call "ST_Distance_Sphere" [Sql.identifier field, Sql.point point]) "<="
        (Scalar.chars meters) := rfl

theorem sqlChars_boundary (relation : SpatialRelation) (field wkt : String) (buffer : R) :
    (boundary relation field wkt buffer).sqlChars =
      Sql.call relation.sqlFunction [Sql.identifier field, Sql.shape wkt buffer] := rfl

theorem sqlChars_boxOverlap (columns : BoxColumns) (box : Box R) :
    (boxOverlap columns box).sqlChars = Sql.overlap columns box := rfl

theorem memberSqlChars_cons (p : Predicate R) (rest : List (Predicate R)) :
    memberSqlChars (p :: rest) = p.sqlChars :: memberSqlChars rest := rfl

/-- The SQL condition for a predicate. -/
def toSql (p : Predicate R) : String :=
  String.ofList p.sqlChars

end Predicate

end TransitQuery
