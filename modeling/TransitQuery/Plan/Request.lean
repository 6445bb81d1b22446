import TransitQuery.Predicate.Sql

/-!
# Requests to an engine

A request asks for the distinct rows of a table that satisfy a predicate, reduced to some of their
columns. The column with the identifier comes first, and no column twice.

The columns of a request are the identifier, the geometry if a refinement needs it, and whatever
else the refinement reads, in that order and without repetition (`Request.columns`). The predicate
is part of the request as a tree. `Request.toSql` is its text for an engine that speaks SQL; the
store in memory evaluates the tree instead, and that both mean the same rows is what the theory of
the SQL condition is about.

Rows are distinct by their requested columns and not by their identifier, so that one identifier
may come back with several rows.
-/

namespace TransitQuery

/-- What an engine is asked for. -/
structure Request (R : Type) where
  table : String
  idField : String
  /-- The column with the geometry, if it is needed. -/
  geometryField : Option String
  extraColumns : List String
  predicate : Predicate R

namespace Request

variable {R : Type}

/-- The columns that are asked for. -/
def columns (r : Request R) : List String :=
  (r.idField :: (r.geometryField.toList ++ r.extraColumns)).eraseDups

variable [Scalar R]

/-- The request as a SQL statement. -/
def toSql (r : Request R) : String :=
  String.ofList <|
    "SELECT DISTINCT ".toList ++ Text.separated [',', ' '] (r.columns.map Sql.identifier) ++
      " FROM ".toList ++ Sql.identifier r.table ++ " WHERE ".toList ++ r.predicate.sqlChars

end Request

end TransitQuery
