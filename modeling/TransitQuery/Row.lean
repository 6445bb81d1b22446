import TransitQuery.Json.Printer

/-!
# Rows

A row is a list of named cells, sorted by name. A column that a row does not have reads like one
that holds `null`.

Rows are compared, reduced and printed, and sorting by name is what makes these three agree: a row
that is reduced to some columns does not depend on the order in which they are named. Projection
fills missing columns with `null`, so that all rows of an answer have the same columns.

An identifier is a text. A cell that holds a number identifies by its JSON text, which means that
the integer `7` and the string `"7"` are the same service and `7` and `7.0` are not. Rows without a
usable identifier are not reported. Of several rows with one identifier the first one sets the
place in the order.
-/

namespace TransitQuery

/-- The cells of a row, sorted by name. -/
abbrev Row (R : Type) := List (String × Json R)

namespace Row

variable {R : Type}

/-- The cell in a column, if the row has the column. -/
def cell? (row : Row R) (column : String) : Option (Json R) :=
  Json.lookup column row

/-- The row with exactly the given columns, the missing ones filled with `null`. -/
def project (columns : List String) (row : Row R) : Row R :=
  Json.sortMembers (columns.map fun c => (c, (row.cell? c).getD .null))

variable [Scalar R]

/-- The text of a cell that can identify a row: a string as it is, a number or a truth value as
in JSON. Other cells identify nothing. -/
def idText? : Json R → Option String
  | .str s => some s
  | .int i => some (Json.int (R := R) i).compact
  | .real x => some (Json.real x).compact
  | .bool b => some (Json.bool (R := R) b).compact
  | _ => none

/-- The identifier of a row. -/
def id? (column : String) (row : Row R) : Option String :=
  (row.cell? column).bind idText?

/-- The identifiers of rows, each once, in the order in which they first occur. -/
def distinctIds (column : String) (rows : List (Row R)) : List String :=
  (rows.filterMap (id? column)).eraseDups

/-- The scalar in a column. -/
def number? (row : Row R) (column : String) : Option R :=
  (row.cell? column).bind Json.number?

end Row

end TransitQuery
