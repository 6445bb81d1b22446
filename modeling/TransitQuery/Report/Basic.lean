import TransitQuery.Contract.Json
import TransitQuery.Plan.Basic
import TransitQuery.Query.Describe
import TransitQuery.Report.Csv
import TransitQuery.Report.Table
import TransitQuery.Result

/-!
# Reports

Results, contracts and explanations as text, in one of three formats: as a drawn table, as JSON,
or as comma-separated values. A result that reports a failure is written as an error.

The three formats do not show the same. JSON gives a result, a contract or an explanation whole, as
it is exchanged; the other two show named parts, one pair of name and text for each
(`Contract.rows`, `Explanation.rows`), or the identifiers of a result. A table of identifiers ends
with their number.

In JSON a failed result is still a result, with its message or messages in their own fields. As a
table or as values it is one message, several of them joined by semicolons. A contract is summed
up: a main clause by relation, target and radius, each block by type and operator, in order and
counted from one.
-/

namespace TransitQuery

/-- How reports are written. -/
inductive ReportFormat where
  | table
  | json
  | csv
  deriving DecidableEq

/-- How a query would run. -/
structure Explanation where
  description : String
  hash : String
  tier : String
  predicate : String
  statement : String
  /-- Whether candidates are refined. -/
  refined : Bool

/-- The name of a format. -/
def ReportFormat.name : ReportFormat → String
  | table => "table"
  | json => "json"
  | csv => "csv"

/-- The format with a name. -/
def ReportFormat.ofName? (name : String) : Option ReportFormat :=
  [table, json, csv].find? (·.name = name)

variable {R : Type}

namespace Explanation

/-- The parts of an explanation by name. -/
def rows (e : Explanation) : List (String × String) :=
  [("description", e.description), ("hash", e.hash), ("tier", e.tier),
    ("predicate", e.predicate), ("statement", e.statement),
    ("post_filter", if e.refined then "true" else "false")]

/-- Writes an explanation. -/
def toJson (e : Explanation) : Json R :=
  .obj [("description", .str e.description), ("hash", .str e.hash), ("tier", .str e.tier),
    ("predicate", .str e.predicate), ("statement", .str e.statement),
    ("post_filter", .bool e.refined)]

variable [Scalar R]

/-- The explanation of a query, its contract and its plan. -/
def ofPlan (q : SpatialQuery R) (contract : Contract R) (plan : Plan R) : Explanation where
  description := q.describe
  hash := contract.hash
  tier := plan.tier.name
  predicate := plan.request.predicate.toSql
  statement := plan.request.toSql
  refined := plan.refinement.isSome

end Explanation

variable [Scalar R]

/-- The main clause in a few words. -/
def MainClause.summary (m : MainClause R) : String :=
  m.relation.name ++ " " ++ m.target.name ++ " (" ++ Scalar.text m.distance ++ "m)"

/-- The resolved blocks in a few words each, counted from `n`. -/
def supplementRows : Nat → List (Supplement R) → List (String × String)
  | _, [] => []
  | n, s :: rest =>
    ("block " ++ toString n, s.type.name ++ " " ++ s.clause.kind.name) ::
      supplementRows (n + 1) rest

/-- The parts of a contract by name. -/
def Contract.rows (c : Contract R) : List (String × String) :=
  [("version", c.version), ("find", c.find.name), ("hash", c.hash)] ++
    (c.mainClause?.map fun m => ("main", m.summary)).toList ++ supplementRows 1 c.supplements

namespace Report

/-- Named parts, drawn as a table. -/
def fieldTable (rows : List (String × String)) : String :=
  Table.draw ["field", "value"] (rows.map fun r => [r.1, r.2])

/-- An error. -/
def failure (format : ReportFormat) (message : String) : String :=
  match format with
  | .table => "Error: " ++ message
  | .json => (Json.obj (R := R) [("error", .str message), ("success", .bool false)]).compact
  | .csv => String.ofList (Csv.failure message)

/-- Identifiers below their heading, and their number. -/
def idTable (ids : List String) : String :=
  Table.draw ["service_id"] (ids.map ([·])) ++ "\n" ++ toString ids.length ++ " match(es)"

/-- The result of a query. -/
def result (format : ReportFormat) (r : QueryResult) : String :=
  match format, r.message? with
  | .json, _ => (r.toJson (R := R)).pretty
  | format, some message => failure (R := R) format message
  | .table, none => idTable r.ids
  | .csv, none => String.ofList (Csv.column "service_id" r.ids)

/-- A contract. -/
def contract (format : ReportFormat) (c : Contract R) : String :=
  match format with
  | .table => fieldTable c.rows
  | .json => c.toJson.pretty
  | .csv => String.ofList (Csv.fields c.rows)

/-- An explanation. -/
def explanation (format : ReportFormat) (e : Explanation) : String :=
  match format with
  | .table => fieldTable e.rows
  | .json => (e.toJson (R := R)).pretty
  | .csv => String.ofList (Csv.fields e.rows)

end Report

end TransitQuery
