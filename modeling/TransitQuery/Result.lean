import TransitQuery.Json.Record
import TransitQuery.Text.Joined

/-!
# Results

The outcome of running a query, as it is handed to the caller: the identifiers and their number,
or one message, or one message for each thing that is wrong with the query.

Which fields are there says what happened. A success has identifiers and their number and nothing
else; a query that is not valid has the list of its messages; every other failure has one message.
The three makers (`ofIds`, `failure`, `invalid`) are the only ones that the service uses, but a
result that is read from elsewhere can have any combination, and `message?` prefers the single
message to the list.

A result is written without the fields that it does not have. The number of identifiers is written
beside them although it follows from them, because callers read it alone.
-/

namespace TransitQuery

/-- The outcome of running a query. -/
structure QueryResult where
  success : Bool
  serviceIds : Option (List String)
  count : Option Nat
  error : Option String
  errors : Option (List String)
  deriving DecidableEq

namespace QueryResult

/-- The result that lists identifiers. -/
def ofIds (ids : List String) : QueryResult where
  success := true
  serviceIds := some ids
  count := some ids.length
  error := none
  errors := none

/-- The result of a failure. -/
def failure (message : String) : QueryResult where
  success := false
  serviceIds := none
  count := none
  error := some message
  errors := none

/-- The result of a query that is not valid. -/
def invalid (messages : List String) : QueryResult where
  success := false
  serviceIds := none
  count := none
  error := none
  errors := some messages

/-- The identifiers; none after a failure. -/
def ids (r : QueryResult) : List String :=
  r.serviceIds.getD []

/-- What went wrong, in one line. -/
def message? (r : QueryResult) : Option String :=
  match r.error with
  | some message => some message
  | none => r.errors.map (Text.joined "; ")

variable {R : Type}

/-- Reads a result. -/
def ofJson? (v : Json R) : Option QueryResult := do
  let [success, serviceIds, count, error, errors] ←
    v.fields? ["success", "serviceIds", "count", "error", "errors"] | none
  return {
    success := ← Json.required Json.bool? success
    serviceIds := ← Json.optional (Json.listOf? Json.string?) serviceIds
    count := ← Json.optional Json.natural? count
    error := ← Json.optional Json.string? error
    errors := ← Json.optional (Json.listOf? Json.string?) errors }

/-- Writes a result without what it does not have. -/
def toJson (r : QueryResult) : Json R :=
  .obj (("success", .bool r.success) ::
    (Json.memberIfSome "serviceIds" texts r.serviceIds ++
      Json.memberIfSome "count" (fun n => .int n) r.count ++
      Json.memberIfSome "error" .str r.error ++
      Json.memberIfSome "errors" texts r.errors))
where
  /-- An array of strings. -/
  texts (xs : List String) : Json R := .arr (xs.map .str)

end QueryResult

end TransitQuery
