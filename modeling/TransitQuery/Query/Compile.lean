import TransitQuery.Query.Hash
import TransitQuery.Query.Validate

/-!
# Compiling queries

`SpatialQuery.compile` validates a query in a context and brings it to a contract: the main
clause from the query's own fields, then each block resolved, in order. A query that is not valid
is never compiled; all that is wrong with it is reported.

The order of the two steps matters for what is reported. A query with violations is reported with
all of them, in the order of the rules, and is not resolved at all; on a query without violations
every block resolves, so that `CompileError.unresolved` is never met behind a successful
validation. A contract takes over from the context the boundary and a summary of what the context
could do, and from the query its digest.

Nothing is looked up here: the compiler reads a query, a context and a time, and two calls with the
same three give the same contract.
-/

namespace TransitQuery

variable {R : Type}

/-- Why a query is not compiled. -/
inductive CompileError (R : Type) where
  | invalid (violations : List (Violation R))
  | unresolved (cause : ResolveError)

/-- One message for each thing that is wrong. -/
def CompileError.messages [Scalar R] : CompileError R → List String
  | invalid violations => violations.map Violation.message
  | unresolved cause => [cause.message]

namespace SpatialQuery

/-- The main clause of a query. -/
def mainClause (q : SpatialQuery R) : MainClause R where
  target := q.target
  distance := q.distance
  relation := Relation.ofCondition q.condition

/-- The blocks of a query, resolved in order. -/
def resolveBlocks (q : SpatialQuery R) : Except ResolveError (List (Supplement R)) :=
  q.blocks.mapM (Block.resolve q.distance)

variable [Scalar R]

/-- The contract for a query in a context, made at a given time. -/
def compile (now : Instant) (q : SpatialQuery R) (c : Context R) :
    Except (CompileError R) (Contract R) :=
  match q.violations c with
  | [] =>
    match q.resolveBlocks with
    | .error cause => .error (.unresolved cause)
    | .ok supplements =>
      .ok {
        version := Contract.currentVersion
        find := q.find
        entries := .main q.mainClause :: supplements.map .supplement
        boundary := c.boundary
        compiledAt := now
        context := ContextSnapshot.ofContext c
        hash := q.hash }
  | violations => .error (.invalid violations)

end SpatialQuery

end TransitQuery
