import TransitQuery.Contract.Basic

/-!
# Resolving blocks

`Block.resolve` turns a block as the caller wrote it into a clause with the content that its
operator defines. What the operator does not define is dropped, and a block near the point that
gives no radius takes the one of its query.

A resolved block is what later stages work with: a type, and a clause that has exactly the content
of its operator (`BlockOperator.clause`). An attribute without a value gets the empty one, which
accepts every row; validation reports it, resolving does not.

The type is looked at before the operator, so that a block with both unknown is reported for its
type. Resolving fails in just these three ways, an unknown type, an unknown operator and a missing
one, each of which validation reports as well.
-/

namespace TransitQuery

/-- Why a block resolves to no clause. -/
inductive ResolveError where
  | block (cause : BlockError)
  | missingOperator
  deriving DecidableEq

/-- The wording of the error. -/
def ResolveError.message : ResolveError → String
  | block cause => cause.message
  | missingOperator => "operator is required"

variable {R : Type}

/-- The clause with an operator and the content that a block gives for it. -/
def BlockOperator.clause (op : BlockOperator) (inherited : R) (b : Block R) : Clause R :=
  match op with
  | nearPoint => .nearPoint (b.distance.getD inherited)
  | touchesBoundary => .touchesBoundary
  | insideBoundary => .insideBoundary
  | operator => .operator (b.value.getD "")
  | mode => .mode (b.value.getD "")

/-- The clause that a block of a query with radius `inherited` stands for. -/
def Block.resolve (inherited : R) (b : Block R) : Except ResolveError (Supplement R) :=
  match b.parsedType with
  | .error e => .error (.block e)
  | .ok type =>
    match b.parsedOperator with
    | none => .error .missingOperator
    | some (.error e) => .error (.block e)
    | some (.ok op) => .ok { type, clause := op.clause inherited b }

end TransitQuery
