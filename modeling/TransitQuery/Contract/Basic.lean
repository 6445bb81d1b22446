import TransitQuery.Query.Basic
import TransitQuery.Query.Context
import TransitQuery.Time.Instant

/-!
# Contracts

A contract is a validated query in normal form, which the compiler hands to whoever builds and
runs predicates. Its entries start with the main clause, taken from the query's own target,
radius and condition; each further entry is a clause resolved from one block.

A clause has just the content that its operator has: a radius, a text, or nothing. So nothing of a
block that its operator ignores gets into a contract. The boundary and what the context had at that
time (`ContextSnapshot`) are kept beside the entries, and so are the version of the contract, the
time of its compilation and the digest of the query. A contract can be read by others as long as
the first part of its version is the same (`Contract.isCompatible`).
-/

namespace TransitQuery

/-- How results relate to the target of the main clause. -/
inductive Relation where
  | within
  | intersects
  deriving DecidableEq

/-- The clause that comes from the query itself. -/
structure MainClause (R : Type) where
  target : Target
  /-- The radius in meters. -/
  distance : R
  relation : Relation
  deriving DecidableEq, BEq

/-- What a resolved block tests, with exactly the content that its operator has. -/
inductive Clause (R : Type) where
  | nearPoint (distance : R)
  | touchesBoundary
  | insideBoundary
  | operator (value : String)
  | mode (value : String)
  deriving DecidableEq, BEq

/-- A resolved block. -/
structure Supplement (R : Type) where
  type : BlockType
  clause : Clause R
  deriving DecidableEq, BEq

/-- One entry of a contract. -/
inductive Entry (R : Type) where
  | main (clause : MainClause R)
  | supplement (clause : Supplement R)
  deriving DecidableEq, BEq

/-- What the context of a compilation had. -/
structure ContextSnapshot where
  hasPoint : Bool
  hasBoundary : Bool
  spatialReady : Bool
  deriving DecidableEq

/-- A validated query in normal form. -/
structure Contract (R : Type) where
  version : String
  find : Find
  entries : List (Entry R)
  boundary : Option (Boundary R)
  compiledAt : Instant
  context : ContextSnapshot
  /-- The digest of the query. -/
  hash : String
  deriving BEq

/-- The name of a relation. -/
def Relation.name : Relation → String
  | within => "within"
  | intersects => "intersects"

/-- The relation with a name; names that are not known mean `within`. -/
def Relation.ofName (name : String) : Relation :=
  if name = intersects.name then intersects else within

/-- The relation that a condition asks for. -/
def Relation.ofCondition : Condition → Relation
  | .within => within
  | .intersect => intersects

variable {R : Type}

/-- The operator that a clause was resolved from. -/
def Clause.kind : Clause R → BlockOperator
  | nearPoint _ => .nearPoint
  | touchesBoundary => .touchesBoundary
  | insideBoundary => .insideBoundary
  | operator _ => .operator
  | mode _ => .mode

/-- What a context has. -/
def ContextSnapshot.ofContext (c : Context R) : ContextSnapshot where
  hasPoint := c.hasPoint
  hasBoundary := c.hasBoundary
  spatialReady := c.spatialReady

namespace Contract

/-- The version of the contracts written here. -/
def currentVersion : String := "1.0.0"

/-- The version up to its first point. Contracts that agree in it can be read. -/
def majorOf (version : String) : String :=
  String.ofList (version.toList.takeWhile (· != '.'))

/-- Whether a contract can be read. -/
def isCompatible (c : Contract R) : Bool :=
  majorOf c.version = majorOf currentVersion

/-- The main clause, if the contract starts with one. -/
def mainClause? (c : Contract R) : Option (MainClause R) :=
  match c.entries with
  | .main m :: _ => some m
  | _ => none

/-- The resolved blocks after the first entry. -/
def supplements (c : Contract R) : List (Supplement R) :=
  (c.entries.drop 1).filterMap fun
    | .supplement s => some s
    | .main _ => none

end Contract

end TransitQuery
