import TransitQuery.Scalar.Basic

/-!
# Queries

A query asks for routes or stops that lie within, or intersect, a disc around the selected point
or a boundary. It is refined by an ordered list of blocks. A block is kept as the caller wrote it,
with its type and operator as plain names; `Block.parsedType` and `Block.parsedOperator` give them
their meaning. Nothing is validated here.

Names that are not known are not all treated alike. A condition that is not known is an
intersection; a target or a kind of result that is not known is an error of reading; a block type
or operator that is not known is kept as a name and reported by validation, together with
everything else that is wrong. A block without a type is included, one without an operator is
reported.

A block may carry a value and a distance whatever its operator is. Which of the two counts is
decided when it is resolved, so that two blocks can differ as written and ask for the same.
-/

namespace TransitQuery

/-- What a query returns. -/
inductive Find where
  | routes
  | stops
  deriving DecidableEq

/-- How the results lie to the target. -/
inductive Condition where
  /-- Inside the target, or within a distance of it. -/
  | within
  /-- Sharing a point with the target or its surroundings. -/
  | intersect
  deriving DecidableEq

/-- What the results are measured against. -/
inductive Target where
  | selectedPoint
  | boundary
  deriving DecidableEq

/-- How a block combines with the expression before it. -/
inductive BlockType where
  /-- The expression and the block. -/
  | included
  /-- The expression and not the block. -/
  | excluded
  /-- The expression or the block. -/
  | alsoIncluded
  deriving DecidableEq

/-- What a block tests. -/
inductive BlockOperator where
  | nearPoint
  | touchesBoundary
  | insideBoundary
  | operator
  | mode
  deriving DecidableEq

/-- A refinement as the caller wrote it. -/
structure Block (R : Type) where
  kind : Option String
  operator : Option String
  value : Option String
  distance : Option R
  deriving DecidableEq, BEq

/-- A declarative query over routes or stops. -/
structure SpatialQuery (R : Type) where
  find : Find
  condition : Condition
  /-- The radius in meters. -/
  distance : R
  target : Target
  blocks : List (Block R)
  deriving DecidableEq, BEq

/-! ### Names -/

/-- The name of what is found. -/
def Find.name : Find → String
  | routes => "routes"
  | stops => "stops"

/-- The kind with a name. -/
def Find.ofName? (name : String) : Option Find :=
  [routes, stops].find? (·.name = name)

/-- The name of a condition. -/
def Condition.name : Condition → String
  | within => "within"
  | intersect => "intersect"

/-- The condition with a name; names that are not known mean `intersect`. -/
def Condition.ofName (name : String) : Condition :=
  if name = within.name then within else intersect

/-- The name of a target. -/
def Target.name : Target → String
  | selectedPoint => "selected_point"
  | boundary => "boundary"

/-- The target with a name. -/
def Target.ofName? (name : String) : Option Target :=
  [selectedPoint, boundary].find? (·.name = name)

/-- The name of a block type. -/
def BlockType.name : BlockType → String
  | included => "include"
  | excluded => "exclude"
  | alsoIncluded => "also-include"

/-- The block type with a name. -/
def BlockType.ofName? (name : String) : Option BlockType :=
  [included, excluded, alsoIncluded].find? (·.name = name)

namespace BlockOperator

/-- All operators, in the order in which they are numbered. -/
def all : List BlockOperator :=
  [nearPoint, touchesBoundary, insideBoundary, operator, mode]

/-- The name of an operator. -/
def name : BlockOperator → String
  | nearPoint => "near_point"
  | touchesBoundary => "touches_boundary"
  | insideBoundary => "inside_boundary"
  | operator => "operator"
  | mode => "mode"

/-- The operator with a name. -/
def ofName? (name : String) : Option BlockOperator :=
  all.find? (·.name = name)

/-- Whether the operator compares an attribute with a value. -/
def isAttribute : BlockOperator → Bool
  | operator | mode => true
  | _ => false

end BlockOperator

/-! ### Blocks -/

/-- Why a block has no type or operator. -/
inductive BlockError where
  | unknownType (name : String)
  | unknownOperator (name : String)
  deriving DecidableEq

/-- The wording of a block error. -/
def BlockError.message : BlockError → String
  | unknownType name => "deserialization error: unknown block type '" ++ name ++ "'"
  | unknownOperator name => "deserialization error: unknown block operator '" ++ name ++ "'"

namespace Block

variable {R : Type}

/-- How the block combines. A block without a type is included. -/
def parsedType (b : Block R) : Except BlockError BlockType :=
  match b.kind with
  | none => .ok .included
  | some name =>
    match BlockType.ofName? name with
    | some t => .ok t
    | none => .error (.unknownType name)

/-- What the block tests, if it says. -/
def parsedOperator (b : Block R) : Option (Except BlockError BlockOperator) :=
  b.operator.map fun name =>
    match BlockOperator.ofName? name with
    | some op => .ok op
    | none => .error (.unknownOperator name)

end Block

namespace SpatialQuery

variable {R : Type} [Scalar R]

/-- The radius in meters of a query that gives none. -/
def defaultDistance : R :=
  Scalar.ofInt 300

/-- Routes that intersect a disc around the selected point. -/
def default : SpatialQuery R where
  find := .routes
  condition := .intersect
  distance := defaultDistance
  target := .selectedPoint
  blocks := []

end SpatialQuery

end TransitQuery
