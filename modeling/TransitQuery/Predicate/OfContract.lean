import TransitQuery.Contract.Basic
import TransitQuery.Predicate.Basic
import TransitQuery.Predicate.Tier
import TransitQuery.Wkt.Boundary

/-!
# Predicates of contracts

`ClauseContext.predicate` turns a contract into a predicate for one context. The main clause stands
first; each further clause that is not trivial is joined to all before it, as its type says:
included by `and`, excluded by `and` and `not`, also included by `or`.

Point clauses are tested by the tier of the context, or exactly in meters on a given column when
candidates are checked again. Boundary clauses need the native tier.

The builder does not validate, but it does not trust its input either: a contract may have been
stored by another version, so that its version, its first entry and the number of its main clauses
are checked again, and each has an error of its own (`BuildError`). What a clause needs from the
context is asked for where the clause is built, and the first clause that lacks something ends the
whole.

An attribute clause without a value accepts every row and is dropped from the join, as are trivial
clauses in general (`BlockType.join`). A join is left to right without precedence: what is also
included widens everything before it, and what is excluded afterwards narrows that again. The exact
form differs in its point clauses only; boundary and attribute clauses are built the same way in
both.
-/

namespace TransitQuery

/-- Where a clause comes from. -/
inductive ClauseOrigin where
  | main
  | block (op : BlockOperator)
  deriving DecidableEq

/-- The name of a clause in messages. -/
def ClauseOrigin.name : ClauseOrigin → String
  | main => "the main clause"
  | block op => op.name

/-- An attribute that needs a column. -/
inductive Attribute where
  | operator
  | mode
  deriving DecidableEq

/-- The name of an attribute. -/
def Attribute.name : Attribute → String
  | operator => "operator"
  | mode => "mode"

/-- Why no predicate can be built. -/
inductive BuildError (R : Type) where
  | noTier
  | polarPoint (lat : R)
  | boundaryNeedsNative (origin : ClauseOrigin)
  | noGeometryField
  | missingPoint (origin : ClauseOrigin)
  | missingBoundary (origin : ClauseOrigin)
  | badBoundary (cause : BoundaryError R)
  | missingBoxColumns
  | missingColumn (name : Attribute)
  | incompatibleVersion (version : String)
  | startsWithoutMain
  | secondMain (index : Nat)
  | noEntries

/-- Where clauses become predicates: a context, its tier, and how exactly points are tested. -/
structure ClauseContext (R : Type) where
  context : Context R
  tier : Tier
  /-- The column on which point clauses are tested in meters, if they are. -/
  exactField : Option String

variable {R : Type}

namespace ClauseContext

/-- The clauses of a context, point clauses tested by its tier. -/
def ofContext (c : Context R) : Except (BuildError R) (ClauseContext R) :=
  match Tier.select c with
  | none => .error .noTier
  | some tier => .ok { context := c, tier, exactField := none }

/-- The same, with point clauses tested in meters on a column. -/
def exactOn (s : ClauseContext R) (field : String) : ClauseContext R :=
  { s with exactField := some field }

/-- The geometry column, which the native tier needs. -/
def geometryField (s : ClauseContext R) : Except (BuildError R) String :=
  match s.context.geometryField with
  | some field => .ok field
  | none => .error .noGeometryField

variable [Scalar R]

/-! ### Clauses -/

/-- The leaf that tests a relation to a point on the native tier. -/
def nativeLeaf (relation : Relation) (field : String) (p : LatLng R) (distance : R) :
    Predicate R :=
  match relation with
  | .within => .distanceWithin field p (degreesOfMeters distance)
  | .intersects => .intersectsBuffer field p (degreesOfMeters distance)

/-- The leaf that tests a relation to a point on the tier in use. -/
def tierLeaf (s : ClauseContext R) (relation : Relation) (p : LatLng R) (distance : R) :
    Except (BuildError R) (Predicate R) :=
  match s.tier with
  | .native => do return nativeLeaf relation (← s.geometryField) p distance
  | .bbox =>
    match s.context.bboxFields with
    | none => .error .missingBoxColumns
    | some columns =>
      match p.surroundings? distance with
      | none => .error (.polarPoint p.lat)
      | some box => .ok (.boxOverlap columns box)

/-- The clause that relates rows to the selected point. -/
def pointClause (s : ClauseContext R) (origin : ClauseOrigin) (relation : Relation)
    (distance : R) : Except (BuildError R) (Predicate R) :=
  match s.context.point with
  | none => .error (.missingPoint origin)
  | some p =>
    -- the exact form does not depend on the tier
    match s.exactField with
    | some field => .ok (.withinMeters field p distance)
    | none => s.tierLeaf relation p distance

/-- The clause that relates rows to a boundary, widened by a buffer in meters. -/
def boundaryClause (s : ClauseContext R) (origin : ClauseOrigin) (relation : SpatialRelation)
    (buffer : R) (given : Option (Boundary R)) : Except (BuildError R) (Predicate R) :=
  if s.tier ≠ .native then .error (.boundaryNeedsNative origin)
  else
    match given with
    | none => .error (.missingBoundary origin)
    | some shape => do
      let field ← s.geometryField
      match shape.toWkt with
      | .error cause => .error (.badBoundary cause)
      | .ok wkt => .ok (.boundary relation field wkt (degreesOfMeters buffer))

/-- The predicate of a main clause, with a given boundary. -/
def mainWith (s : ClauseContext R) (given : Option (Boundary R)) (m : MainClause R) :
    Except (BuildError R) (Predicate R) :=
  match m.target, m.relation with
  | .selectedPoint, relation => s.pointClause .main relation m.distance
  | .boundary, .within => s.boundaryClause .main .within Scalar.zero given
  | .boundary, .intersects => s.boundaryClause .main .intersects m.distance given

/-- The predicate of an attribute clause. Blank values accept every row. -/
def attributeClause (value : String) (make : Except (BuildError R) (Predicate R)) :
    Except (BuildError R) (Predicate R) :=
  if Text.isBlankString value then .ok .always else make

/-- The predicate of a resolved clause, with a given boundary. -/
def clauseWith (s : ClauseContext R) (given : Option (Boundary R)) (c : Clause R) :
    Except (BuildError R) (Predicate R) :=
  let origin := ClauseOrigin.block c.kind
  match c with
  | .nearPoint distance => s.pointClause origin .within distance
  | .touchesBoundary => s.boundaryClause origin .touches Scalar.zero given
  | .insideBoundary => s.boundaryClause origin .within Scalar.zero given
  | .operator value => attributeClause value <|
    if s.context.operatorFields.isEmpty then .error (.missingColumn .operator)
    else .ok (.anyOf (s.context.operatorFields.map (Predicate.equals · value)))
  | .mode value => attributeClause value <|
    match s.context.modeField with
    | none => .error (.missingColumn .mode)
    | some field => .ok (.equals field value)

/-- The predicate of a main clause, with the boundary of the context. -/
def mainClause (s : ClauseContext R) (m : MainClause R) :
    Except (BuildError R) (Predicate R) :=
  s.mainWith s.context.boundary m

/-- The predicate of a resolved clause, with the boundary of the context. -/
def clause (s : ClauseContext R) (c : Clause R) : Except (BuildError R) (Predicate R) :=
  s.clauseWith s.context.boundary c

end ClauseContext

/-! ### Joining clauses -/

/-- Joins a clause to the expression before it. A trivial clause changes nothing. -/
def BlockType.join (type : BlockType) (expression : Option (Predicate R)) (clause : Predicate R) :
    Option (Predicate R) :=
  if clause.isTrivial then expression
  else
    some <|
      match expression, type with
      | none, .excluded => .not clause
      | none, _ => clause
      | some e, .excluded => .and e (.not clause)
      | some e, .alsoIncluded => .or e clause
      | some e, .included => .and e clause

variable [Scalar R]

namespace ClauseContext

/-- Joins the entries from number `n` on to the expression before them. -/
def joinEntries (s : ClauseContext R) (given : Option (Boundary R)) :
    Nat → Option (Predicate R) → List (Entry R) → Except (BuildError R) (Option (Predicate R))
  | _, expression, [] => .ok expression
  | n, _, .main _ :: _ => .error (.secondMain n)
  | n, expression, .supplement b :: rest => do
    let clause ← s.clauseWith given b.clause
    s.joinEntries given (n + 1) (b.type.join expression clause) rest

/-- The predicate of the entries of a contract. -/
def entries (s : ClauseContext R) (given : Option (Boundary R)) :
    List (Entry R) → Except (BuildError R) (Predicate R)
  | [] => .error .noEntries
  | .supplement _ :: _ => .error .startsWithoutMain
  | .main m :: rest => do
    let main ← s.mainWith given m
    -- a main clause is never trivial, so that there is an expression from here on
    let expression ← s.joinEntries given 1 (BlockType.included.join none main) rest
    return expression.getD .always

/-- The predicate of a contract. The boundary of the context goes before the one of the
contract. -/
def predicate (s : ClauseContext R) (contract : Contract R) :
    Except (BuildError R) (Predicate R) :=
  if contract.isCompatible then
    s.entries (s.context.boundary <|> contract.boundary) contract.entries
  else .error (.incompatibleVersion contract.version)

end ClauseContext

namespace BuildError

/-- The wording of an error. -/
def message : BuildError R → String
  | noTier =>
    "capability error: no spatial tier: the dataset has neither native geometry nor bbox columns"
  | polarPoint lat =>
    "capability error: cannot derive a longitude span at latitude " ++ Scalar.text lat
  | boundaryNeedsNative origin =>
    "capability error: " ++ origin.name ++
      " needs native spatial support; bbox columns cannot test boundaries"
  | noGeometryField => "capability error: native tier requires a geometry field"
  | missingPoint origin => "a selected point is required for " ++ origin.name
  | missingBoundary origin => "a boundary geometry is required for " ++ origin.name
  | badBoundary cause => cause.message
  | missingBoxColumns => "bbox tier selected but bbox fields are not configured"
  | missingColumn name => "no column configured for attribute '" ++ name.name ++ "'"
  | incompatibleVersion version =>
    malformed ("unsupported contract version " ++ version)
  | startsWithoutMain => malformed "block 0 must be the main clause"
  | secondMain index => malformed ("block " ++ toString index ++ " is a second main clause")
  | noEntries => malformed "compiled query has no main clause"
where
  /-- How the wording of a malformed contract starts. -/
  malformed (text : String) : String := "malformed compiled query: " ++ text

end BuildError

end TransitQuery
