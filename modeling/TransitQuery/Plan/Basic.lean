import TransitQuery.Plan.Refinement
import TransitQuery.Plan.Request
import TransitQuery.Plan.Settings
import TransitQuery.Predicate.OfContract

/-!
# Plans

A plan says how a contract runs in a context: on which tier, with which request to the engine, and
whether the candidates are refined. They are when boxes answer the query and each row carries its
geometry as GeoJSON; then the request also asks for every column that the refinement reads.

`Plan.ofContract` is the whole of planning. It needs a column with the identifier, a tier, a
predicate and, where candidates are refined, a second predicate, and it fails with the first of
these that is missing. The refinement is built from the same contract with point clauses in their
exact form (`ClauseContext.exactOn`), so that the engine and the refinement disagree only about
what boxes say of points.

Candidates are refined on four conditions together: boxes answer the query, the context says that
rows carry boxes, a point is selected, and there is a column with GeoJSON. Where one of them fails
the answer of the engine is final (`Context.refinementField`). A request without refinement asks
for the identifier alone.
-/

namespace TransitQuery

/-- Why a contract cannot be planned. -/
inductive PlanError (R : Type) where
  | noIdField
  | predicate (cause : BuildError R)

/-- How a contract runs. -/
structure Plan (R : Type) where
  tier : Tier
  request : Request R
  refinement : Option (Refinement R)

variable {R : Type}

/-- The column on which candidates of a tier are refined, if they are. -/
def Context.refinementField (c : Context R) (tier : Tier) : Option String :=
  if tier = .native || !c.bboxReady || !c.hasPoint then none else c.geojsonField

variable [Scalar R]

/-- The wording of an error. -/
def PlanError.message : PlanError R → String
  | noIdField => "context error: execution context has no serviceIdField to report matches by"
  | predicate cause => "predicate error: " ++ cause.message

namespace Plan

/-- The refinement of a contract, if its candidates are refined. -/
def refinementOf (s : ClauseContext R) (contract : Contract R) (idField : String) :
    Except (BuildError R) (Option (Refinement R)) :=
  match s.context.refinementField s.tier with
  | none => .ok none
  | some field => do
    return some { predicate := ← (s.exactOn field).predicate contract, idField }

/-- The request for a predicate, with what a refinement needs. -/
def requestFor (table idField : String) (predicate : Predicate R) (field : Option String)
    (refinement : Option (Refinement R)) : Request R where
  table
  idField
  geometryField := refinement.bind fun _ => field
  extraColumns := refinement.elim [] Refinement.columns
  predicate

/-- The plan of a contract whose rows are reported by the given column. -/
def ofClauses (s : ClauseContext R) (contract : Contract R) (settings : Settings)
    (idField : String) : Except (BuildError R) (Plan R) := do
  let predicate ← s.predicate contract
  let refinement ← refinementOf s contract idField
  let request := requestFor (settings.table contract.find) idField predicate
    (s.context.refinementField s.tier) refinement
  return { tier := s.tier, request, refinement }

/-- The plan of a contract in a context. -/
def ofContract (contract : Contract R) (c : Context R) (settings : Settings) :
    Except (PlanError R) (Plan R) :=
  match c.serviceIdField with
  | none => .error .noIdField
  | some idField =>
    ((ClauseContext.ofContext c).bind (ofClauses · contract settings idField)).mapError .predicate

end Plan

end TransitQuery
