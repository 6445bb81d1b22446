import TransitQuery.Contract.Basic
import TransitQuery.Json.Printer
import TransitQuery.Json.Reader
import TransitQuery.Query.Json

/-!
# Contracts in JSON

Reading and writing contracts and their parts. An entry is tried as a main clause first. The
content of a clause stands beside the name of its operator, and beside the block type in an
entry; there the operator may also be given by its number.

Writing follows the order of the fields and leaves nothing out but fields without a value. Reading
is more lenient: fields may come in any order or by position, further members are passed over, and
a name that is not known is an error for an operator or a type, but not for a relation.
`Contract.shape` tells the reader of texts which members are kept; the others are skipped without
being built.
-/

namespace TransitQuery

variable {R : Type} [Scalar R]

/-- Reads a relation. -/
def Relation.ofJson? (v : Json R) : Option Relation :=
  v.choice?.map ofName

namespace MainClause

/-- Reads a main clause. -/
def ofJson? (v : Json R) : Option (MainClause R) := do
  let [target, distance, relation] ← v.fields? ["target", "distance", "relation"] | none
  return {
    target := ← Json.required Target.ofJson? target
    distance := ← Json.required Json.number? distance
    relation := ← Json.required Relation.ofJson? relation }

/-- Writes a main clause. -/
def toJson (m : MainClause R) : Json R :=
  .obj [("target", .str m.target.name), ("distance", Json.ofScalar m.distance),
    ("relation", .str m.relation.name)]

end MainClause

namespace Clause

/-- The names of the fields that hold the content of a clause. -/
def contentFields : BlockOperator → List String
  | .nearPoint => ["distance"]
  | .operator | .mode => ["value"]
  | .touchesBoundary | .insideBoundary => []

/-- The clause with an operator and the values of its content fields. -/
def ofContent? : BlockOperator → List (Option (Json R)) → Option (Clause R)
  | .nearPoint, [d] => (Json.required Json.number? d).map nearPoint
  | .operator, [v] => (Json.required Json.string? v).map operator
  | .mode, [v] => (Json.required Json.string? v).map mode
  | .touchesBoundary, _ => some touchesBoundary
  | .insideBoundary, _ => some insideBoundary
  | _, _ => none

/-- Reads the content of a clause from the members beside its operator. -/
def ofMembers? (op : BlockOperator) (members : List (String × Json R)) : Option (Clause R) :=
  (Json.uniqueMembers? members (contentFields op)).bind (ofContent? op)

/-- Reads a clause: an object, or an array that starts with the operator. -/
def ofJson? : Json R → Option (Clause R)
  | .obj members => do
    let op ← Json.required Json.string? (← Json.uniqueMember? "operator" members)
    ofMembers? (← BlockOperator.ofName? op) members
  | .arr (.str name :: content) => do
    let op ← BlockOperator.ofName? name
    ofContent? op (← Json.positionalFields? (contentFields op) content)
  | _ => none

/-- The operator and the content of a clause as members. -/
def toMembers (c : Clause R) : List (String × Json R) :=
  ("operator", .str c.kind.name) ::
    match c with
    | nearPoint d => [("distance", Json.ofScalar d)]
    | operator v | mode v => [("value", .str v)]
    | touchesBoundary | insideBoundary => []

end Clause

namespace Supplement

/-- The operator that a value in an entry gives, by name or by number. -/
def operatorOf? : Json R → Option BlockOperator
  | .str name => BlockOperator.ofName? name
  | .int (.ofNat n) => BlockOperator.all[n]?
  | _ => none

/-- Reads a resolved block. -/
def ofJson? (v : Json R) : Option (Supplement R) := do
  let members ← v.members?
  let type ← Json.required BlockType.ofJson? (← Json.uniqueMember? "type" members)
  let op ← Json.required operatorOf? (← Json.uniqueMember? "operator" members)
  return { type, clause := ← Clause.ofMembers? op members }

/-- Writes a resolved block. -/
def toJson (s : Supplement R) : Json R :=
  .obj (("type", .str s.type.name) :: s.clause.toMembers)

end Supplement

namespace Entry

/-- Reads an entry. -/
def ofJson? (v : Json R) : Option (Entry R) :=
  match MainClause.ofJson? v with
  | some m => some (main m)
  | none => (Supplement.ofJson? v).map supplement

/-- Writes an entry. -/
def toJson : Entry R → Json R
  | main m => m.toJson
  | supplement s => s.toJson

end Entry

namespace ContextSnapshot

/-- Reads a snapshot. -/
def ofJson? (v : Json R) : Option ContextSnapshot := do
  let [hasPoint, hasBoundary, spatialReady] ←
    v.fields? ["has_point", "has_boundary", "spatial_ready"] | none
  return {
    hasPoint := ← Json.required Json.bool? hasPoint
    hasBoundary := ← Json.required Json.bool? hasBoundary
    spatialReady := ← Json.required Json.bool? spatialReady }

/-- Writes a snapshot. -/
def toJson (s : ContextSnapshot) : Json R :=
  .obj [("has_point", .bool s.hasPoint), ("has_boundary", .bool s.hasBoundary),
    ("spatial_ready", .bool s.spatialReady)]

end ContextSnapshot

namespace Contract

/-- Reads the time and the snapshot of a compilation. -/
def metadataOfJson? (v : Json R) : Option (Instant × ContextSnapshot) := do
  let [compiledAt, context] ← v.fields? ["compiled_at", "context"] | none
  let time ← Json.required Json.string? compiledAt
  return (← Instant.ofText? time, ← Json.required ContextSnapshot.ofJson? context)

/-- Reads a contract. -/
def ofJson? (v : Json R) : Option (Contract R) := do
  let [version, find, blocks, boundary, metadata, hash] ←
    v.fields? ["version", "find", "blocks", "boundary", "metadata", "hash"] | none
  let (compiledAt, context) ← Json.required metadataOfJson? metadata
  return {
    version := ← Json.required Json.string? version
    find := ← Json.required Find.ofJson? find
    entries := ← Json.required (Json.listOf? Entry.ofJson?) blocks
    boundary := ← Json.optional Boundary.ofJson? boundary
    compiledAt
    context
    hash := ← Json.required Json.string? hash }

/-- Writes a contract. -/
def toJson (c : Contract R) : Json R :=
  .obj [("version", .str c.version), ("find", .str c.find.name),
    ("blocks", .arr (c.entries.map Entry.toJson)),
    ("boundary", Json.ofOption Boundary.toJson c.boundary),
    ("metadata", .obj [("compiled_at", .str c.compiledAt.toText),
      ("context", c.context.toJson)]),
    ("hash", .str c.hash)]

/-- The members of a contract. Its entries are kept whole, because their form decides their kind. -/
def shape : Json.Shape :=
  .record [("version", .any), ("find", .any), ("blocks", .any), ("boundary", .any),
    ("metadata", .record [("compiled_at", .any),
      ("context", .ofNames ["has_point", "has_boundary", "spatial_ready"])]),
    ("hash", .any)]

/-- Reads the text of a contract. -/
def ofText? (text : String) : Option (Contract R) :=
  (Json.parse? shape text).bind ofJson?

/-- The text of a contract on one line. -/
def toText (c : Contract R) : String :=
  c.toJson.compact

end Contract

end TransitQuery
