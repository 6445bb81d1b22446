import TransitQuery.Json.Reader
import TransitQuery.Json.Record
import TransitQuery.Query.Basic

/-!
# Queries in JSON

Reading and writing queries and their blocks. Every field of a query has a default; every field
of a block may be missing and is then not written.

A query is read from an object or from the array of its five fields. The empty object is the
default query. A name that is given but not known fails the reading for a target and for what to
find, and means an intersection for a condition. The type and the operator of a block are any
texts, since judging them is the task of validation.

The text of a query is read with the shape of its record, so that members which no field is named
for are passed over whatever they hold. Writing always gives all five fields of the query, and of
each block only what it has.
-/

namespace TransitQuery

variable {R : Type}

/-- Reads what to find. -/
def Find.ofJson? (v : Json R) : Option Find :=
  v.choice?.bind ofName?

/-- Reads a condition. -/
def Condition.ofJson? (v : Json R) : Option Condition :=
  v.choice?.map ofName

/-- Reads a target. -/
def Target.ofJson? (v : Json R) : Option Target :=
  v.choice?.bind ofName?

/-- Reads a block type. -/
def BlockType.ofJson? (v : Json R) : Option BlockType :=
  v.choice?.bind ofName?

variable [Scalar R]

namespace Block

/-- Reads a block. -/
def ofJson? (v : Json R) : Option (Block R) := do
  let [kind, operator, value, distance] ← v.fields? ["type", "operator", "value", "distance"]
    | none
  return {
    kind := ← Json.optional Json.string? kind
    operator := ← Json.optional Json.string? operator
    value := ← Json.optional Json.string? value
    distance := ← Json.optional Json.number? distance }

/-- Writes a block. -/
def toJson (b : Block R) : Json R :=
  .obj (Json.memberIfSome "type" .str b.kind ++
    Json.memberIfSome "operator" .str b.operator ++
    Json.memberIfSome "value" .str b.value ++
    Json.memberIfSome "distance" Json.ofScalar b.distance)

end Block

namespace SpatialQuery

/-- Reads a query. -/
def ofJson? (v : Json R) : Option (SpatialQuery R) := do
  let [find, condition, distance, target, blocks] ←
    v.fields? ["find", "condition", "distance", "target", "blocks"] | none
  return {
    find := ← Json.orElse .routes Find.ofJson? find
    condition := ← Json.orElse .intersect Condition.ofJson? condition
    distance := ← Json.orElse defaultDistance Json.number? distance
    target := ← Json.orElse .selectedPoint Target.ofJson? target
    blocks := ← Json.orElse [] (Json.listOf? Block.ofJson?) blocks }

/-- The members of a query. -/
def shape : Json.Shape :=
  .record [("find", .any), ("condition", .any), ("distance", .any), ("target", .any),
    ("blocks", .list (.ofNames ["type", "operator", "value", "distance"]))]

/-- Reads the text of a query. -/
def ofText? (text : String) : Option (SpatialQuery R) :=
  (Json.parse? shape text).bind ofJson?

/-- Writes a query. -/
def toJson (q : SpatialQuery R) : Json R :=
  .obj [("find", .str q.find.name), ("condition", .str q.condition.name),
    ("distance", Json.ofScalar q.distance), ("target", .str q.target.name),
    ("blocks", .arr (q.blocks.map Block.toJson))]

end SpatialQuery

end TransitQuery
