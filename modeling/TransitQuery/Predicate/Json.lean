import TransitQuery.Json.Record
import TransitQuery.Predicate.Basic

/-!
# Predicates in JSON

A predicate is an object with one member, named for its kind; the predicate that always holds is
also written as its name alone. The parts of a leaf are given by name only.

Both directions are recursions over the tree, with the leaves taken out: `leaf?` reads the content
of a leaf by its name, `node?` assembles a connective from members already read. A binary
connective is an array of exactly two. The parts of a leaf must each be named once; unlike a record
of the interface, a leaf cannot be given as an array of its parts.

The order in which members are written is fixed, so that a predicate has one text. A radius that is
no finite number is written as `null` and is not read back.
-/

namespace TransitQuery

variable {R : Type}

namespace SpatialRelation

/-- The name of a relation. -/
def name : SpatialRelation → String
  | intersects => "intersects"
  | within => "within"
  | touches => "touches"

/-- The relation with a name. -/
def ofName? (name : String) : Option SpatialRelation :=
  [intersects, within, touches].find? (·.name = name)

/-- Reads a relation. -/
def ofJson? (v : Json R) : Option SpatialRelation :=
  v.choice?.bind ofName?

end SpatialRelation

namespace Predicate

variable [Scalar R]

/-! ### Reading -/

/-- A leaf that compares the geometry in a column with a point. -/
def pointLeaf? (make : String → LatLng R → R → Predicate R) (radiusName : String)
    (members : List (String × Json R)) : Option (Predicate R) := do
  let [field, point, radius] ← Json.uniqueMembers? members ["field", "point", radiusName] | none
  return make (← Json.required Json.string? field) (← Json.required LatLng.ofJson? point)
    (← Json.required Json.number? radius)

/-- A leaf that compares a column with a text. -/
def equalsLeaf? (members : List (String × Json R)) : Option (Predicate R) := do
  let [field, value] ← Json.uniqueMembers? members ["field", "value"] | none
  return equals (← Json.required Json.string? field) (← Json.required Json.string? value)

/-- A leaf that compares the geometry in a column with a boundary. -/
def boundaryLeaf? (members : List (String × Json R)) : Option (Predicate R) := do
  let [relation, field, wkt, buffer] ←
    Json.uniqueMembers? members ["relation", "field", "wkt", "buffer"] | none
  return boundary (← Json.required SpatialRelation.ofJson? relation)
    (← Json.required Json.string? field) (← Json.required Json.string? wkt)
    (← Json.required Json.number? buffer)

/-- A leaf that compares the box in four columns with another. -/
def boxLeaf? (members : List (String × Json R)) : Option (Predicate R) := do
  let [columns, box] ← Json.uniqueMembers? members ["fields", "bbox"] | none
  return boxOverlap (← Json.required BoxColumns.ofJson? columns)
    (← Json.required Box.ofJson? box)

/-- The leaf of a kind with the given content. -/
def leaf? (name : String) : Json R → Option (Predicate R)
  | .null => if name = "true" then some always else none
  | .obj members =>
    if name = "equals" then equalsLeaf? members
    else if name = "distance_within" then pointLeaf? distanceWithin "radius" members
    else if name = "intersects_buffer" then pointLeaf? intersectsBuffer "radius" members
    else if name = "within_meters" then pointLeaf? withinMeters "meters" members
    else if name = "boundary" then boundaryLeaf? members
    else if name = "bbox_overlap" then boxLeaf? members
    else none
  | _ => none

/-- The node of a kind with the given members. -/
def node? (name : String) : List (Predicate R) → Option (Predicate R)
  | [l, r] =>
    if name = "and" then some (and l r)
    else if name = "or" then some (or l r)
    else if name = "any_of" then some (anyOf [l, r])
    else none
  | members => if name = "any_of" then some (anyOf members) else none

mutual

/-- Reads a predicate. -/
def ofJson? : Json R → Option (Predicate R)
  | .str name => leaf? (R := R) name .null
  | .obj members => ofMembers? members
  | _ => none

/-- Reads a predicate from the members of an object. -/
def ofMembers? : List (String × Json R) → Option (Predicate R)
  | [(name, v)] =>
    if name = "not" then (ofJson? v).map not
    else
      match v with
      | .arr items => (ofItems? items).bind (node? name)
      | v => leaf? name v
  | _ => none

/-- Reads each item. -/
def ofItems? : List (Json R) → Option (List (Predicate R))
  | [] => some []
  | v :: rest => do
    let p ← ofJson? v
    let ps ← ofItems? rest
    return p :: ps

end

/-! ### Writing -/

/-- An object with one member. -/
def tagged (name : String) (content : Json R) : Json R :=
  .obj [(name, content)]

/-- The content of a leaf that compares the geometry in a column with a point. -/
def pointContent (field : String) (point : LatLng R) (radiusName : String) (radius : R) :
    Json R :=
  .obj [("field", .str field), ("point", point.toJson), (radiusName, Json.ofScalar radius)]

mutual

/-- Writes a predicate. -/
def toJson : Predicate R → Json R
  | always => .str "true"
  | and l r => tagged "and" (.arr [toJson l, toJson r])
  | or l r => tagged "or" (.arr [toJson l, toJson r])
  | not p => tagged "not" (toJson p)
  | anyOf members => tagged "any_of" (.arr (membersToJson members))
  | equals field value => tagged "equals" (.obj [("field", .str field), ("value", .str value)])
  | distanceWithin field point radius =>
    tagged "distance_within" (pointContent field point "radius" radius)
  | intersectsBuffer field point radius =>
    tagged "intersects_buffer" (pointContent field point "radius" radius)
  | withinMeters field point meters =>
    tagged "within_meters" (pointContent field point "meters" meters)
  | boundary relation field wkt buffer =>
    tagged "boundary" (.obj [("relation", .str relation.name), ("field", .str field),
      ("wkt", .str wkt), ("buffer", Json.ofScalar buffer)])
  | boxOverlap columns box =>
    tagged "bbox_overlap" (.obj [("fields", columns.toJson), ("bbox", box.toJson)])

/-- Writes each of several predicates. -/
def membersToJson : List (Predicate R) → List (Json R)
  | [] => []
  | p :: rest => toJson p :: membersToJson rest

end

end Predicate

end TransitQuery
