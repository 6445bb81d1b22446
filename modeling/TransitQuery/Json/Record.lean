import TransitQuery.Json.Basic

/-!
# Records in JSON

A record is written as an object or as an array of its fields in declaration order. `Json.fields?`
brings both to one form, the value of each field in that order where there is one. An object must
not name a field twice, members that name no field are passed over, and an array must not be
longer than the record. What a missing field means is up to the reader of the record, which uses
`required`, `orElse` and `optional`.

The field of a record has one of three rules. A required field must be given and readable. A field
with a default may be missing, but `null` is not a way to leave it out. An optional field may be
missing or `null`, and both read as no value. In every case a value of the wrong kind fails the
whole record: nothing is repaired.

`uniqueMembers?` looks for each field by name, so that the order of members does not matter and
members with other names are ignored; `positionalFields?` pads a short array with missing fields.
Choices without content, such as the name of a target, may be given as a string or as an object
whose single member is `null` (`choice?`).
-/

namespace TransitQuery

namespace Json

variable {R : Type}

/-- The value of the member with a name, where the outer option fails when there are several. -/
def uniqueMember? (name : String) (members : List (String × Json R)) :
    Option (Option (Json R)) :=
  match members.filter (fun m => m.1 = name) with
  | [] => some none
  | [(_, v)] => some (some v)
  | _ => none

/-- The values of the members with the given names. -/
def uniqueMembers? (members : List (String × Json R)) :
    List String → Option (List (Option (Json R)))
  | [] => some []
  | name :: names => do
    let v ← uniqueMember? name members
    let rest ← uniqueMembers? members names
    return v :: rest

/-- Pairs the names of fields with the items of an array; there must not be more items. -/
def positionalFields? : List String → List (Json R) → Option (List (Option (Json R)))
  | [], [] => some []
  | [], _ :: _ => none
  | _ :: names, [] => (positionalFields? names []).map (none :: ·)
  | _ :: names, v :: items => (positionalFields? names items).map (some v :: ·)

/-- The value given for each field of a record. -/
def fields? (names : List String) : Json R → Option (List (Option (Json R)))
  | obj members => uniqueMembers? members names
  | arr items => positionalFields? names items
  | _ => none

variable {α : Type}

/-- A field that must be given. -/
def required (read : Json R → Option α) : Option (Json R) → Option α
  | none => none
  | some v => read v

/-- A field with a default. -/
def orElse (fallback : α) (read : Json R → Option α) : Option (Json R) → Option α
  | none => some fallback
  | some v => read v

/-- A field that may be missing or `null`. -/
def optional (read : Json R → Option α) : Option (Json R) → Option (Option α)
  | none => some none
  | some null => some none
  | some v => (read v).map some

/-- The value itself, unless it is `null`. -/
def nonNull? : Json R → Option (Json R)
  | null => none
  | v => some v

/-- The name of a choice without content: a string, or an object whose only member is `null`. -/
def choice? : Json R → Option String
  | str name => some name
  | obj [(name, null)] => some name
  | _ => none

/-- An array whose items are all read. -/
def listOf? (read : Json R → Option α) : Json R → Option (List α)
  | arr items => items.mapM read
  | _ => none

end Json

end TransitQuery
