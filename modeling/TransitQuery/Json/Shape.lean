/-!
# Shapes of records

Whoever reads a record from text knows which members count. A `Json.Shape` tells the reader of the
text, so that it can pass over the others: of a member that does not count only the grammar is
checked, and neither the size of its numbers, nor its nesting, nor the pairing of its surrogates
can fail the text.

A shape follows the text inwards: `member` gives the shape of the value behind a name, `head` and
`tail` those of the items of an array, and a member that no field is named for is skipped. A record
can be written as an array of its fields, which is why a record has a head and a tail too. What
lies inside a skipped value is skipped.

Shapes do not check anything. An object where a list is expected is kept as it stands, and it is
the reader of the list that refuses it. What they change is only which texts are read at all:
inside a skipped value no depth is counted (`depthInside?`) and no number is too large.
-/

namespace TransitQuery

namespace Json

/-- What is expected at a place of a text. -/
inductive Shape where
  /-- A value that is kept as it stands. -/
  | any
  /-- A value that does not count. -/
  | skipped
  /-- An array of values of one shape. -/
  | list (item : Shape)
  /-- An object with these members that count, or the array of their values. -/
  | record (fields : List (String × Shape))

namespace Shape

/-- A record whose members are all kept as they stand. -/
def ofNames (names : List String) : Shape :=
  record (names.map fun name => (name, any))

/-- The shape of the member of an object with a name. -/
def member (name : String) : Shape → Shape
  | record fields => (fields.lookup name).getD skipped
  | skipped => skipped
  | _ => any

/-- The shape of the first item of an array. -/
def head : Shape → Shape
  | list item => item
  | record ((_, field) :: _) => field
  | skipped => skipped
  | _ => any

/-- What is expected of an array behind its first item. -/
def tail : Shape → Shape
  | record (_ :: fields) => record fields
  | shape => shape

/-- The levels of nesting left inside a container: one less, unless the value does not count. -/
def depthInside? : Shape → Nat → Option Nat
  | skipped, depth => some depth
  | _, 0 => none
  | _, depth + 1 => some depth

end Shape

end Json

end TransitQuery
