import TransitQuery.Contract.Json
import TransitQuery.Digest.Blake3
import TransitQuery.Query.Resolve

/-!
# Digests of queries

Two queries that ask for the same have the same digest. `SpatialQuery.canonical` is the value that
is hashed: the fields of the query, and each block as the clause it resolves to, so that content
its operator ignores leaves no trace. A block that resolves to nothing stands as it was written.

The value is written on one line without blanks, and its bytes in UTF-8 are hashed with BLAKE3. Of
the hash the first eight bytes are kept, as sixteen hexadecimal digits. The digest stands for the
query in the cache and names it in reports. That queries which ask for different things have
different digests is not certain, and is an assumption wherever it is needed.

Boundary, point and context take no part in it. What the context had is part of the key under which
a contract is kept, and its content is not. Two distances are the same to the digest if they have
the same text, which is not quite the same as being equal: zero and minus zero have two.
-/

namespace TransitQuery

variable {R : Type} [Scalar R]

/-- A block as far as it decides what its query asks for. -/
def Block.canonical (inherited : R) (b : Block R) : Json R :=
  match b.resolve inherited with
  | .ok s => s.toJson
  | .error _ => b.toJson

namespace SpatialQuery

/-- What a query asks for, in a fixed order of fields. -/
def canonical (q : SpatialQuery R) : Json R :=
  .obj [("find", .str q.find.name), ("condition", .str q.condition.name),
    ("distance", Json.ofScalar q.distance), ("target", .str q.target.name),
    ("blocks", .arr (q.blocks.map (Block.canonical q.distance)))]

/-- The bytes that are hashed. -/
def canonicalBytes (q : SpatialQuery R) : List UInt8 :=
  q.canonical.compact.toUTF8.toList

/-- How many bytes of the hash make up the digest. -/
def digestBytes : Nat := 8

/-- Two hexadecimal digits. -/
def hexByte (b : UInt8) : List Char :=
  [Json.hexDigit (b.toNat / 16), Json.hexDigit (b.toNat % 16)]

/-- The digest of a query: the first bytes of the hash of its canonical form, in hexadecimal. -/
def hash (q : SpatialQuery R) : String :=
  String.ofList (((Blake3.hash q.canonicalBytes).take digestBytes).flatMap hexByte)

end SpatialQuery

end TransitQuery
