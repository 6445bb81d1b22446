import TransitQuery.Query.Context

/-!
# Caches of contracts

A cache holds a bounded number of values, each under a key, in the order in which their keys came
in. A new key pushes out the oldest ones as far as needed; a key that is there already only gets a
new value and keeps its place. Looking a key up counts as a hit or a miss and moves nothing.

The values are generic. What matters here is which of them are kept (`Cache.insert`,
`Cache.makeRoom`), what is counted (`Cache.get` counts a hit or a miss, `Cache.evict` a value that
is dropped) and what a key tells: `CacheKey.ofContext` takes the digest of a query and which parts
its context had, but not their content. The room for values is set once, and is one at least. The
queue of keys and the values are two lists, as they are kept apart in the program; that they always
have the same keys is proved, and not built in.
-/

namespace TransitQuery

/-- What decides whether a contract can be used again: the digest of its query, and what the
context of its compilation had. -/
structure CacheKey where
  hash : String
  spatialReady : Bool
  hasPoint : Bool
  hasBoundary : Bool
  deriving DecidableEq

/-- The key of a digest in a context. -/
def CacheKey.ofContext {R : Type} (hash : String) (c : Context R) : CacheKey where
  hash
  spatialReady := c.spatialReady
  hasPoint := c.hasPoint
  hasBoundary := c.hasBoundary

/-- A bounded number of values, the order in which their keys came in, and what has been counted so
far. -/
structure Cache (V : Type) where
  capacity : Nat
  /-- The values by their keys. Nothing depends on how they are ordered. -/
  entries : List (CacheKey × V)
  /-- The keys in the order in which they came in, oldest first. -/
  order : List CacheKey
  hits : Nat
  misses : Nat
  evictions : Nat

namespace Cache

variable {V : Type}

/-- The empty cache for so many values, but for one at least. -/
def empty (capacity : Nat) : Cache V where
  capacity := max capacity 1
  entries := []
  order := []
  hits := 0
  misses := 0
  evictions := 0

/-- The number of values. -/
def size (c : Cache V) : Nat :=
  c.entries.length

/-- The value under a key. -/
def find? (c : Cache V) (key : CacheKey) : Option V :=
  (c.entries.find? (·.1 = key)).map Prod.snd

/-- Whether there is a value under a key. -/
def contains (c : Cache V) (key : CacheKey) : Bool :=
  (c.find? key).isSome

/-- Looks a key up and counts it. -/
def get (c : Cache V) (key : CacheKey) : Option V × Cache V :=
  match c.find? key with
  | some v => (some v, { c with hits := c.hits + 1 })
  | none => (none, { c with misses := c.misses + 1 })

/-- Drops the value under a key, which is counted. -/
def evict (c : Cache V) (key : CacheKey) : Cache V :=
  { c with entries := c.entries.filter (·.1 ≠ key), evictions := c.evictions + 1 }

/-- Drops the values under keys, one after the other, until there is room for one more. The keys
that are left are the new order. -/
def evictAmong (c : Cache V) : List CacheKey → Cache V
  | [] => { c with order := [] }
  | oldest :: rest =>
    if c.capacity ≤ c.size then (c.evict oldest).evictAmong rest
    else { c with order := oldest :: rest }

/-- Drops the oldest values until there is room for one more. -/
def makeRoom (c : Cache V) : Cache V :=
  c.evictAmong c.order

/-- Gives a key that is there another value. -/
def replace (c : Cache V) (key : CacheKey) (v : V) : Cache V :=
  { c with entries := c.entries.map fun e => if e.1 = key then (key, v) else e }

/-- Puts a new key behind all others. -/
def push (c : Cache V) (key : CacheKey) (v : V) : Cache V :=
  { c with entries := c.entries ++ [(key, v)], order := c.order ++ [key] }

/-- Puts a value under a key. -/
def insert (c : Cache V) (key : CacheKey) (v : V) : Cache V :=
  if c.contains key then c.replace key v else c.makeRoom.push key v

/-- Drops all values; what has been counted stays. -/
def clear (c : Cache V) : Cache V :=
  { c with entries := [], order := [] }

/-- The share of hits among the counted look-ups, zero before the first. -/
def hitRate {R : Type} [Scalar R] (c : Cache V) : R :=
  let hits : R := Scalar.ofInt c.hits
  let total := hits + Scalar.ofInt c.misses
  if Scalar.zero < total then hits / total else Scalar.zero

end Cache

end TransitQuery
