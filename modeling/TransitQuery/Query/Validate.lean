import TransitQuery.Query.Context
import TransitQuery.Query.Basic
import TransitQuery.Text.Blank
import TransitQuery.Text.Joined

/-!
# Validation

A query is valid relative to a context. `SpatialQuery.violations` lists everything that is wrong
with it, in the order in which the rules are checked: the radius, the target, then each block.
A rule is passed over only when the value that it looks at is missing.

Rules do not hide each other. A query with a bad radius and without a point is reported for both, a
block with an unknown type is still checked for its operator, and blocks are counted from one in
the messages. Only what follows from a missing value is passed over: without a point nothing is
said of its coordinates, and a latitude is looked at only if both coordinates are finite.

The rules read the flags of the context and not the columns behind them. What the target needs is
checked in the same place for both targets (`Target.violations`): a finite point away from the
poles and some tier, or a boundary and the exact tests.
-/

namespace TransitQuery

/-- One thing that is wrong with a query. Blocks are counted from one. -/
inductive Violation (R : Type) where
  | badDistance
  | missingPoint
  | pointNotFinite
  | polarPoint (lat : R)
  | noSpatialTier
  | missingBoundary
  | boundaryNeedsNative
  | unknownType (block : Nat) (name : String)
  | missingOperator (block : Nat)
  | unknownOperator (block : Nat) (name : String)
  | emptyValue (block : Nat) (op : BlockOperator)
  | blockNeedsPoint (block : Nat)
  | badBlockDistance (block : Nat)

/-- Below this cosine of the latitude, meters say nothing about longitudes. -/
def leastCosine {R : Type} [Scalar R] : R :=
  Scalar.ofNumeral (.finite false 1 (-6))

variable {R : Type} [Scalar R]

/-- The factor by which degrees of longitude are shorter than degrees of latitude. -/
def LatLng.shrink (p : LatLng R) : R :=
  Scalar.magnitude (Scalar.cos (Scalar.radians p.lat))

/-- Whether a position is too close to a pole to measure longitudes. -/
def LatLng.isPolar (p : LatLng R) : Bool :=
  p.shrink < leastCosine

/-- Whether a scalar can be a radius: finite and not negative. -/
def isRadius (x : R) : Bool :=
  Scalar.isFinite x && !decide (x < Scalar.zero)

namespace Violation

/-- How a violation in a block starts. -/
def inBlock (block : Nat) (text : String) : String :=
  "block " ++ toString block ++ ": " ++ text

/-- The wording of a violation. -/
def message : Violation R → String
  | badDistance => "distance must be a finite number >= 0"
  | missingPoint => "target 'selected_point' requires a selected point"
  | pointNotFinite => "selected point must have finite lat/lng"
  | polarPoint lat =>
    "selected point latitude " ++ Scalar.text lat ++
      " is too close to a pole: longitude degrees per meter are undefined"
  | noSpatialTier => "no spatial tier available: either spatialReady or bboxReady must be set"
  | missingBoundary => "target 'boundary' requires a boundary geometry"
  | boundaryNeedsNative =>
    "target 'boundary' requires native spatial support (spatialReady); " ++
      "bbox approximation cannot test containment"
  | unknownType block name =>
    inBlock block ("unknown type '" ++ name ++
      "' (expected include, exclude or also-include)")
  | missingOperator block => inBlock block "operator is required"
  | unknownOperator block name => inBlock block ("unknown operator '" ++ name ++ "'")
  | emptyValue block op =>
    inBlock block ("operator '" ++ op.name ++ "' requires a non-empty value")
  | blockNeedsPoint block => inBlock block "near_point requires a selected point"
  | badBlockDistance block => inBlock block "near_point distance must be a finite number >= 0"

end Violation

/-- A violation, if its condition holds. -/
def violationIf (condition : Bool) (v : Violation R) : List (Violation R) :=
  if condition then [v] else []

/-- What is wrong with the type of a block. -/
def Block.typeViolations (n : Nat) (b : Block R) : List (Violation R) :=
  match b.parsedType with
  | .error (.unknownType name) => [.unknownType n name]
  | _ => []

/-- What is wrong with the operator of a block and with what it needs. -/
def Block.operatorViolations (c : Context R) (n : Nat) (b : Block R) : List (Violation R) :=
  match b.parsedOperator with
  | none => [.missingOperator n]
  -- what has been parsed is there, so the default is not used
  | some (.error _) => [.unknownOperator n (b.operator.getD "")]
  | some (.ok .nearPoint) =>
    violationIf (!c.hasPoint) (.blockNeedsPoint n) ++
      match b.distance with
      | none => []
      | some d => violationIf (!isRadius d) (.badBlockDistance n)
  | some (.ok op) =>
    violationIf (op.isAttribute && Text.isBlankString (b.value.getD "")) (.emptyValue n op)

/-- What is wrong with a block, which is the `n`-th of its query. -/
def Block.violations (c : Context R) (n : Nat) (b : Block R) : List (Violation R) :=
  b.typeViolations n ++ b.operatorViolations c n

/-- What is wrong with blocks that are counted from `n`. -/
def blockViolations (c : Context R) : Nat → List (Block R) → List (Violation R)
  | _, [] => []
  | n, b :: rest => b.violations c n ++ blockViolations c (n + 1) rest

/-- What is wrong with the selected point as a target. -/
def pointViolations (c : Context R) : List (Violation R) :=
  match c.point with
  | none => [.missingPoint]
  | some p =>
    if !p.isFinite then [.pointNotFinite]
    else violationIf p.isPolar (.polarPoint p.lat)

/-- What the target of a query lacks. -/
def Target.violations (c : Context R) : Target → List (Violation R)
  | selectedPoint =>
    pointViolations c ++ violationIf (!c.spatialReady && !c.bboxReady) .noSpatialTier
  | boundary =>
    violationIf (!c.hasBoundary) .missingBoundary ++
      violationIf (!c.spatialReady) .boundaryNeedsNative

/-- Everything that is wrong with a query in a context, in the order of the checks. -/
def SpatialQuery.violations (q : SpatialQuery R) (c : Context R) : List (Violation R) :=
  violationIf (!isRadius q.distance) .badDistance ++ q.target.violations c ++
    blockViolations c 1 q.blocks

/-- Several violations as one line. -/
def invalidMessage (messages : List String) : String :=
  "invalid query: " ++ Text.joined "; " messages

end TransitQuery
