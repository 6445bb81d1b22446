import TransitQuery.Geometry.Distance
import TransitQuery.Query.Validate
import TransitQuery.Geometry.Box

/-!
# Spatial tiers

A context lets points be tested either exactly, on a geometry column that the engine understands,
or by overlap of bounding boxes, which accepts too much. `Tier.select` prefers the exact tests.
The box around a point reaches as many meters in each of the four directions.

The native tier needs two things, that the engine has exact tests and that there is a column for
them; a context with the first alone falls back to boxes, if it has these. Validation asks for the
first only, and the difference shows as an error of the builder.

Degrees of latitude are all of one length here, `metersPerDegree`, and degrees of longitude shrink
with the cosine of the latitude of the point. Near a pole the cosine says nothing any more, and
there is no box (`LatLng.surroundings?`). The box is meant to hold the disc, but a degree counts as
longer here than on the sphere on which distances are measured, so that the rim of a disc can lie
outside.
-/

namespace TransitQuery

/-- How point clauses are tested. -/
inductive Tier where
  /-- Exactly, on the geometry column. -/
  | native
  /-- By boxes, on four columns. -/
  | bbox
  deriving DecidableEq

/-- The name of a tier. -/
def Tier.name : Tier → String
  | native => "native"
  | bbox => "bbox"

variable {R : Type}

/-- The best tier that a context supports. The native one needs a geometry column. -/
def Tier.select (c : Context R) : Option Tier :=
  if c.spatialReady && c.geometryField.isSome then some native
  else if c.bboxReady then some bbox
  else none

variable [Scalar R]

/-- The length of a distance in degrees of latitude. -/
def degreesOfMeters (meters : R) : R :=
  meters / metersPerDegree

/-- The box around a point that reaches so many meters in each direction, unless the point is too
close to a pole. -/
def LatLng.surroundings? (p : LatLng R) (meters : R) : Option (Box R) :=
  if p.isPolar then none
  else
    let up := degreesOfMeters meters
    let across := meters / (metersPerDegree * p.shrink)
    some ⟨p.lng - across, p.lat - up, p.lng + across, p.lat + up⟩

end TransitQuery
