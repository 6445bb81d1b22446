import TransitQuery.Cache
import TransitQuery.CommandLine.Arguments
import TransitQuery.CommandLine.Run
import TransitQuery.Contract.Basic
import TransitQuery.Contract.Json
import TransitQuery.Decimal.Binary64
import TransitQuery.Decimal.Numeral
import TransitQuery.Decimal.Shortest
import TransitQuery.Digest.Blake3
import TransitQuery.Geometry.Basic
import TransitQuery.Geometry.Box
import TransitQuery.Geometry.Cell
import TransitQuery.Geometry.Contains
import TransitQuery.Geometry.Dimension
import TransitQuery.Geometry.Distance
import TransitQuery.Geometry.GeoJson
import TransitQuery.Geometry.Intersects
import TransitQuery.Geometry.Location
import TransitQuery.Geometry.Topology.Arc
import TransitQuery.Geometry.Topology.Incidence
import TransitQuery.Geometry.Topology.Label
import TransitQuery.Geometry.Topology.Meeting
import TransitQuery.Geometry.Topology.Network
import TransitQuery.Geometry.Topology.Relate
import TransitQuery.Geometry.Topology.Star
import TransitQuery.Json.Basic
import TransitQuery.Json.Number
import TransitQuery.Json.Printer
import TransitQuery.Json.Reader
import TransitQuery.Json.Record
import TransitQuery.Json.Shape
import TransitQuery.Main
import TransitQuery.Plan.Basic
import TransitQuery.Plan.Refinement
import TransitQuery.Plan.Request
import TransitQuery.Plan.Settings
import TransitQuery.Predicate.Basic
import TransitQuery.Predicate.Evaluate
import TransitQuery.Predicate.Json
import TransitQuery.Predicate.OfContract
import TransitQuery.Predicate.Sql
import TransitQuery.Predicate.Tier
import TransitQuery.Proofs.Cache
import TransitQuery.Proofs.Cache.History
import TransitQuery.Proofs.CommandLine
import TransitQuery.Proofs.Computation
import TransitQuery.Proofs.Contract.RoundTrip
import TransitQuery.Proofs.Contract.Wire
import TransitQuery.Proofs.Decimal.Numeral
import TransitQuery.Proofs.Decimal.Order
import TransitQuery.Proofs.Decimal.Packing
import TransitQuery.Proofs.Decimal.Rounding
import TransitQuery.Proofs.Decimal.Shortest
import TransitQuery.Proofs.Feature
import TransitQuery.Proofs.Geometry.Cell
import TransitQuery.Proofs.Geometry.Closed
import TransitQuery.Proofs.Geometry.Consists
import TransitQuery.Proofs.Geometry.Enclosure
import TransitQuery.Proofs.Geometry.Finite
import TransitQuery.Proofs.Geometry.Foot
import TransitQuery.Proofs.Geometry.Grammar
import TransitQuery.Proofs.Geometry.Nearby
import TransitQuery.Proofs.Geometry.Nearest
import TransitQuery.Proofs.Geometry.Plane
import TransitQuery.Proofs.Geometry.Reach
import TransitQuery.Proofs.Geometry.Sphere
import TransitQuery.Proofs.Geometry.Winding
import TransitQuery.Proofs.Json.Codec
import TransitQuery.Proofs.Json.Fields
import TransitQuery.Proofs.Json.Fits
import TransitQuery.Proofs.Json.Legible
import TransitQuery.Proofs.Json.Normal
import TransitQuery.Proofs.Json.NumberText
import TransitQuery.Proofs.Json.Quoted
import TransitQuery.Proofs.Json.ReadBack
import TransitQuery.Proofs.Plan
import TransitQuery.Proofs.Plan.Around
import TransitQuery.Proofs.Plan.Feasible
import TransitQuery.Proofs.Plan.Finite
import TransitQuery.Proofs.Plan.Projection
import TransitQuery.Proofs.Plan.Tier
import TransitQuery.Proofs.Predicate.Boxes
import TransitQuery.Proofs.Predicate.Clauses
import TransitQuery.Proofs.Predicate.Condition
import TransitQuery.Proofs.Predicate.Decided
import TransitQuery.Proofs.Predicate.Enclosed
import TransitQuery.Proofs.Predicate.Grouping
import TransitQuery.Proofs.Predicate.InMeters
import TransitQuery.Proofs.Predicate.Legible
import TransitQuery.Proofs.Predicate.Numbers
import TransitQuery.Proofs.Predicate.Obstacles
import TransitQuery.Proofs.Predicate.PointBoundary
import TransitQuery.Proofs.Predicate.Reads
import TransitQuery.Proofs.Predicate.RoundTrip
import TransitQuery.Proofs.Predicate.Sql
import TransitQuery.Proofs.Predicate.Surroundings
import TransitQuery.Proofs.Predicate.Tiers
import TransitQuery.Proofs.Predicate.Where
import TransitQuery.Proofs.Predicate.Widening
import TransitQuery.Proofs.Predicate.Wire
import TransitQuery.Proofs.Query.Canonical
import TransitQuery.Proofs.Query.Compile
import TransitQuery.Proofs.Query.Equality
import TransitQuery.Proofs.Query.Resolve
import TransitQuery.Proofs.Query.Separation
import TransitQuery.Proofs.Query.Wire
import TransitQuery.Proofs.Report.Csv
import TransitQuery.Proofs.Result
import TransitQuery.Proofs.Row
import TransitQuery.Proofs.Scalar.Exact
import TransitQuery.Proofs.Scalar.Legible
import TransitQuery.Proofs.Scalar.Ordered
import TransitQuery.Proofs.Scalar.Plain
import TransitQuery.Proofs.Scalar.Rational
import TransitQuery.Proofs.Scalar.Readable
import TransitQuery.Proofs.Scalar.Steady
import TransitQuery.Proofs.Scalar.Written
import TransitQuery.Proofs.Service.Boxes
import TransitQuery.Proofs.Service.Cancellation
import TransitQuery.Proofs.Service.Conversation
import TransitQuery.Proofs.Service.Crowd
import TransitQuery.Proofs.Service.Ending
import TransitQuery.Proofs.Service.Start
import TransitQuery.Proofs.Service.Success
import TransitQuery.Proofs.Service.Tiers
import TransitQuery.Proofs.Service.Tokens
import TransitQuery.Proofs.Service.Traffic
import TransitQuery.Proofs.Service.Undisturbed
import TransitQuery.Proofs.Service.Widening
import TransitQuery.Proofs.Sql.Condition
import TransitQuery.Proofs.Sql.Reader
import TransitQuery.Proofs.Store
import TransitQuery.Proofs.Text.Blank
import TransitQuery.Proofs.Text.Words
import TransitQuery.Proofs.Time.Calendar
import TransitQuery.Proofs.Time.Instant
import TransitQuery.Proofs.Wkt.Boundary
import TransitQuery.Proofs.Wkt.Kept
import TransitQuery.Proofs.Wkt.ReadBack
import TransitQuery.Proofs.Wkt.Reader
import TransitQuery.Proofs.Wkt.Token
import TransitQuery.Query.Basic
import TransitQuery.Query.Compile
import TransitQuery.Query.Context
import TransitQuery.Query.Describe
import TransitQuery.Query.Hash
import TransitQuery.Query.Json
import TransitQuery.Query.Resolve
import TransitQuery.Query.Validate
import TransitQuery.Report.Basic
import TransitQuery.Report.Csv
import TransitQuery.Report.Table
import TransitQuery.Result
import TransitQuery.Row
import TransitQuery.Scalar.Basic
import TransitQuery.Scalar.Double
import TransitQuery.Scalar.Expansion
import TransitQuery.Scalar.Turn
import TransitQuery.Service.Basic
import TransitQuery.Service.Session
import TransitQuery.Store
import TransitQuery.Text.Blank
import TransitQuery.Text.CodePoint
import TransitQuery.Text.Emoji
import TransitQuery.Text.Joined
import TransitQuery.Text.Letter
import TransitQuery.Text.Mark
import TransitQuery.Text.Wide
import TransitQuery.Text.Width
import TransitQuery.Time.Duration
import TransitQuery.Time.Instant
import TransitQuery.Wkt.Boundary
import TransitQuery.Wkt.Printer
import TransitQuery.Wkt.Reader
import TransitQuery.Wkt.Token
