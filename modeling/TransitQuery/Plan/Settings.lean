import TransitQuery.Query.Basic
import TransitQuery.Time.Duration

/-!
# Settings

What can be configured about running queries: how many contracts are kept, how long an engine may
take, and in which tables routes and stops are found.

Settings belong to a service and do not change while it lives. A capacity of zero is allowed and
keeps nothing; so is a limit of no time at all, which every query exceeds that does not answer at
once. The names of tables are used as they are given: no table is checked to exist before an engine
is asked for it, and a wrong name comes back as the engine's own error.
-/

namespace TransitQuery

/-- How queries are run. -/
structure Settings where
  /-- The number of contracts that are kept. -/
  cacheCapacity : Nat
  /-- How long the engine may take for a query; without limit if there is none. -/
  timeout : Option Duration
  routesTable : String
  stopsTable : String
  deriving DecidableEq

namespace Settings

/-- Fifty contracts, no limit, and tables named for what they hold. -/
def default : Settings where
  cacheCapacity := 50
  timeout := none
  routesTable := "routes"
  stopsTable := "stops"

/-- The table in which something is found. -/
def table (s : Settings) : Find → String
  | .routes => s.routesTable
  | .stops => s.stopsTable

end Settings

end TransitQuery
