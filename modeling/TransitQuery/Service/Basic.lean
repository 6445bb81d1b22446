import TransitQuery.Cache
import TransitQuery.Plan.Basic
import TransitQuery.Query.Compile
import TransitQuery.Result
import TransitQuery.Store

/-!
# The service

A service runs queries on an engine. A call validates its query, compiles it or finds its contract
in the cache, and plans it; then it opens a connection, asks once, closes the connection and
reports identifiers.

Only the latest call that reached the engine can be cancelled. For that a service keeps the token
of that call in a slot until the call is over; cancelling marks the token in the slot, if there is
one. Calls look at their own mark when the connection is open, and again when it is closed.

What a call does between two answers of the engine happens at once; a call is therefore a value
that says which answer it waits for, and each answer takes it one step further.
-/

namespace TransitQuery

/-- What the service is doing, as far as it tells. -/
inductive Phase where
  | idle
  | validating
  | compiling
  | buildingPredicate
  | executing
  | postFiltering
  | completed
  | failed
  deriving DecidableEq

/-- The name of a phase. -/
def Phase.name : Phase → String
  | idle => "Idle"
  | validating => "Validating"
  | compiling => "Compiling"
  | buildingPredicate => "BuildingPredicate"
  | executing => "Executing"
  | postFiltering => "PostFiltering"
  | completed => "Completed"
  | failed => "Failed"

/-- Why a call yields no identifiers. -/
inductive ServiceError (R : Type) where
  | invalid (cause : CompileError R)
  | plan (cause : PlanError R)
  | backend (cause : BackendError R)
  | cancelled
  | timedOut (limit : Duration)

/-- The mark by which a call that reached the engine can be cancelled. -/
abbrev Token := Nat

/-- What calls share. -/
structure Service (R : Type) where
  settings : Settings
  cache : Cache (Contract R)
  /-- The token of the latest call that reached the engine, until that call is over. -/
  slot : Option Token
  /-- The tokens that have been cancelled. -/
  marked : List Token
  /-- The token that is given out next. -/
  nextToken : Token
  phase : Phase

/-- What a call does that can be seen from outside. -/
inductive Action (R : Type) where
  | enter (phase : Phase)
  | connect
  | query (request : Request R)
  | close

/-- The outcome of a call. -/
abbrev Outcome (R : Type) := Except (ServiceError R) (List String)

/-- A call, by what it waits for. -/
inductive Call (R : Type) where
  | connecting (token : Token) (plan : Plan R)
  | querying (token : Token) (plan : Plan R)
  | closing (token : Token) (plan : Plan R) (rows : Except (ServiceError R) (List (Row R)))
  | finished (outcome : Outcome R)

/-- What an engine makes of a query. It may report any error of a service, as when it stands for a
service itself. -/
inductive QueryReply (R : Type) where
  | rows (rows : List (Row R))
  | failed (cause : ServiceError R)
  /-- The query has not been answered within the limit of the service. -/
  | timedOut (limit : Duration)

/-- What an engine answers. -/
inductive Reply (R : Type) where
  | connected
  | refused (cause : ServiceError R)
  | answered (reply : QueryReply R)
  | closed
  | closeFailed (cause : ServiceError R)

variable {R : Type}

namespace Service

/-- A service that has not been used. -/
def ofSettings (settings : Settings) : Service R where
  settings
  cache := Cache.empty settings.cacheCapacity
  slot := none
  marked := []
  nextToken := 0
  phase := .idle

/-! ### Tokens -/

/-- Gives out a token, which takes the slot. -/
def begin (s : Service R) : Service R :=
  { s with slot := some s.nextToken, nextToken := s.nextToken + 1 }

/-- Ends the call with a token, which leaves the slot if it is still there. -/
def finish (s : Service R) (token : Token) : Service R :=
  if s.slot = some token then { s with slot := none } else s

/-- Cancels the latest call that reached the engine, if it is not over. -/
def cancel (s : Service R) : Service R :=
  match s.slot with
  | some token => { s with marked := token :: s.marked }
  | none => s

/-- Whether the call with a token has been cancelled. -/
def isMarked (s : Service R) (token : Token) : Bool :=
  s.marked.contains token

/-- Drops all contracts. -/
def clearCache (s : Service R) : Service R :=
  { s with cache := s.cache.clear }

end Service

variable [Scalar R]

namespace ServiceError

/-- The wording of an error. -/
def message : ServiceError R → String
  | invalid (.invalid violations) => invalidMessage (violations.map Violation.message)
  | invalid (.unresolved cause) => "compile error: " ++ cause.message
  | plan cause => cause.message
  | backend cause => "backend error: " ++ cause.message
  | cancelled => "query cancelled"
  | timedOut limit => "query timed out after " ++ limit.toText

/-- The phase in which a call ends that fails so. -/
def phase : ServiceError R → Phase
  | invalid (.invalid _) => .idle
  | _ => .failed

end ServiceError

/-- The result of a call. -/
def QueryResult.ofOutcome : Outcome R → QueryResult
  | .ok ids => ofIds ids
  | .error (.invalid (.invalid violations)) => invalid (violations.map Violation.message)
  | .error e => failure e.message

/-- A step of a call: what calls share afterwards, the call, and what it did. -/
structure Step (R : Type) where
  service : Service R
  call : Call R
  actions : List (Action R)

namespace Step

/-- Puts an action before those of a step. -/
def after (a : Action R) (s : Step R) : Step R :=
  { s with actions := a :: s.actions }

/-- Leaves the phase in which a call ended, if the step ended it. -/
def rest (s : Step R) : Step R :=
  match s.call with
  | .finished _ =>
    { s with service := { s.service with phase := .idle }, actions := s.actions ++ [.enter .idle] }
  | _ => s

end Step

namespace Service

/-! ### The steps of a call -/

/-- Enters a phase and goes on. -/
def enter (s : Service R) (phase : Phase) (next : Service R → Step R) : Step R :=
  (next { s with phase }).after (.enter phase)

/-- Ends a call. -/
def conclude (s : Service R) (outcome : Outcome R) : Step R :=
  let phase := match outcome with
    | .ok _ => .completed
    | .error e => e.phase
  s.enter phase fun s => ⟨s, .finished outcome, []⟩

/-- Looks a contract up. -/
def lookUp (s : Service R) (key : CacheKey) : Option (Contract R) × Service R :=
  let (found, cache) := s.cache.get key
  (found, { s with cache })

/-- Puts a contract into the cache. -/
def deposit (s : Service R) (key : CacheKey) (contract : Contract R) : Service R :=
  { s with cache := s.cache.insert key contract }

/-- The contract of a query, from the cache or else compiled and put there. -/
def contractFor (s : Service R) (now : Instant) (q : SpatialQuery R) (c : Context R) :
    Except (CompileError R) (Contract R) × Service R :=
  let key := CacheKey.ofContext q.hash c
  match s.lookUp key with
  | (some contract, s) => (.ok contract, s)
  | (none, s) =>
    match q.compile now c with
    | .error e => (.error e, s)
    | .ok contract => (.ok contract, s.deposit key contract)

/-- Takes a token and asks for a connection. -/
def connect (s : Service R) (plan : Plan R) : Step R :=
  s.begin.enter .executing fun t => ⟨t, .connecting s.nextToken plan, [.connect]⟩

/-- Starts a call: checks, compiles and plans its query. A context without a column for
identifiers ends it at once. -/
def start (s : Service R) (now : Instant) (q : SpatialQuery R) (c : Context R) : Step R :=
  if c.serviceIdField.isNone then s.conclude (.error (.plan .noIdField))
  else
    s.enter .validating fun s =>
      match q.violations c with
      | v :: vs => s.conclude (.error (.invalid (.invalid (v :: vs))))
      | [] =>
        s.enter .compiling fun s =>
          match s.contractFor now q c with
          | (.error e, s) => s.conclude (.error (.invalid e))
          | (.ok contract, s) =>
            s.enter .buildingPredicate fun s =>
              match Plan.ofContract contract c s.settings with
              | .error e => s.conclude (.error (.plan e))
              | .ok plan => s.connect plan

/-- Asks for the rows of a plan, or closes the connection if the call has been cancelled. -/
def ask (s : Service R) (token : Token) (plan : Plan R) : Step R :=
  if s.isMarked token then ⟨s, .closing token plan (.error .cancelled), [.close]⟩
  else ⟨s, .querying token plan, [.query plan.request]⟩

/-- The identifiers of the rows that a plan accepts. -/
def report (s : Service R) (plan : Plan R) (rows : List (Row R)) : Step R :=
  match plan.refinement with
  | none => s.conclude (.ok (Row.distinctIds plan.request.idField rows))
  | some r => s.enter .postFiltering fun s => s.conclude (.ok (r.ids rows))

/-- Ends a call that reached the engine. A failure goes before a cancellation. -/
def settle (s : Service R) (token : Token) (plan : Plan R)
    (rows : Except (ServiceError R) (List (Row R))) : Step R :=
  -- The slot is left before the mark is looked at: a later `cancel` no longer reaches this call.
  let s := s.finish token
  match rows with
  | .error e => s.conclude (.error e)
  | .ok rows =>
    if s.isMarked token then s.conclude (.error .cancelled) else s.report plan rows

/-- What the rows of a call are after the engine's answer. -/
def rowsOf : QueryReply R → Except (ServiceError R) (List (Row R))
  | .rows rows => .ok rows
  | .failed cause => .error cause
  | .timedOut limit => .error (.timedOut limit)

/-- Takes a call further by an answer of the engine. A failure to close changes no outcome, and an
answer that the call does not wait for changes nothing at all. -/
def resume (s : Service R) (call : Call R) (reply : Reply R) : Step R :=
  match call, reply with
  | .connecting token plan, .connected => s.ask token plan
  | .connecting token plan, .refused cause => s.settle token plan (.error cause)
  | .querying token plan, .answered reply => ⟨s, .closing token plan (rowsOf reply), [.close]⟩
  | .closing token plan rows, .closed | .closing token plan rows, .closeFailed _ =>
    s.settle token plan rows
  | call, _ => ⟨s, call, []⟩

end Service

end TransitQuery
