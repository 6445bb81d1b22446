import TransitQuery.Service.Basic

/-!
# Sessions

A session is a service together with the store that serves as its engine. `Session.execute` runs
one call from its start to its result, and `Session.overlap` two calls that both wait for their
query at the same time. A disturbance says what goes wrong with the engine during a call.

The log of a session lists what its calls asked of the engine, and what the service was doing when
they did.

A disturbance interferes at one of the three points where a call waits: the engine refuses or fails
there, or the call is cancelled while it waits. A delay is compared with the limit of the service
and is otherwise not measured. A call waits for at most three answers (`Call.remaining`), so that
three steps take every call to its end and no fuel is needed.

`Session.execute` leaves the service in the phase in which the call ended, `Session.tryExecute`
returns it to rest; that is the whole difference between the two. `Session.ask` goes past the
service and queries the store on a connection of its own, which leaves the phase, the cache and the
log alone.
-/

namespace TransitQuery

/-- What goes wrong during a call. -/
inductive Disturbance where
  | none
  | failConnect (message : String)
  | failQuery (message : String)
  | failClose (message : String)
  | cancelOnConnect
  | cancelOnQuery
  | cancelOnClose
  /-- The engine takes its time before it looks at the query. -/
  | delay (time : Duration)
  deriving DecidableEq

/-- A service and the store that it queries. -/
structure Session (R : Type) where
  service : Service R
  store : Store R
  /-- How often the store has been connected to. -/
  connects : Nat
  /-- How often such a connection has been closed. -/
  closes : Nat
  /-- What calls asked of the engine, and the phase in which they did. -/
  log : List (Phase × Action R)

/-- The outcome of a call that is over. -/
def Call.outcome? {R : Type} : Call R → Option (Outcome R)
  | .finished outcome => some outcome
  | _ => none

/-- How many answers a call may still wait for. -/
def Call.remaining {R : Type} : Call R → Nat
  | .connecting _ _ => 3
  | .querying _ _ => 2
  | .closing _ _ _ => 1
  | .finished _ => 0

theorem Call.remaining_le {R : Type} (call : Call R) : call.remaining ≤ 3 := by
  cases call <;> simp [remaining]

private theorem Call.isSome_outcome_of_remaining {R : Type} {call : Call R}
    (h : call.remaining = 0) :
    call.outcome?.isSome := by
  cases call <;> simp_all [remaining, outcome?]

namespace Service

variable {R : Type}

theorem remaining_ask (s : Service R) (token : Token) (plan : Plan R) :
    (s.ask token plan).call.remaining ≤ 2 := by
  unfold ask
  split <;> simp [Call.remaining]

private theorem remaining_settle [Scalar R] (s : Service R) (token : Token) (plan : Plan R)
    (rows : Except (ServiceError R) (List (Row R))) :
    (s.settle token plan rows).call.remaining = 0 := by
  cases rows with
  | error e => rfl
  | ok rows =>
    simp only [settle, report]
    split
    · rfl
    · cases plan.refinement <;> rfl

end Service

/-- What actions ask of the engine, and in which phase, starting in a given one. -/
def observed {R : Type} (phase : Phase) : List (Action R) → List (Phase × Action R)
  | [] => []
  | .enter phase :: rest => observed phase rest
  | a :: rest => (phase, a) :: observed phase rest

namespace Session

variable {R : Type}

/-- A session over an empty store. -/
def ofSettings (settings : Settings) : Session R where
  service := Service.ofSettings settings
  store := Store.empty
  connects := 0
  closes := 0
  log := []

/-- Cancels the latest call that reached the engine, if it is not over. -/
def cancel (s : Session R) : Session R :=
  { s with service := s.service.cancel }

/-- Cancels if a condition holds. -/
def cancelIf (s : Session R) (condition : Prop) [Decidable condition] : Session R :=
  if condition then s.cancel else s

/-- Drops all contracts. -/
def clearCache (s : Session R) : Session R :=
  { s with service := s.service.clearCache }

/-- Takes over what a step did, and yields its call. -/
def apply (s : Session R) (step : Step R) : Session R × Call R :=
  ({ s with
      service := step.service
      log := s.log ++ observed s.service.phase step.actions }, step.call)

/-- A step of a call, which may leave the phase in which the call ends. -/
def follow (resting : Bool) (step : Step R) : Step R :=
  if resting then step.rest else step

theorem call_apply (s : Session R) (step : Step R) : (s.apply step).2 = step.call := rfl

theorem call_follow (resting : Bool) (step : Step R) : (follow resting step).call = step.call := by
  cases step with
  | mk service call actions => cases resting <;> cases call <;> rfl

variable [Scalar R]

/-! ### The engine -/

/-- What the store answers to a request. -/
def answer (s : Session R) (r : Request R) : QueryReply R :=
  match s.store.answer r with
  | .ok rows => .rows rows
  | .error cause => .failed (.backend cause)

/-- What the engine makes of a request. A delay beyond the limit of the service ends it. -/
def queryReply (s : Session R) (r : Request R) : Disturbance → QueryReply R
  | .failQuery message => .failed (.backend (.reported message))
  | .delay time =>
    match s.service.settings.timeout with
    | some limit =>
      if limit.milliseconds < time.milliseconds then .timedOut limit else s.answer r
    | none => s.answer r
  | _ => s.answer r

/-- The engine opens a connection. -/
def serveConnect (s : Session R) (d : Disturbance) : Session R × Reply R :=
  let s := s.cancelIf (d = .cancelOnConnect)
  match d with
  | .failConnect message => (s, .refused (.backend (.reported message)))
  | _ => ({ s with connects := s.connects + 1 }, .connected)

/-- The engine answers a query. -/
def serveQuery (s : Session R) (d : Disturbance) (r : Request R) : Session R × Reply R :=
  let s := s.cancelIf (d = .cancelOnQuery)
  (s, .answered (s.queryReply r d))

/-- The engine closes a connection. -/
def serveClose (s : Session R) (d : Disturbance) : Session R × Reply R :=
  let s := s.cancelIf (d = .cancelOnClose)
  let s := { s with closes := s.closes + 1 }
  match d with
  | .failClose message => (s, .closeFailed (.backend (.reported message)))
  | _ => (s, .closed)

/-- The engine gives a call the answer that it waits for, if it waits for one. -/
def serve (s : Session R) (d : Disturbance) : Call R → Option (Session R × Reply R)
  | .connecting _ _ => some (s.serveConnect d)
  | .querying _ plan => some (s.serveQuery d plan.request)
  | .closing _ _ _ => some (s.serveClose d)
  | .finished _ => none

/-- Asks the store directly, on a connection of its own, which may be closed beforehand. -/
def ask (s : Session R) (r : Request R) (closed : Bool) :
    Session R × Except (BackendError R) (List (Row R)) :=
  ({ s with connects := s.connects + 1, closes := s.closes + 1 },
    if closed then .error .closed else s.store.answer r)

/-! ### Running calls -/

/-- Starts a call. -/
def start (s : Session R) (resting : Bool) (now : Instant) (q : SpatialQuery R) (c : Context R) :
    Session R × Call R :=
  s.apply (follow resting (s.service.start now q c))

/-- Takes a call through one answer of the engine. -/
def advance (resting : Bool) (d : Disturbance) (run : Session R × Call R) : Session R × Call R :=
  match run.1.serve d run.2 with
  | none => run
  | some (s, reply) => s.apply (follow resting (s.service.resume run.2 reply))

/-- Takes a call to its end: it waits for three answers at most. -/
def complete (resting : Bool) (d : Disturbance) (run : Session R × Call R) : Session R × Call R :=
  advance resting d (advance resting d (advance resting d run))

/-! ### Every call ends -/

/-- Each answer brings a call closer to its end. -/
theorem remaining_advance (resting : Bool) (d : Disturbance) (run : Session R × Call R) :
    (advance resting d run).2.remaining ≤ run.2.remaining - 1 := by
  obtain ⟨s, call⟩ := run
  cases call with
  | finished outcome => simp [advance, serve, Call.remaining]
  | querying token plan =>
    simp [advance, serve, serveQuery, call_apply, call_follow, Service.resume, Call.remaining]
  | connecting token plan =>
    simp only [advance, serve, call_apply, call_follow]
    cases d <;> simp [serveConnect, Service.resume, Service.remaining_settle] <;>
      exact Service.remaining_ask _ _ _
  | closing token plan rows =>
    simp only [advance, serve, call_apply, call_follow]
    cases d <;> simp [serveClose, Service.resume, Service.remaining_settle]

theorem isSome_outcome_complete (resting : Bool) (d : Disturbance) (run : Session R × Call R) :
    (complete resting d run).2.outcome?.isSome := by
  have h₁ := remaining_advance resting d run
  have h₂ := remaining_advance resting d (advance resting d run)
  have h₃ := remaining_advance resting d (advance resting d (advance resting d run))
  have h₀ := run.2.remaining_le
  exact Call.isSome_outcome_of_remaining (by unfold complete; omega)

/-- What becomes of a call when nothing else interferes. -/
def outcome (resting : Bool) (d : Disturbance) (run : Session R × Call R) : Outcome R :=
  (complete resting d run).2.outcome?.get (isSome_outcome_complete resting d run)

/-! ### Whole calls -/

/-- Runs a query to its outcome. -/
def tryExecute (s : Session R) (d : Disturbance) (now : Instant) (q : SpatialQuery R)
    (c : Context R) : Session R × Outcome R :=
  let run := s.start false now q c
  ((complete false d run).1, outcome false d run)

/-- Runs a query to its result, and leaves the phase in which it ended. -/
def execute (s : Session R) (d : Disturbance) (now : Instant) (q : SpatialQuery R)
    (c : Context R) : Session R × QueryResult :=
  let run := s.start true now q c
  ((complete true d run).1, QueryResult.ofOutcome (outcome true d run))

/-- Lets a call wait at its query for another one. No time passes, but a limit of no time is up
as soon as a call waits at all, as it is with any delay. -/
def await (run : Session R × Call R) : Session R × Call R :=
  match run.1.service.settings.timeout with
  | some ⟨0⟩ => complete true (.delay ⟨1⟩) run
  | _ => run

/-- Starts a call that is to overlap with another, and takes it as far as its query. -/
def startAwaiting (s : Session R) (now : Instant) (call : SpatialQuery R × Context R) :
    Session R × Call R :=
  await (advance true .none (s.start true now call.1 call.2))

/-- Runs two queries at the same time, the first one ahead. Both are taken as far as their query
to the engine; then the latest call may be cancelled, and both go on to their results. -/
def overlap (s : Session R) (now : Instant) (first second : SpatialQuery R × Context R)
    (cancelled : Bool) : Session R × QueryResult × QueryResult :=
  let (s, a) := s.startAwaiting now first
  let (s, b) := s.startAwaiting now second
  let s := s.cancelIf (cancelled = true)
  -- From here on no call waits for another, so the first one ends before the second goes on.
  let ra := outcome true .none (s, a)
  let s := (complete true .none (s, a)).1
  let rb := outcome true .none (s, b)
  ((complete true .none (s, b)).1, QueryResult.ofOutcome ra, QueryResult.ofOutcome rb)

end Session

end TransitQuery
