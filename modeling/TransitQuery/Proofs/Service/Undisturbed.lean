import TransitQuery.Proofs.Plan
import TransitQuery.Proofs.Service.Start
import TransitQuery.Service.Session

/-!
# Calls that nothing disturbs

A call takes three answers of its engine, and between them the service and the store may change as
they like: other calls run, contracts are dropped, rows are added. If the call itself is not
cancelled and its engine neither fails nor takes too long, its outcome depends on nothing but its
plan and the rows of its table at the time of the query: it is what the plan is meant to find in
the full rows, or a failure of the engine if the predicate is not decided on one of them.

`Session.through` takes the call through its three answers in three sessions that have nothing to
do with each other, but for the call that goes through them. So nothing is said about how the
service or the store came to be what they are at that time. What is asked is that the token of the
call has no mark at the two moments at which it is looked for, and that the disturbance is harmless
(`Disturbance.IsHarmless`): a connection that does not close, or a delay within the limit, is.

The outcome is `Plan.found` on the rows that the store has at the query, in the order of the table.
The numbers in the rows have to be finite, as those of any text are, since the store drops rows
whose text has occurred before. A call that runs by itself is a special case
(`Session.outcome_start_eq_found`).
-/

namespace TransitQuery

variable {R : Type}

/-- What goes wrong with the engine does not touch the outcome of a call: nothing at all, a
connection that does not close, or a delay within the limit. -/
def Disturbance.IsHarmless (limit : Option Duration) : Disturbance → Prop
  | .none | .failClose _ => True
  | .delay time => ∀ l ∈ limit, time.milliseconds ≤ l.milliseconds
  | _ => False

namespace Service

theorem isMarked_finish (s : Service R) (token token' : Token) :
    (s.finish token).isMarked token' = s.isMarked token' := by
  unfold finish
  split <;> rfl

variable [Scalar R]

/-! ### Ending -/

/-- A call with rows that has no mark reports them. -/
theorem call_settle_ok {s : Service R} {token : Token} (h : s.isMarked token = false)
    (plan : Plan R) (rows : List (Row R)) :
    (s.settle token plan (.ok rows)).call = .finished (.ok (plan.reported rows)) := by
  rw [settle, isMarked_finish, h, if_neg (by simp), report, Plan.reported]
  cases plan.refinement <;> rfl

/-- A call without rows fails as its engine has it. -/
private theorem call_settle_error (s : Service R) (token : Token) (plan : Plan R)
    (e : ServiceError R) :
    (s.settle token plan (.error e)).call = .finished (.error e) := rfl

end Service

namespace Session

variable [Scalar R] {d : Disturbance} {limit : Option Duration}

/-! ### The three answers -/

/-- A connection opens, and the call asks. -/
theorem advance_connecting {s : Session R} {token : Token} (hd : d.IsHarmless limit)
    (hmark : s.service.isMarked token = false) (resting : Bool) (plan : Plan R) :
    (advance resting d (s, .connecting token plan)).2 = .querying token plan ∧
      (advance resting d (s, .connecting token plan)).1.service = s.service ∧
      (advance resting d (s, .connecting token plan)).1.store = s.store := by
  have hask : follow resting (s.service.ask token plan) =
      ⟨s.service, .querying token plan, [.query plan.request]⟩ := by
    rw [Service.ask, hmark]
    cases resting <;> rfl
  have hserve : s.serve d (.connecting token plan) =
      some ({ s with connects := s.connects + 1 }, .connected) := by
    cases d <;> first | rfl | exact hd.elim
  simp only [advance, hserve, Service.resume, apply, hask, and_self]

/-- The store answers, and the call closes its connection. -/
theorem advance_querying {s : Session R} (hd : d.IsHarmless s.service.settings.timeout)
    (resting : Bool) (token : Token) (plan : Plan R) :
    (advance resting d (s, .querying token plan)).2 =
        .closing token plan (Service.rowsOf (s.answer plan.request)) ∧
      (advance resting d (s, .querying token plan)).1.service = s.service := by
  -- a delay within the limit is no delay
  have hreply : s.queryReply plan.request d = s.answer plan.request := by
    cases d with
    | none => rfl
    | failClose message => rfl
    | delay time =>
      unfold queryReply
      cases hlimit : s.service.settings.timeout with
      | none => rfl
      | some limit =>
        have hle := hd limit hlimit
        dsimp only
        rw [if_neg (by omega)]
    | _ => exact hd.elim
  have hserve : s.serve d (.querying token plan) =
      some (s, .answered (s.answer plan.request)) := by
    rw [← hreply]
    cases d <;> first | rfl | exact hd.elim
  have hfollow : ∀ rows, follow resting (⟨s.service, .closing token plan rows, [.close]⟩ : Step R) =
      ⟨s.service, .closing token plan rows, [.close]⟩ := fun rows => by
    cases resting <;> rfl
  simp only [advance, hserve, Service.resume, apply, hfollow, and_self]

/-- The connection closes or does not, and the call ends. -/
theorem advance_closing {s : Session R} (hd : d.IsHarmless limit) (resting : Bool) (token : Token)
    (plan : Plan R) (rows : Except (ServiceError R) (List (Row R))) :
    (advance resting d (s, .closing token plan rows)).2 =
      (s.service.settle token plan rows).call := by
  cases d with
  | none => simp only [advance, serve, serveClose, call_apply, call_follow, Service.resume]; rfl
  | failClose message =>
    simp only [advance, serve, serveClose, call_apply, call_follow, Service.resume]; rfl
  | delay time =>
    simp only [advance, serve, serveClose, call_apply, call_follow, Service.resume]; rfl
  | _ => exact hd.elim

/-! ### The outcome -/

/-- What becomes of a call that takes its three answers while the session is in the given
states. -/
def through (resting : Bool) (d : Disturbance) (s₁ s₂ s₃ : Session R) (call : Call R) : Call R :=
  (advance resting d (s₃, (advance resting d (s₂, (advance resting d (s₁, call)).2)).2)).2

/-- A call that waits for its connection ends with the rows that the store has at the query. -/
theorem through_connecting {s₁ s₂ s₃ : Session R} {token : Token}
    (hd : d.IsHarmless s₂.service.settings.timeout)
    (hmark₁ : s₁.service.isMarked token = false) (resting : Bool) (plan : Plan R) :
    through resting d s₁ s₂ s₃ (.connecting token plan) =
      (s₃.service.settle token plan (Service.rowsOf (s₂.answer plan.request))).call := by
  rw [through, (advance_connecting hd hmark₁ resting plan).1,
    (advance_querying hd resting token plan).1, advance_closing hd]

/-- The outcome of a call to which the store answers. -/
theorem through_connecting_eq_answered {s₁ s₂ s₃ : Session R} {token : Token} {plan : Plan R}
    (hd : d.IsHarmless s₂.service.settings.timeout)
    (hmark₁ : s₁.service.isMarked token = false) (hmark₃ : s₃.service.isMarked token = false)
    {rows : List (Row R)} (hrows : s₂.store.rows? plan.request.table = some rows)
    (resting : Bool) :
    ((∀ row ∈ rows, plan.request.predicate.IsDecided row) ∧
        through resting d s₁ s₂ s₃ (.connecting token plan) =
          .finished (.ok (plan.answered rows))) ∨
      ((∃ row ∈ rows, ¬ plan.request.predicate.IsDecided row) ∧
        ∃ cause, through resting d s₁ s₂ s₃ (.connecting token plan) =
          .finished (.error (.backend cause))) := by
  rw [through_connecting hd hmark₁]
  -- the store answers by filtering, and that succeeds just when all rows are decided
  by_cases hdecided : ∀ row ∈ rows, plan.request.predicate.IsDecided row
  · refine .inl ⟨hdecided, ?_⟩
    have hanswer : s₂.answer plan.request = .rows (Row.distinct
        ((rows.filter plan.request.predicate.accepts).map (Row.project plan.request.columns))) := by
      simp only [answer, Store.answer, hrows, Request.answer, Predicate.filter_eq_ok hdecided]
      rfl
    rw [hanswer, Service.rowsOf, Service.call_settle_ok hmark₃, Plan.answered]
  · have hundecided : ∃ row ∈ rows, ¬ plan.request.predicate.IsDecided row := by
      simpa using hdecided
    obtain ⟨cause, hcause⟩ := Predicate.filter_eq_error hundecided
    refine .inr ⟨hundecided, .undecided cause, ?_⟩
    have hanswer : s₂.answer plan.request = .failed (.backend (.undecided cause)) := by
      simp only [answer, Store.answer, hrows, Request.answer, hcause]
      rfl
    rw [hanswer, Service.rowsOf, Service.call_settle_error]

/-- Either the predicate is decided on all rows and the call finds what its plan is meant to find,
or it fails. -/
theorem through_connecting_eq_finished [LegibleScalar R] {s₁ s₂ s₃ : Session R} {token : Token}
    {plan : Plan R} {clauses : ClauseContext R} {contract : Contract R} {settings : Settings}
    {idField : String} (hplan : plan.Realizes clauses contract settings idField)
    (hd : d.IsHarmless s₂.service.settings.timeout)
    (hmark₁ : s₁.service.isMarked token = false) (hmark₃ : s₃.service.isMarked token = false)
    {rows : List (Row R)} (hrows : s₂.store.rows? plan.request.table = some rows)
    (hfinite : ∀ row ∈ rows, row.hasFiniteNumbers = true) (resting : Bool) :
    ((∀ row ∈ rows, plan.request.predicate.IsDecided row) ∧
        through resting d s₁ s₂ s₃ (.connecting token plan) = .finished (.ok (plan.found rows))) ∨
      ((∃ row ∈ rows, ¬ plan.request.predicate.IsDecided row) ∧
        ∃ cause, through resting d s₁ s₂ s₃ (.connecting token plan) =
          .finished (.error (.backend cause))) := by
  rw [← hplan.answered_eq_found hfinite]
  exact through_connecting_eq_answered hd hmark₁ hmark₃ hrows resting

/-- What a call of a valid query finds that can be planned and that nothing disturbs. Its plan has
the predicate of its contract, and the exact one where candidates are refined. Where the predicate
is decided on all rows of the table, the call reports what the plan is meant to find in the full
rows; it ends with a failure of the engine exactly when there is a row on which it is not. -/
theorem through_start_eq_finished [LegibleScalar R] {s : Service R} {now : Instant}
    {q : SpatialQuery R} {c : Context R} {contract : Contract R} {plan : Plan R}
    (hvalid : q.violations c = []) (hcontract : (s.contractFor now q c).1 = .ok contract)
    (hplan : Plan.ofContract contract c s.settings = .ok plan) {s₁ s₂ s₃ : Session R}
    (hd : d.IsHarmless s₂.service.settings.timeout)
    (hmark₁ : s₁.service.isMarked s.nextToken = false)
    (hmark₃ : s₃.service.isMarked s.nextToken = false) {rows : List (Row R)}
    (hrows : s₂.store.rows? plan.request.table = some rows)
    (hfinite : ∀ row ∈ rows, row.hasFiniteNumbers = true) (resting : Bool) :
    (∃ clauses, ClauseContext.ofContext c = .ok clauses ∧
        clauses.predicate contract = .ok plan.request.predicate ∧
        c.serviceIdField = some plan.request.idField ∧
        ∀ r ∈ plan.refinement, ∃ field, c.refinementField clauses.tier = some field ∧
          (clauses.exactOn field).predicate contract = .ok r.predicate) ∧
      ((∀ row ∈ rows, plan.request.predicate.IsDecided row) →
        through resting d s₁ s₂ s₃ (s.start now q c).call =
          .finished (.ok (plan.found rows))) ∧
      ((∃ cause, through resting d s₁ s₂ s₃ (s.start now q c).call =
          .finished (.error (.backend cause))) ↔
        ∃ row ∈ rows, ¬ plan.request.predicate.IsDecided row) := by
  obtain ⟨idField, clauses, hid, hclauses, hrealizes⟩ := Plan.exists_realizes_of_ofContract hplan
  have hcontext : clauses.context = c := ClauseContext.context_of_ofContext hclauses
  rw [(Service.start_reaches hvalid hcontract hplan).1]
  -- what the plan consists of, and then what its call ends with
  refine ⟨⟨clauses, hclauses, hrealizes.predicate_eq, ?_, fun r hr => ?_⟩, ?_⟩
  · rw [hid, hrealizes.idField_eq]
  · obtain ⟨-, field, hfield, hexact⟩ := hrealizes.exact_eq hr
    exact ⟨field, hcontext ▸ hfield, hexact⟩
  obtain ⟨hdecided, hend⟩ | ⟨hundecided, cause, hend⟩ :=
    through_connecting_eq_finished hrealizes hd hmark₁ hmark₃ hrows hfinite resting
  · rw [hend]
    refine ⟨fun _ => rfl, Iff.intro ?_ ?_⟩
    · rintro ⟨cause, h⟩
      cases h
    · rintro ⟨row, hrow, hundecided⟩
      exact absurd (hdecided row hrow) hundecided
  · rw [hend]
    refine ⟨fun hdecided => ?_, Iff.intro (fun _ => hundecided) (fun _ => ⟨cause, rfl⟩)⟩
    obtain ⟨row, hrow, hrow'⟩ := hundecided
    exact absurd (hdecided row hrow) hrow'

/-- A call that has been completed has the outcome with which it ended. -/
theorem outcome_eq_of_complete {resting : Bool} {run : Session R × Call R} {o : Outcome R}
    (h : (complete resting d run).2 = .finished o) : outcome resting d run = o := by
  refine Option.get_of_eq_some _ ?_
  rw [h]
  rfl

omit [Scalar R] in
/-- A step that waits for a connection is not the last one. -/
theorem follow_eq_of_connecting {step : Step R} {token : Token} {plan : Plan R}
    (h : step.call = .connecting token plan) (resting : Bool) : follow resting step = step := by
  cases resting with
  | false => rfl
  | true => rw [follow, if_pos rfl, Step.rest, h]

section

variable [LegibleScalar R] {s : Session R} {now : Instant} {q : SpatialQuery R} {c : Context R}
  {contract : Contract R} {plan : Plan R}
  (hvalid : q.violations c = []) (hcontract : (s.service.contractFor now q c).1 = .ok contract)
  (hplan : Plan.ofContract contract c s.service.settings = .ok plan)
  (hd : d.IsHarmless s.service.settings.timeout)
  (hmark : s.service.isMarked s.service.nextToken = false) {rows : List (Row R)}
  (hrows : s.store.rows? plan.request.table = some rows)
  (hfinite : ∀ row ∈ rows, row.hasFiniteNumbers = true)
  (hdecided : ∀ row ∈ rows, plan.request.predicate.IsDecided row)
include hvalid hcontract hplan hd hmark hrows hdecided

omit [LegibleScalar R] in
/-- A call that runs by itself ends with what its plan ends with, if the predicate is decided on all
rows. -/
theorem outcome_start_eq_answered (resting : Bool) :
    outcome resting d (s.start resting now q c) = .ok (plan.answered rows) := by
  obtain ⟨hcall, hmarked, hsettings⟩ := Service.start_reaches hvalid hcontract hplan
  have hfollow : follow resting (s.service.start now q c) = s.service.start now q c :=
    follow_eq_of_connecting hcall resting
  -- the session after each of the first three answers: none of them marks the call
  obtain ⟨s₁, hs₁⟩ : ∃ s₁, s₁ = (s.start resting now q c).1 := ⟨_, rfl⟩
  have hrun : s.start resting now q c = (s₁, .connecting s.service.nextToken plan) :=
    Prod.ext hs₁.symm (by rw [start, hfollow, call_apply, hcall])
  have hservice₁ : s₁.service = (s.service.start now q c).service := by
    rw [hs₁, start, hfollow]
    rfl
  have hstore₁ : s₁.store = s.store := by
    rw [hs₁]
    rfl
  have hmark₁ : s₁.service.isMarked s.service.nextToken = false := by
    rw [hservice₁]
    exact (congrArg (fun marked => List.contains marked s.service.nextToken) hmarked).trans hmark
  obtain ⟨hquerying, hservice₂, hstore₂⟩ := advance_connecting hd hmark₁ resting plan
  set s₂ := (advance resting d (s₁, .connecting s.service.nextToken plan)).1
  have hd₂ : d.IsHarmless s₂.service.settings.timeout := by
    rw [hservice₂, hservice₁, hsettings]
    exact hd
  obtain ⟨hclosing, hservice₃⟩ := advance_querying hd₂ resting s.service.nextToken plan
  set s₃ := (advance resting d (s₂, .querying s.service.nextToken plan)).1
  have hend : (complete resting d (s.start resting now q c)).2 =
      through resting d s₁ s₂ s₃ (.connecting s.service.nextToken plan) := by
    have hrun₂ : advance resting d (s₁, .connecting s.service.nextToken plan) =
        (s₂, .querying s.service.nextToken plan) := Prod.ext rfl hquerying
    rw [complete, hrun, hrun₂, through, hquerying]
  have hmark₃ : s₃.service.isMarked s.service.nextToken = false := by
    rw [hservice₃, hservice₂, hmark₁]
  have hrows₂ : s₂.store.rows? plan.request.table = some rows := by
    rw [hstore₂, hstore₁]
    exact hrows
  obtain ⟨-, hanswered⟩ | ⟨⟨row, hrow, hundecided⟩, -⟩ :=
    through_connecting_eq_answered hd₂ hmark₁ hmark₃ hrows₂ resting
  · exact outcome_eq_of_complete (hend.trans hanswered)
  · exact absurd (hdecided row hrow) hundecided

include hfinite

/-- That is what the plan is meant to find. -/
theorem outcome_start_eq_found (resting : Bool) :
    outcome resting d (s.start resting now q c) = .ok (plan.found rows) := by
  obtain ⟨idField, clauses, -, -, hrealizes⟩ := Plan.exists_realizes_of_ofContract hplan
  rw [← hrealizes.answered_eq_found hfinite]
  exact outcome_start_eq_answered hvalid hcontract hplan hd hmark hrows hdecided resting

/-- So it is when the service is asked for the outcome. -/
theorem tryExecute_eq_found : (s.tryExecute d now q c).2 = .ok (plan.found rows) :=
  outcome_start_eq_found hvalid hcontract hplan hd hmark hrows hfinite hdecided false

theorem execute_eq_found : (s.execute d now q c).2 = QueryResult.ofIds (plan.found rows) :=
  congrArg QueryResult.ofOutcome
    (outcome_start_eq_found hvalid hcontract hplan hd hmark hrows hfinite hdecided true)

end

/-- Two routes, one of them at the point `(0, 0)`, which is stored twice. -/
def sampleRoutes : List (Row Float) :=
  [[("geometry", .str "POINT (0 0)"), ("id", .str "a")],
    [("geometry", .str "POINT (1 0)"), ("id", .int 7)],
    [("geometry", .str "POINT (0 0)"), ("id", .str "a"), ("name", .null)]]

/-- A session with `sampleRoutes`. -/
def sampleSession : Session Float :=
  { ofSettings Settings.default with store := ⟨[("routes", sampleRoutes)]⟩ }

/-- The routes that meet the boundary. -/
def sampleQuery : SpatialQuery Float where
  find := .routes
  condition := .intersect
  distance := 0
  target := .boundary
  blocks := []

/-- The point `(0, 0)` as a boundary. -/
def sampleContext : Context Float :=
  { Context.empty with
    serviceIdField := some "id"
    spatialReady := true
    geometryField := some "geometry"
    boundary := some (.wkt "POINT (0 0)") }

/-- The route at the point is found once, even if the connection does not close. -/
theorem through_start_sample :
    through true (.failClose "gone") sampleSession sampleSession sampleSession
      (sampleSession.service.start ⟨0, 0⟩ sampleQuery sampleContext).call =
        .finished (.ok ["a"]) := by
  have hplan : (((sampleSession.service.contractFor
        ⟨0, 0⟩ sampleQuery sampleContext).1.toOption.bind
      fun contract => (Plan.ofContract contract sampleContext Settings.default).toOption).map
        fun plan => (plan.request.table, plan.found sampleRoutes,
          sampleRoutes.all fun row => (plan.request.predicate.evaluate row).isOk)) =
      some ("routes", ["a"], true) := by
    decide +kernel
  -- The kernel evaluates the contract and its plan; the theorem does the rest of the call.
  obtain ⟨plan, hplan, heq⟩ := Option.map_eq_some_iff.mp hplan
  obtain ⟨contract, hcontract, hplan⟩ := Option.bind_eq_some_iff.mp hplan
  obtain ⟨htable, hfound, hdecided⟩ : plan.request.table = "routes" ∧
      plan.found sampleRoutes = ["a"] ∧
      (sampleRoutes.all fun row => (plan.request.predicate.evaluate row).isOk) = true := by
    simpa using heq
  have hvalid : sampleQuery.violations sampleContext = [] :=
    List.isEmpty_iff.mp (by decide +kernel)
  have hrows : sampleSession.store.rows? plan.request.table = some sampleRoutes := by
    rw [htable]
    rfl
  have hfinite : ∀ row ∈ sampleRoutes, row.hasFiniteNumbers = true := by decide
  have hharmless : (Disturbance.failClose "gone").IsHarmless
      sampleSession.service.settings.timeout := trivial
  have hmark : sampleSession.service.isMarked sampleSession.service.nextToken = false := rfl
  obtain ⟨-, hok, -⟩ := through_start_eq_finished hvalid (toOption_eq_some_iff.mp hcontract)
    (toOption_eq_some_iff.mp hplan) hharmless hmark hmark hrows hfinite true
  rw [← hfound]
  exact hok fun row hrow => exists_eq_ok_of_isOk (List.all_eq_true.mp hdecided row hrow)

end Session

end TransitQuery
