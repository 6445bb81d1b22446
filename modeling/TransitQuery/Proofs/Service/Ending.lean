import TransitQuery.Proofs.Query.Compile
import TransitQuery.Proofs.Service.Cancellation

/-!
# How calls end

What a call does and hears is noted in order (`Note`), and four things are told of it apart from the
steps by which a service takes it.

* `Service.Prepares` says what the preparation of a call comes to: a plan, or one of three reasons
  not to turn to an engine. A call starts by its preparation and nothing else
  (`Service.start_cases`).
* `IsExchange` lists what may pass between a call and its engine, from the first word to the last.
  There are four forms: nothing; a connection that is refused; one that is opened and closed; and
  one that is opened, asked once and closed.
* `Ending` says, for each preparation and each exchange, with which outcome the call ends and which
  phases it has gone through by then. A refused connection and a failed query end it with the error
  that the engine reported, a query that takes too long with the limit, and only rows end it with
  identifiers, unless a cancellation was there first. The error cuts the path of phases where it
  comes; the last phase before rest is `failed`, or `idle` for violations, or `completed`.
* `QueryResult.Reports` says which result is handed to the caller for an outcome.

The relations are written out reply by reply, with the phases of each case as a list, and do not
refer to the functions of a service that they are about. What an engine reports may be any error of
a service, also violations or a cancellation of its own.
-/

namespace TransitQuery

variable {R : Type}

/-- What is noted of a call. -/
inductive Note (R : Type) where
  | did (a : Action R)
  | heard (r : Reply R)
  /-- A cancellation reached the call. -/
  | reached

/-- An answer by which a connection is over. -/
def Reply.IsLast : Reply R → Prop
  | closed | closeFailed _ => True
  | _ => False

/-- What may pass between a call and its engine, from the first word to the last. -/
inductive IsExchange : List (Note R) → Prop
  | nothing : IsExchange []
  | refused (cause : ServiceError R) : IsExchange [.did .connect, .heard (.refused cause)]
  | turned {last : Reply R} (h : last.IsLast) :
    IsExchange [.did .connect, .heard .connected, .did .close, .heard last]
  | asked (request : Request R) (reply : QueryReply R) {last : Reply R} (h : last.IsLast) :
    IsExchange [.did .connect, .heard .connected, .did (.query request),
      .heard (.answered reply), .did .close, .heard last]

/-- The phases through which every call goes that reaches its engine. -/
def Phase.path : List Phase :=
  [.validating, .compiling, .buildingPredicate, .executing]

/-- The phase in which a call fails, before it is at rest. Violations of the query are no failure of
the service. -/
inductive ServiceError.FailsIn : ServiceError R → Phase → Prop
  | violated (violations : List (Violation R)) : FailsIn (.invalid (.invalid violations)) .idle
  | failed {e : ServiceError R} (h : ∀ violations, e ≠ .invalid (.invalid violations)) :
    FailsIn e .failed

/-- The phase of a failure is the one in which the call fails. -/
theorem ServiceError.failsIn_phase [Scalar R] (e : ServiceError R) : e.FailsIn e.phase := by
  cases e with
  | invalid cause =>
    cases cause with
    | invalid violations => exact .violated violations
    | unresolved cause => exact .failed nofun
  | _ => exact .failed nofun

/-- Of a failure that is none of violations, the phase is known. -/
theorem ServiceError.FailsIn.eq_failed {e : ServiceError R} {last : Phase} (h : e.FailsIn last)
    (he : ∀ violations, e ≠ .invalid (.invalid violations)) : last = .failed := by
  cases h with
  | violated violations => exact absurd rfl (he violations)
  | failed _ => rfl

variable [Scalar R]

/-- How a call ends, by what its preparation came to and by what passed between it and its engine:
its outcome, and the phases that it has gone through. It matters whether a cancellation was there
early, before the connection opened, and whether one reached the call at all. -/
inductive Ending (early reached : Prop) :
    Except (ServiceError R) (Plan R) → List (Note R) → Outcome R → List Phase → Prop
  | noIdField :
    Ending early reached (.error (.plan .noIdField)) [] (.error (.plan .noIdField)) [.failed, .idle]
  | invalid (violations : List (Violation R)) :
    Ending early reached (.error (.invalid (.invalid violations))) []
      (.error (.invalid (.invalid violations))) [.validating, .idle, .idle]
  | unplanned (cause : BuildError R) :
    Ending early reached (.error (.plan (.predicate cause))) [] (.error (.plan (.predicate cause)))
      [.validating, .compiling, .buildingPredicate, .failed, .idle]
  | refused (plan : Plan R) (cause : ServiceError R) {last : Phase} (h : cause.FailsIn last) :
    Ending early reached (.ok plan) [.did .connect, .heard (.refused cause)] (.error cause)
      (Phase.path ++ [last, .idle])
  /-- The call was cancelled before its connection opened, and closes it again. -/
  | turned (plan : Plan R) (hearly : early) {closing : Reply R} (hclosing : closing.IsLast) :
    Ending early reached (.ok plan)
      [.did .connect, .heard .connected, .did .close, .heard closing] (.error .cancelled)
      (Phase.path ++ [.failed, .idle])
  | failed (plan : Plan R) (hlate : ¬early) (cause : ServiceError R) {last : Phase}
    (h : cause.FailsIn last) {closing : Reply R} (hclosing : closing.IsLast) :
    Ending early reached (.ok plan)
      [.did .connect, .heard .connected, .did (.query plan.request),
        .heard (.answered (.failed cause)), .did .close, .heard closing] (.error cause)
      (Phase.path ++ [last, .idle])
  | timedOut (plan : Plan R) (hlate : ¬early) (limit : Duration) {closing : Reply R}
    (hclosing : closing.IsLast) :
    Ending early reached (.ok plan)
      [.did .connect, .heard .connected, .did (.query plan.request),
        .heard (.answered (.timedOut limit)), .did .close, .heard closing]
      (.error (.timedOut limit)) (Phase.path ++ [.failed, .idle])
  /-- Rows that arrive for a cancelled call are dropped. -/
  | cancelled (plan : Plan R) (hlate : ¬early) (hreached : reached) (rows : List (Row R))
    {closing : Reply R} (hclosing : closing.IsLast) :
    Ending early reached (.ok plan)
      [.did .connect, .heard .connected, .did (.query plan.request),
        .heard (.answered (.rows rows)), .did .close, .heard closing] (.error .cancelled)
      (Phase.path ++ [.failed, .idle])
  | completed (plan : Plan R) (hlate : ¬early) (hunreached : ¬reached) (rows : List (Row R))
    (hplan : plan.refinement = none) {closing : Reply R} (hclosing : closing.IsLast) :
    Ending early reached (.ok plan)
      [.did .connect, .heard .connected, .did (.query plan.request),
        .heard (.answered (.rows rows)), .did .close, .heard closing]
      (.ok (Row.distinctIds plan.request.idField rows)) (Phase.path ++ [.completed, .idle])
  | refined (plan : Plan R) (hlate : ¬early) (hunreached : ¬reached) (rows : List (Row R))
    {r : Refinement R} (hplan : plan.refinement = some r) {closing : Reply R}
    (hclosing : closing.IsLast) :
    Ending early reached (.ok plan)
      [.did .connect, .heard .connected, .did (.query plan.request),
        .heard (.answered (.rows rows)), .did .close, .heard closing]
      (.ok (r.ids rows)) (Phase.path ++ [.postFiltering, .completed, .idle])

/-- Which result is handed out for an outcome: a success with identifiers, each once, and their
number, or else a failure with one message, or with one for each violation. -/
inductive QueryResult.Reports : Outcome R → QueryResult → Prop
  | success {ids : List String} (h : ids.Nodup) :
    Reports (.ok ids) ⟨true, some ids, some ids.length, none, none⟩
  | invalid (violations : List (Violation R)) :
    Reports (.error (.invalid (.invalid violations)))
      ⟨false, none, none, none, some (violations.map Violation.message)⟩
  | failure {e : ServiceError R} (h : ∀ violations, e ≠ .invalid (.invalid violations)) :
    Reports (.error e) ⟨false, none, none, some e.message, none⟩

/-! ### Consequences of an ending -/

namespace Ending

variable {early reached early' reached' : Prop} {prepared : Except (ServiceError R) (Plan R)}
  {exchange : List (Note R)} {outcome : Outcome R} {phases : List Phase}

/-- Once the connection is open, it does not matter what comes later. -/
theorem congr (h : Ending early reached prepared exchange outcome phases)
    (hearly : .heard .connected ∈ exchange → (early ↔ early')) (hreached : reached ↔ reached') :
    Ending early' reached' prepared exchange outcome phases := by
  cases h with
  | noIdField => exact .noIdField
  | invalid violations => exact .invalid violations
  | unplanned cause => exact .unplanned cause
  | refused plan cause h => exact .refused plan cause h
  | turned plan h hclosing => exact .turned plan ((hearly (by simp)).mp h) hclosing
  | failed plan hlate cause h hclosing =>
    exact .failed plan (mt (hearly (by simp)).mpr hlate) cause h hclosing
  | timedOut plan hlate limit hclosing =>
    exact .timedOut plan (mt (hearly (by simp)).mpr hlate) limit hclosing
  | cancelled plan hlate h rows hclosing =>
    exact .cancelled plan (mt (hearly (by simp)).mpr hlate) (hreached.mp h) rows hclosing
  | completed plan hlate h rows hplan hclosing =>
    exact .completed plan (mt (hearly (by simp)).mpr hlate) (mt hreached.mpr h) rows hplan hclosing
  | refined plan hlate h rows hplan hclosing =>
    exact .refined plan (mt (hearly (by simp)).mpr hlate) (mt hreached.mpr h) rows hplan hclosing

/-- What has passed by the end is a whole exchange. -/
theorem isExchange (h : Ending early reached prepared exchange outcome phases) :
    IsExchange exchange := by
  cases h with
  | noIdField | invalid violations | unplanned cause => exact .nothing
  | refused plan cause h => exact .refused cause
  | turned plan h hclosing => exact .turned hclosing
  | failed plan hlate cause h hclosing => exact .asked _ _ hclosing
  | timedOut plan hlate limit hclosing => exact .asked _ _ hclosing
  | cancelled plan hlate h rows hclosing => exact .asked _ _ hclosing
  | completed plan hlate h rows hplan hclosing => exact .asked _ _ hclosing
  | refined plan hlate h rows hplan hclosing => exact .asked _ _ hclosing

/-- Nothing passes where preparation fails, and only there. -/
theorem exchange_eq_nil_iff (h : Ending early reached prepared exchange outcome phases) :
    exchange = [] ↔ ∃ e, prepared = .error e := by
  cases h <;> simp

/-- A call with a connection asks, unless a cancellation was early. -/
theorem asks_iff (h : Ending early reached prepared exchange outcome phases)
    (hconnected : .heard .connected ∈ exchange) :
    (∃ request, .did (.query request) ∈ exchange) ↔ ¬early := by
  cases h with
  | noIdField | invalid violations | unplanned cause | refused plan cause h => simp at hconnected
  | turned plan h hclosing => simp [h]
  | failed plan hlate cause h hclosing => simp [hlate]
  | timedOut plan hlate limit hclosing => simp [hlate]
  | cancelled plan hlate h rows hclosing => simp [hlate]
  | completed plan hlate h rows hplan hclosing => simp [hlate]
  | refined plan hlate h rows hplan hclosing => simp [hlate]

/-- In the end a call is at rest. -/
theorem idle_mem (h : Ending early reached prepared exchange outcome phases) : .idle ∈ phases := by
  cases h <;> simp

/-- What is handed out says what the outcome is. -/
theorem reports (h : Ending early reached prepared exchange outcome phases) :
    QueryResult.Reports outcome (.ofOutcome outcome) := by
  have herror : ∀ e : ServiceError R,
      QueryResult.Reports (.error e) (.ofOutcome (.error e)) := by
    intro e
    cases e with
    | invalid cause =>
      cases cause with
      | invalid violations => exact .invalid violations
      | unresolved cause => exact .failure nofun
    | _ => exact .failure nofun
  cases h with
  | completed plan hlate h rows hplan hclosing => exact .success (nodup_eraseDups _)
  | refined plan hlate h rows hplan hclosing => exact .success (nodup_eraseDups _)
  | _ => exact herror _

end Ending

/-! ### Preparation -/

/-- With a column for identifiers, it is the predicate that cannot be planned. -/
theorem Plan.exists_cause_of_ofContract {contract : Contract R} {c : Context R}
    {settings : Settings} {idField : String} {e : PlanError R}
    (hid : c.serviceIdField = some idField) (h : ofContract contract c settings = .error e) :
    ∃ cause, e = .predicate cause := by
  rw [ofContract, hid] at h
  obtain ⟨cause, -, heq⟩ := mapError_eq_error_iff.mp h
  exact ⟨cause, heq.symm⟩

namespace Service

/-- What the preparation of a call comes to: a plan, or a reason not to turn to its engine. -/
inductive Prepares (s : Service R) (now : Instant) (q : SpatialQuery R) (c : Context R) :
    Except (ServiceError R) (Plan R) → Prop
  | noIdField (h : c.serviceIdField = none) : Prepares s now q c (.error (.plan .noIdField))
  | invalid (hid : c.serviceIdField ≠ none) (h : q.violations c ≠ []) :
    Prepares s now q c (.error (.invalid (.invalid (q.violations c))))
  | unplanned {contract : Contract R} {e : BuildError R} (hvalid : q.violations c = [])
    (hcontract : (s.contractFor now q c).1 = .ok contract)
    (h : Plan.ofContract contract c s.settings = .error (.predicate e)) :
    Prepares s now q c (.error (.plan (.predicate e)))
  | planned {contract : Contract R} {plan : Plan R} (hvalid : q.violations c = [])
    (hcontract : (s.contractFor now q c).1 = .ok contract)
    (h : Plan.ofContract contract c s.settings = .ok plan) : Prepares s now q c (.ok plan)

variable {s : Service R} {now : Instant} {q : SpatialQuery R} {c : Context R}

/-- There is a contract for every valid query. -/
theorem exists_contractFor (s : Service R) (now : Instant) (h : q.violations c = []) :
    ∃ contract, (s.contractFor now q c).1 = .ok contract := by
  rw [contractFor_fst]
  cases s.cache.find? (CacheKey.ofContext q.hash c) with
  | some contract => exact ⟨contract, rfl⟩
  | none =>
    obtain ⟨-, supplements, -, -, hcompile⟩ := SpatialQuery.exists_compile_of_violations h
    exact ⟨_, hcompile now⟩

/-- All that the start of a call can do: it ends there and then, as its preparation has it, or it
goes through all phases of the path and asks for a connection. -/
theorem start_cases (s : Service R) (now : Instant) (q : SpatialQuery R) (c : Context R) :
    (∃ e entered, s.Prepares now q c (.error e) ∧
      (∀ early reached, Ending early reached (.error e) [] (.error e) (entered ++ [.idle])) ∧
      (s.start now q c).call = .finished (.error e) ∧
      (s.start now q c).actions = entered.map .enter) ∨
    ∃ plan, s.Prepares now q c (.ok plan) ∧
      (s.start now q c).call = .connecting s.nextToken plan ∧
      (s.start now q c).actions = Phase.path.map .enter ++ [.connect] := by
  -- A call is prepared in the order of its phases, and each of them can end it.
  cases hid : c.serviceIdField with
  | none =>
    refine .inl ⟨_, [.failed], .noIdField hid, fun _ _ => .noIdField, ?_, ?_⟩ <;>
      rw [start, if_pos (by rw [hid]; rfl)] <;> rfl
  | some idField =>
    cases hvalid : q.violations c with
    | cons v vs =>
      refine .inl ⟨_, [.validating, .idle], .invalid (by simp [hid]) (by simp [hvalid]),
        fun _ _ => .invalid _, ?_, ?_⟩ <;>
        simp only [start, hid, enter, Step.after, hvalid] <;> rfl
    | nil =>
      obtain ⟨contract, hcontract⟩ := s.exists_contractFor now hvalid
      have hsettings : (s.contractFor now q c).2.settings = s.settings := by
        rw [contractFor_frame]
      cases hplan : Plan.ofContract contract c s.settings with
      | error e =>
        obtain ⟨cause, rfl⟩ := Plan.exists_cause_of_ofContract hid hplan
        refine .inl ⟨_, [.validating, .compiling, .buildingPredicate, .failed],
          .unplanned hvalid hcontract hplan, fun _ _ => .unplanned cause, ?_, ?_⟩ <;>
          simp only [start, hid, enter, Step.after, hvalid, contractFor_enter, hcontract,
            hsettings, hplan] <;> rfl
      | ok plan =>
        refine .inr ⟨plan, .planned hvalid hcontract hplan, ?_, ?_⟩
        · rw [start_eq_of_ofContract hvalid hcontract hplan]
        · rw [start_eq_of_ofContract hvalid hcontract hplan]
          rfl

/-- Preparation fails for one of three reasons. -/
theorem Prepares.error_iff {prepared : Except (ServiceError R) (Plan R)}
    (h : s.Prepares now q c prepared) :
    (∃ e, prepared = .error e) ↔ c.serviceIdField = none ∨ q.violations c ≠ [] ∨
      ∃ contract e, (s.contractFor now q c).1 = .ok contract ∧
        Plan.ofContract contract c s.settings = .error e := by
  cases h with
  | noIdField hid => simp [hid]
  | invalid hid hinvalid => simp [hinvalid]
  | unplanned hvalid hcontract hplan =>
    exact iff_of_true ⟨_, rfl⟩ (.inr (.inr ⟨_, _, hcontract, hplan⟩))
  | planned hvalid hcontract hplan =>
    refine iff_of_false (by simp) ?_
    obtain ⟨idField, -, hid, -, -⟩ := Plan.exists_realizes_of_ofContract hplan
    rintro (hnone | hinvalid | ⟨contract', e, hcontract', herror⟩)
    · cases hid.symm.trans hnone
    · exact hinvalid hvalid
    · obtain rfl := Except.ok.inj (hcontract.symm.trans hcontract')
      cases hplan.symm.trans herror

/-! ### The last step -/

/-- The phases in which the rows of a plan become a success. -/
def closing (plan : Plan R) : List Phase :=
  if plan.refinement.isSome then [.postFiltering, .completed] else [.completed]

/-- All that a call can do when it has left the slot: it fails as its rows have it, or as cancelled
if it finds its mark, or it reports its rows. -/
theorem judge_cases (s : Service R) (token : Token) (plan : Plan R)
    (rows : Except (ServiceError R) (List (Row R))) :
    (∃ e, (rows = .error e ∨ (∃ rows', rows = .ok rows') ∧ e = .cancelled ∧
        s.isMarked token = true) ∧
      (s.judge token plan rows).call = .finished (.error e) ∧
      (s.judge token plan rows).actions = [e.phase].map .enter) ∨
    ∃ rows', rows = .ok rows' ∧ s.isMarked token = false ∧
      (s.judge token plan rows).call = .finished (.ok (plan.reported rows')) ∧
      (s.judge token plan rows).actions = (closing plan).map .enter := by
  cases rows with
  | error e => exact .inl ⟨e, .inl rfl, rfl, rfl⟩
  | ok rows =>
    cases hmark : s.isMarked token with
    | true => exact .inl ⟨.cancelled, .inr ⟨⟨rows, rfl⟩, rfl, rfl⟩, by simp [judge, hmark, conclude,
        enter, Step.after], by simp [judge, hmark, conclude, enter, Step.after]⟩
    | false =>
      refine .inr ⟨rows, rfl, rfl, ?_⟩
      simp only [judge, hmark, Bool.false_eq_true, if_false]
      rw [report, Plan.reported, closing]
      cases plan.refinement <;> exact ⟨rfl, rfl⟩

end Service

end TransitQuery
