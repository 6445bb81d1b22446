import TransitQuery.Proofs.Service.Conversation
import TransitQuery.Proofs.Service.Undisturbed

/-!
# Calls that succeed

A call may be cancelled at any point, and its engine may fail or take too long. If it succeeds all
the same, then none of that made a difference: the query is valid and was planned, its table is
there, its predicate is decided on all rows of the table, and what the call reports is what its plan
answers for them (`Session.exists_plan_of_outcome`).

Nothing is assumed of the disturbances here; that the call succeeds is the assumption. Each of the
three answers of the engine either ends the call with a failure or takes it on, and the lemmas on
them keep the second case: the connection opened, the store answered, and its rows were kept when
the connection closed. A store answers only from a table that it has, and only if the predicate is
decided on every row of it (`Store.exists_rows_of_answer`).

So statements about calls that succeed, such as the comparison of the tiers and of radii, can be
made about plans and rows alone.
-/

namespace TransitQuery

variable {R : Type} [Scalar R]

/-- A store answers from a table of its own, on all rows of which the predicate is decided. -/
theorem Store.exists_rows_of_answer {s : Store R} {r : Request R} {found : List (Row R)}
    (h : s.answer r = .ok found) :
    ∃ rows, s.rows? r.table = some rows ∧ (∀ row ∈ rows, r.predicate.IsDecided row) ∧
      found = Row.distinct ((rows.filter r.predicate.accepts).map (Row.project r.columns)) := by
  unfold answer at h
  split at h
  · cases h
  rename_i rows hrows
  obtain ⟨kept, hkept, hfound⟩ := bind_eq_ok_iff.mp (mapError_eq_ok_iff.mp h)
  have hdecided : ∀ row ∈ rows, r.predicate.IsDecided row := by
    by_contra hundecided
    obtain ⟨cause, hcause⟩ := Predicate.filter_eq_error (by simpa using hundecided)
    cases hkept.symm.trans hcause
  obtain rfl := Except.ok.inj ((Predicate.filter_eq_ok hdecided).symm.trans hkept)
  exact ⟨rows, hrows, hdecided, (Except.ok.inj hfound).symm⟩

namespace Service

/-- Settling a call ends it, and only rows become a success. -/
theorem call_settle (s : Service R) (token : Token) (plan : Plan R)
    (rows : Except (ServiceError R) (List (Row R))) :
    (∃ e, (s.settle token plan rows).call = .finished (.error e)) ∨
      ∃ rows', rows = .ok rows' ∧
        (s.settle token plan rows).call = .finished (.ok (plan.reported rows')) := by
  cases rows with
  | error e => exact .inl ⟨e, rfl⟩
  | ok rows =>
    cases hmark : s.isMarked token with
    | true =>
      refine .inl ⟨.cancelled, ?_⟩
      rw [settle, isMarked_finish, hmark, if_pos rfl]
      rfl
    | false => exact .inr ⟨rows, rfl, call_settle_ok hmark plan rows⟩

end Service

namespace Session

variable {d : Disturbance} {s : Session R}

/-! ### The three answers -/

omit [Scalar R] in
private theorem store_cancelIf (s : Session R) (condition : Prop) [Decidable condition] :
    (s.cancelIf condition).store = s.store := by
  unfold cancelIf
  split <;> rfl

/-- Rows come from the store and from nowhere else. -/
theorem answer_of_rowsOf {r : Request R} {rows : List (Row R)}
    (h : Service.rowsOf (s.queryReply r d) = .ok rows) : s.store.answer r = .ok rows := by
  have hanswer : Service.rowsOf (s.answer r) = .ok rows → s.store.answer r = .ok rows := by
    intro h
    unfold answer at h
    cases hstore : s.store.answer r with
    | ok rows' =>
      rw [hstore] at h
      rw [Except.ok.inj h]
    | error cause =>
      rw [hstore] at h
      cases h
  unfold queryReply at h
  split at h
  · cases h
  · split at h
    · split at h
      · cases h
      · exact hanswer h
    · exact hanswer h
  · exact hanswer h

/-- A call that waits for its connection goes on to ask, or it comes to nothing. -/
theorem advance_connecting_cases (resting : Bool) (d : Disturbance) (s : Session R)
    (token : Token) (plan : Plan R) :
    ∃ t call, advance resting d (s, .connecting token plan) = (t, call) ∧
      (call = .querying token plan ∧ t.store = s.store ∨
        ∃ e, call = .closing token plan (.error e) ∨ call = .finished (.error e)) := by
  refine ⟨(advance resting d (s, .connecting token plan)).1,
    (advance resting d (s, .connecting token plan)).2, rfl, ?_⟩
  obtain ⟨t, hstore, hserve | ⟨cause, hserve⟩⟩ : ∃ t, t.store = s.store ∧
      (s.serveConnect d = (t, .connected) ∨ ∃ cause, s.serveConnect d = (t, .refused cause)) := by
    unfold serveConnect
    split
    · exact ⟨_, store_cancelIf .., .inr ⟨_, rfl⟩⟩
    · refine ⟨_, ?_, .inl rfl⟩
      exact store_cancelIf ..
  · simp only [advance, serve, hserve, Service.resume, call_apply, call_follow]
    rw [Service.ask]
    split
    · exact .inr ⟨.cancelled, .inl rfl⟩
    · exact .inl ⟨rfl, hstore⟩
  · simp only [advance, serve, hserve, Service.resume, call_apply, call_follow]
    exact .inr ⟨_, .inr rfl⟩

/-- A call that waits for its rows goes on to close its connection. Rows it has only if they are
what the store answers. -/
theorem advance_querying_cases (resting : Bool) (d : Disturbance) (s : Session R) (token : Token)
    (plan : Plan R) :
    ∃ t rows, advance resting d (s, .querying token plan) = (t, .closing token plan rows) ∧
      ∀ rows', rows = .ok rows' → s.store.answer plan.request = .ok rows' := by
  have hstore := store_cancelIf s (d = .cancelOnQuery)
  refine ⟨(advance resting d (s, .querying token plan)).1,
    Service.rowsOf ((s.cancelIf (d = .cancelOnQuery)).queryReply plan.request d),
    Prod.ext rfl ?_, fun rows' hrows => ?_⟩
  · simp only [advance, serve, serveQuery, Service.resume, call_apply, call_follow]
  · rw [← hstore]
    exact answer_of_rowsOf hrows

/-- A call that closes its connection ends, and only rows become a success. -/
theorem advance_closing_cases (resting : Bool) (d : Disturbance) (s : Session R) (token : Token)
    (plan : Plan R) (rows : Except (ServiceError R) (List (Row R))) :
    ∃ t outcome, advance resting d (s, .closing token plan rows) = (t, .finished outcome) ∧
      ((∃ e, outcome = .error e) ∨ ∃ rows', rows = .ok rows' ∧
        outcome = .ok (plan.reported rows')) := by
  obtain ⟨t, reply, hserve, hlast⟩ : ∃ t reply, s.serveClose d = (t, reply) ∧ reply.IsLast := by
    unfold serveClose
    split
    · exact ⟨_, _, rfl, trivial⟩
    · exact ⟨_, _, rfl, trivial⟩
  have hend : (advance resting d (s, .closing token plan rows)).2 =
      (t.service.settle token plan rows).call := by
    simp only [advance, serve, hserve, call_apply, call_follow]
    cases reply with
    | closed => rfl
    | closeFailed cause => rfl
    | _ => exact hlast.elim
  obtain ⟨e, hcall⟩ | ⟨rows', hrows, hcall⟩ := t.service.call_settle token plan rows
  · exact ⟨_, _, Prod.ext rfl (hend.trans hcall), .inl ⟨e, rfl⟩⟩
  · exact ⟨_, _, Prod.ext rfl (hend.trans hcall), .inr ⟨rows', hrows, rfl⟩⟩

/-! ### The whole call -/

/-- What has ended stays as it is. -/
theorem advance_finished (resting : Bool) (d : Disturbance) (s : Session R) (o : Outcome R) :
    advance resting d (s, .finished o) = (s, .finished o) := rfl

/-- A call that waits for its connection succeeds only with rows that the store answers. -/
theorem answer_of_complete {resting : Bool} {token : Token} {plan : Plan R} {ids : List String}
    (h : (complete resting d (s, .connecting token plan)).2 = .finished (.ok ids)) :
    ∃ rows, s.store.answer plan.request = .ok rows ∧ ids = plan.reported rows := by
  rw [complete] at h
  obtain ⟨s₁, call, hfirst, ⟨rfl, hstore⟩ | ⟨e, rfl | rfl⟩⟩ :=
    advance_connecting_cases resting d s token plan
  · obtain ⟨s₂, rows, hsecond, hanswer⟩ := advance_querying_cases resting d s₁ token plan
    obtain ⟨s₃, o, hthird, ⟨e, rfl⟩ | ⟨rows', rfl, rfl⟩⟩ :=
      advance_closing_cases resting d s₂ token plan rows
    · rw [hfirst, hsecond, hthird] at h
      cases h
    · rw [hfirst, hsecond, hthird] at h
      cases h
      exact ⟨rows', hstore ▸ hanswer rows' rfl, rfl⟩
  · -- a call without rows ends before the last answer
    obtain ⟨s₂, o, hsecond, ⟨e', rfl⟩ | ⟨rows', hrows, -⟩⟩ :=
      advance_closing_cases resting d s₁ token plan (.error e)
    · rw [hfirst, hsecond, advance_finished] at h
      cases h
    · cases hrows
  · rw [hfirst, advance_finished, advance_finished] at h
    cases h

/-- A call that has an outcome has come to its end with it. -/
private theorem complete_of_outcome {resting : Bool} {run : Session R × Call R} {o : Outcome R}
    (h : outcome resting d run = o) : (complete resting d run).2 = .finished o := by
  obtain ⟨o', ho'⟩ := Option.isSome_iff_exists.mp (isSome_outcome_complete resting d run)
  unfold Call.outcome? at ho'
  split at ho'
  · rename_i o'' hend
    rw [hend, ← h, outcome_eq_of_complete hend]
  · cases ho'

/-- The start of a call leaves the store alone. -/
theorem start_eq (s : Session R) (resting : Bool) (now : Instant) (q : SpatialQuery R)
    (c : Context R) :
    ∃ t, t.store = s.store ∧ s.start resting now q c = (t, (s.service.start now q c).call) := by
  refine ⟨(s.start resting now q c).1, rfl, Prod.ext rfl ?_⟩
  rw [start, call_apply, call_follow]

/-- What there is to a call that succeeds. -/
theorem exists_plan_of_outcome {resting : Bool} {now : Instant} {q : SpatialQuery R}
    {c : Context R} {ids : List String}
    (h : outcome resting d (s.start resting now q c) = .ok ids) :
    ∃ contract plan rows, q.violations c = [] ∧
      (s.service.contractFor now q c).1 = .ok contract ∧
      Plan.ofContract contract c s.service.settings = .ok plan ∧
      s.store.rows? plan.request.table = some rows ∧
      (∀ row ∈ rows, plan.request.predicate.IsDecided row) ∧ ids = plan.answered rows := by
  have hend := complete_of_outcome h
  obtain ⟨t, hstore, hstart⟩ := s.start_eq resting now q c
  rw [hstart] at hend
  obtain ⟨e, entered, -, -, hcall, -⟩ | ⟨plan, hprepares, hcall, -⟩ := s.service.start_cases now q c
  · rw [hcall, complete, advance_finished, advance_finished, advance_finished] at hend
    cases hend
  · rw [hcall] at hend
    obtain ⟨found, hanswer, rfl⟩ := answer_of_complete hend
    obtain ⟨rows, hrows, hdecided, rfl⟩ := Store.exists_rows_of_answer hanswer
    cases hprepares with
    | planned hvalid hcontract hplan =>
      exact ⟨_, plan, rows, hvalid, hcontract, hplan, hstore ▸ hrows, hdecided, rfl⟩

end Session

end TransitQuery
