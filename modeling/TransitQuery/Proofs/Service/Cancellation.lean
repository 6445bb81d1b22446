import Mathlib.Data.List.Induction
import TransitQuery.Proofs.Service.Tokens
import TransitQuery.Scalar.Double

/-!
# What a cancelled call comes to

A call that a cancellation has reached does not succeed. It ends as cancelled unless its engine has
failed it: a refused connection, a failed query and a query that takes too long are reported in
place of the cancellation, also when the cancellation came first
(`Traffic.result_of_reaches`, `Traffic.reports_failure_of_cancelled`).

The engine may answer as it likes, at each step by anything that the call waits for (`Engine`), and
any other events may happen in between. Two facts are established for such runs.

* `Traffic.ended_of_pursuit`: the call comes to its end in a bounded number of its own steps
  (`Stage.remaining`).
* `Traffic.hasFailed_run`: that the engine is why it fails (`Traffic.HasFailed`) is known from the
  events of the run, namely just if one of them was an answer that fails the call. A cancellation
  by the engine itself is not counted as a failure.

A call that has been reached and has not failed finds its mark when it has left the slot. A failed
one keeps its failure, whenever the cancellation came, because the error of the engine is handed on
before the mark is looked at. The texts of the two outcomes differ
(`ServiceError.message_ne_cancelled`), so the caller can tell them apart.
-/

namespace TransitQuery

variable {R : Type}

/-! ### Failures of the engine -/

/-- An answer by which the engine fails a call, other than by a cancellation of its own. A
connection that does not close is none. -/
def Call.FailsBy : Call R → Reply R → Prop
  | connecting _ _, .refused e | querying _ _, .answered (.failed e) => e ≠ .cancelled
  | querying _ _, .answered (.timedOut _) => True
  | _, _ => False

/-- An answer that a call waits for. -/
def Call.Awaits : Call R → Reply R → Prop
  | connecting _ _, .connected | connecting _ _, .refused _ => True
  | querying _ _, .answered _ => True
  | closing _ _ _, .closed | closing _ _ _, .closeFailed _ => True
  | _, _ => False

/-- An engine, by its answers. Each is one that the call waits for. -/
structure Engine (R : Type) where
  answer : Call R → Reply R
  awaited : ∀ call : Call R, call.token?.isSome → call.Awaits (answer call)

/-- An engine that opens and closes each connection, and answers each query alike. -/
def Engine.ofReply (reply : QueryReply R) : Engine R where
  answer
    | .connecting _ _ => .connected
    | .querying _ _ => .answered reply
    | _ => .closed
  awaited call h := by
    cases call with
    | finished outcome => cases h
    | _ => trivial

namespace Stage

/-- The engine is why the call fails, as far as it is known. -/
def HasFailed (stage : Stage R) : Prop :=
  ∃ e, stage.error? = some e ∧ e ≠ .cancelled

/-- The step that a call takes next. -/
def next (engine : Engine R) : Stage R → Journey.Move R
  | waiting call => .reply (engine.answer call)
  | returned _ _ => .release
  | released _ _ | ended _ => .judge

/-- How many steps a call still takes. -/
def remaining : Stage R → Nat
  | waiting call => call.remaining + 2
  | returned _ _ => 2
  | released _ _ => 1
  | ended _ => 0

/-- A call takes at most five more steps. -/
theorem remaining_le (stage : Stage R) : stage.remaining ≤ 5 := by
  cases stage with
  | waiting call => exact Nat.add_le_add_right call.remaining_le 2
  | _ => simp [remaining]

/-- A call that has just begun takes two more than it has answers to come. -/
private theorem remaining_ofCall_le (call : Call R) :
    (ofCall call).remaining ≤ call.remaining + 2 := by
  cases call with
  | finished outcome => exact Nat.zero_le _
  | _ => exact le_rfl

end Stage

variable [Scalar R]

/-- No failure of the engine has the wording of a cancellation: the seventh letter differs. -/
theorem ServiceError.message_ne_cancelled {e : ServiceError R} (h : e ≠ .cancelled) :
    e.message ≠ (cancelled : ServiceError R).message := by
  -- Only the wording of a cancellation has a `c` for its seventh letter. The other wordings start
  -- with a fixed text that is long enough to tell.
  have hstart : ∀ (p t : String) (c : Char), p.toList[6]? = some c →
      (p ++ t).toList[6]? = some c := by
    intro p t c hp
    obtain ⟨hlength, -⟩ := List.getElem?_eq_some_iff.mp hp
    rw [String.toList_append, List.getElem?_append_left hlength, hp]
  have hcancelled : (cancelled : ServiceError R).message.toList[6]? = some 'c' := by
    change "query cancelled".toList[6]? = some 'c'
    decide
  intro heq
  rw [← heq] at hcancelled
  cases e with
  | invalid cause =>
    cases cause with
    | invalid violations =>
      have hletter := (hstart "invalid query: "
        (Text.joined "; " (violations.map Violation.message)) 'd' (by decide)).symm.trans hcancelled
      exact absurd hletter (by decide)
    | unresolved cause =>
      have hletter :=
        (hstart "compile error: " cause.message 'e' (by decide)).symm.trans hcancelled
      exact absurd hletter (by decide)
  | plan cause =>
    cases cause with
    | noIdField =>
      change
        "context error: execution context has no serviceIdField to report matches by".toList[6]? =
          some 'c' at hcancelled
      exact absurd hcancelled (by decide)
    | predicate cause =>
      have hletter :=
        (hstart "predicate error: " cause.message 'a' (by decide)).symm.trans hcancelled
      exact absurd hletter (by decide)
  | backend cause =>
    have hletter := (hstart "backend error: " cause.message 'd' (by decide)).symm.trans hcancelled
    exact absurd hletter (by decide)
  | cancelled => exact h rfl
  | timedOut limit =>
    have hletter :=
      (hstart "query timed out after " limit.toText 't' (by decide)).symm.trans hcancelled
    exact absurd hletter (by decide)

/-- So it is not reported like a cancellation. -/
theorem QueryResult.ofOutcome_ne_cancelled {e : ServiceError R} (h : e ≠ .cancelled) :
    QueryResult.ofOutcome (.error e) ≠ .failure "query cancelled" := by
  intro heq
  have hmessage := ServiceError.message_ne_cancelled h
  cases e with
  | invalid cause =>
    cases cause with
    | invalid violations => cases congrArg QueryResult.errors heq
    | unresolved cause => exact hmessage (Option.some.inj (congrArg QueryResult.error heq))
  | _ => exact hmessage (Option.some.inj (congrArg QueryResult.error heq))

private theorem QueryResult.success_ofOutcome_error (e : ServiceError R) :
    (QueryResult.ofOutcome (.error e)).success = false := by
  cases e with
  | invalid cause => cases cause <;> rfl
  | _ => rfl

namespace Journey

variable {s t : Service R} {token : Token} {m : Journey.Move R} {stage stage' : Stage R}
  {actions : List (Action R)}

/-- A call is failed by an answer of its engine, and by nothing else. -/
theorem Goes.hasFailed_iff (h : Goes s token stage m t stage' actions) :
    stage'.HasFailed ↔ stage.HasFailed ∨
      ∃ call r, stage = .waiting call ∧ m = .reply r ∧ call.FailsBy r := by
  cases h with
  | asks plan h => simp [Stage.HasFailed, Stage.error?, Call.FailsBy]
  | turns plan h => simp [Stage.HasFailed, Stage.error?, Call.FailsBy]
  | refused plan cause => simp [Stage.HasFailed, Stage.error?, Call.FailsBy]
  | answered plan r =>
    cases r <;> simp [Stage.HasFailed, Stage.error?, Call.FailsBy, Service.rowsOf]
  | closed plan rows r h =>
    cases rows <;> simp [Stage.HasFailed, Stage.error?, Call.FailsBy]
  | releases plan rows => cases rows <;> simp [Stage.HasFailed, Stage.error?]
  | ends plan rows ht h =>
    cases rows with
    | error e => simp [Stage.HasFailed, Stage.error?, Service.verdict]
    | ok rows =>
      cases hmark : s.isMarked token <;>
        simp [Stage.HasFailed, Stage.error?, Service.verdict, hmark]

/-- An answer that a call waits for takes it on its way. -/
theorem exists_move_of_awaits {call : Call R} {r : Reply R} (h : call.Awaits r) (s : Service R)
    (token : Token) :
    ∃ t stage actions, (⟨token, .waiting call⟩ : Journey R).move s (.reply r) =
      some (t, stage, actions) ∧ stage.remaining < call.remaining + 2 := by
  unfold Call.Awaits at h
  split at h
  · rename_i token' plan
    refine ⟨_, _, _, rfl, ?_⟩
    calc (Stage.ofCall (s.ask token' plan).call).remaining
      _ ≤ (s.ask token' plan).call.remaining + 2 := Stage.remaining_ofCall_le _
      _ ≤ 4 := Nat.add_le_add_right (s.remaining_ask token' plan) 2
      _ < 5 := Nat.lt_succ_self 4
  · exact ⟨_, _, _, rfl, (by decide : 2 < 5)⟩
  · exact ⟨_, _, _, rfl, (by decide : 3 < 4)⟩
  · exact ⟨_, _, _, rfl, (by decide : 2 < 3)⟩
  · exact ⟨_, _, _, rfl, (by decide : 2 < 3)⟩
  · exact h.elim

/-- A call that is not over goes on, however its engine answers. -/
theorem exists_move_next {j : Journey R} (hj : j.HasToken) (engine : Engine R) (s : Service R) :
    (∃ outcome, j.stage = .ended outcome) ∨
      ∃ t stage actions, j.move s (j.stage.next engine) = some (t, stage, actions) ∧
        stage.remaining < j.stage.remaining := by
  obtain ⟨token, stage⟩ := j
  cases stage with
  | ended outcome => exact .inl ⟨outcome, rfl⟩
  | released plan rows =>
    obtain ⟨hcall, -, -⟩ := s.judge_shape token plan rows
    refine .inr ⟨_, _, _, rfl, ?_⟩
    rw [hcall]
    exact Nat.lt_succ_self 0
  | returned plan rows => exact .inr ⟨_, _, _, rfl, Nat.lt_succ_self 1⟩
  | waiting call =>
    have htoken : call.token?.isSome := by
      rw [hj call rfl]
      rfl
    exact .inr (exists_move_of_awaits (engine.awaited call htoken) s token)

end Journey

namespace Traffic

/-- The engine is why the call with a number fails, as far as it is known. -/
def HasFailed (w : Traffic R) (i : Nat) : Prop :=
  ∃ j, w.journeys[i]? = some j ∧ j.stage.HasFailed

/-- In an event, the engine fails the call with a number. -/
def FailsIn (w : Traffic R) (i : Nat) (event : Event R) : Prop :=
  ∃ j call r, w.journeys[i]? = some j ∧ j.stage = .waiting call ∧
    event = .move i (.reply r) ∧ call.FailsBy r

/-- During a run, the engine failed the call with a number. -/
def EngineFails (w : Traffic R) (events : List (Event R)) (i : Nat) : Prop :=
  w.Meets events fun w event => w.FailsIn i event

/-- A step of a call takes it to its new stage. -/
private theorem getElem?_step_of_move {w : Traffic R} {i : Nat} {j : Journey R} {m : Journey.Move R}
    {t : Service R} {stage : Stage R} {actions : List (Action R)} (hj : w.journeys[i]? = some j)
    (hmove : j.move w.service m = some (t, stage, actions)) :
    (w.step (.move i m)).journeys[i]? = some ⟨j.token, stage⟩ := by
  obtain ⟨hi, -⟩ := List.getElem?_eq_some_iff.mp hj
  simp only [step, hj, hmove]
  exact List.getElem?_set_self hi

/-- A call that its engine fails in an event has failed then. -/
theorem FailsIn.hasFailed {w : Traffic R} {i : Nat} {event : Event R} (h : w.FailsIn i event) :
    (w.step event).HasFailed i := by
  obtain ⟨⟨token, stage⟩, call, r, hj, rfl, rfl, hfails⟩ := h
  have hmove : ∃ t stage actions, (⟨token, .waiting call⟩ : Journey R).move w.service (.reply r) =
      some (t, stage, actions) ∧ stage.HasFailed := by
    unfold Call.FailsBy at hfails
    split at hfails
    · exact ⟨_, _, _, rfl, _, rfl, hfails⟩
    · exact ⟨_, _, _, rfl, _, rfl, hfails⟩
    · exact ⟨_, _, _, rfl, _, rfl, nofun⟩
    · exact hfails.elim
  obtain ⟨t, stage, actions, hmove, hfailed⟩ := hmove
  exact ⟨⟨token, stage⟩, getElem?_step_of_move hj hmove, hfailed⟩

/-- A failure stays, and comes only by an answer of the engine. -/
theorem hasFailed_step {w : Traffic R} (h : w.IsSound) (event : Event R) (i : Nat) :
    (w.step event).HasFailed i ↔ w.HasFailed i ∨ w.FailsIn i event := by
  rcases journey_step h.hasToken event i with hsame | ⟨plan, token, rfl, hnone, hnew⟩ |
    ⟨m, j, t, stage, actions, rfl, hj, hgoes, hnew⟩
  · have hiff : (w.step event).HasFailed i ↔ w.HasFailed i := by
      rw [HasFailed, hsame, HasFailed]
    rw [hiff]
    exact (or_iff_left_of_imp fun hfails => hiff.mp hfails.hasFailed).symm
  · simp [HasFailed, FailsIn, hnone, hnew, Stage.HasFailed, Stage.error?]
  · have hbefore : w.HasFailed i ↔ j.stage.HasFailed := by simp [HasFailed, hj]
    have hafter : (w.step (.move i m)).HasFailed i ↔ stage.HasFailed := by simp [HasFailed, hnew]
    have hfails : w.FailsIn i (.move i m) ↔
        ∃ call r, j.stage = .waiting call ∧ m = .reply r ∧ call.FailsBy r := by
      simp [FailsIn, hj]
    rw [hafter, hbefore, hfails]
    exact hgoes.hasFailed_iff

/-- In the end a call has failed just if its engine failed it on the way. -/
private theorem hasFailed_run (settings : Settings) (events : List (Event R)) (i : Nat) :
    ((ofSettings settings).run events).HasFailed i ↔
      (ofSettings settings).EngineFails events i := by
  induction events using List.reverseRecOn with
  | nil => simp [EngineFails, Meets, run, ofSettings, HasFailed]
  | append_singleton events event ih =>
    rw [EngineFails, meets_concat, ← EngineFails, ← ih, run_append]
    exact hasFailed_step (isSound_run settings events) event i

/-- The next steps of a call, as many as are asked for. -/
def pursuit (engine : Engine R) (i : Nat) : Nat → Traffic R → List (Event R)
  | 0, _ => []
  | n + 1, w =>
    match w.journeys[i]? with
    | none => []
    | some j =>
      let event := .move i (j.stage.next engine)
      event :: pursuit engine i n (w.step event)

/-- Every call comes to its end, however its engine answers. -/
theorem ended_of_pursuit (engine : Engine R) {w : Traffic R} (hw : w.IsSound) {i n : Nat}
    {j : Journey R} (hj : w.journeys[i]? = some j) (hn : j.stage.remaining ≤ n) :
    ∃ outcome, (w.run (w.pursuit engine i n)).journeys[i]? = some ⟨j.token, .ended outcome⟩ := by
  -- On what the call may still wait for: each event of the pursuit takes it one stage further.
  induction n generalizing w j with
  | zero =>
    obtain ⟨token, stage⟩ := j
    cases stage with
    | ended outcome => exact ⟨outcome, hj⟩
    | _ => exact absurd hn (Nat.not_succ_le_zero _)
  | succ n ih =>
    have hrun : w.run (w.pursuit engine i (n + 1)) =
        (w.step (.move i (j.stage.next engine))).run
          ((w.step (.move i (j.stage.next engine))).pursuit engine i n) := by
      rw [pursuit, hj]
      rfl
    rw [hrun]
    rcases Journey.exists_move_next (hw.hasToken j (List.mem_of_getElem? hj)) engine w.service with
      ⟨outcome, hended⟩ | ⟨t, stage, actions, hmove, hlt⟩
    · -- a call that is over stays as it is
      have hmove : j.move w.service (j.stage.next engine) = none := by
        simp [hended, Stage.next, Journey.move]
      have hstay : w.step (.move i (j.stage.next engine)) = w := by
        simp only [step, hj, hmove]
      rw [hstay]
      exact ih hw hj (by simp [hended, Stage.remaining])
    · have hstep := getElem?_step_of_move hj hmove
      exact ih (j := ⟨j.token, stage⟩) (isSound_step hw _) hstep
        (Nat.le_of_lt_succ (hlt.trans_le hn))

/-- A call that a cancellation has reached comes to an end, and fails. It is reported as cancelled
if and only if its engine has not failed it. -/
theorem result_of_reaches (settings : Settings) (events : List (Event R)) (i : Nat)
    (hreach : (ofSettings settings).Reaches events i) :
    (∀ engine : Engine R, ∃ (token : Token) (outcome : Outcome R),
      ((ofSettings settings).run (events ++
        ((ofSettings settings).run events).pursuit engine i 5)).journeys[i]? =
          some ⟨token, .ended outcome⟩) ∧
    ∀ (token : Token) (outcome : Outcome R),
      ((ofSettings settings).run events).journeys[i]? = some ⟨token, .ended outcome⟩ →
        (QueryResult.ofOutcome outcome).success = false ∧
        (QueryResult.ofOutcome outcome = .failure "query cancelled" ↔
          ¬(ofSettings settings).EngineFails events i) := by
  have h := isSound_run settings events
  -- Reaching a call is marking its token, and a marked call returns no identifiers.
  have hmark := (isMarked_run settings events i).mpr hreach
  constructor
  · intro engine
    have hj := List.getElem?_eq_getElem (h.marked_lt i hmark)
    obtain ⟨outcome, hended⟩ := ended_of_pursuit engine h hj (Stage.remaining_le _)
    exact ⟨_, outcome, by rw [run_append, hended]⟩
  · intro token outcome hj
    cases outcome with
    | ok ids =>
      have hunmarked := h.agreesWith i _ hj ids rfl
      rw [hmark] at hunmarked
      cases hunmarked
    | error e =>
      have hfailed : (ofSettings settings).EngineFails events i ↔ e ≠ .cancelled := by
        rw [← hasFailed_run, HasFailed, hj]
        simp [Stage.HasFailed, Stage.error?]
      refine ⟨QueryResult.success_ofOutcome_error e, ?_⟩
      rw [hfailed]
      by_cases hcancelled : e = .cancelled
      · rw [hcancelled]
        exact iff_of_true rfl (not_not_intro rfl)
      · exact iff_of_false (QueryResult.ofOutcome_ne_cancelled hcancelled)
          (not_not_intro hcancelled)

/-- A call that is cancelled while its engine is at its query, and what the engine answers then. -/
def cancelledAtQuery (reply : QueryReply Float) : List (Event Float) :=
  let before : List (Event Float) :=
    [.begin ⟨.bbox, ⟨"routes", "id", none, [], .always⟩, none⟩,
      .move 0 (.reply .connected), .cancel]
  before ++ ((ofSettings Settings.default).run before).pursuit (Engine.ofReply reply) 0 5

private theorem reaches_cancelledAtQuery (reply : QueryReply Float) :
    (ofSettings Settings.default).Reaches (cancelledAtQuery reply) 0 :=
  ⟨[_, _], .cancel, _, rfl, rfl, rfl, _, rfl, trivial⟩

/-- Rows that arrive after the cancellation are not reported. -/
theorem result_of_reaches_sample :
    (ofSettings Settings.default).Reaches (cancelledAtQuery (.rows [])) 0 ∧
      ((ofSettings Settings.default).run (cancelledAtQuery (.rows []))).journeys[0]? =
        some ⟨0, .ended (.error .cancelled)⟩ ∧
      ¬(ofSettings Settings.default).EngineFails (cancelledAtQuery (.rows [])) 0 := by
  have hreach := reaches_cancelledAtQuery (.rows [])
  have hended : ((ofSettings Settings.default).run (cancelledAtQuery (.rows []))).journeys[0]? =
      some ⟨0, .ended (.error .cancelled)⟩ := rfl
  obtain ⟨-, hresult⟩ := result_of_reaches Settings.default (cancelledAtQuery (.rows [])) 0 hreach
  exact ⟨hreach, hended, (hresult 0 _ hended).2.mp rfl⟩

/-- A query that fails after the cancellation is reported, and the cancellation is not. -/
theorem reports_failure_of_cancelled :
    (ofSettings Settings.default).Reaches
        (cancelledAtQuery (.failed (.backend (.noTable "routes")))) 0 ∧
      ∃ outcome : Outcome Float,
        ((ofSettings Settings.default).run
          (cancelledAtQuery (.failed (.backend (.noTable "routes"))))).journeys[0]? =
            some ⟨0, .ended outcome⟩ ∧
        QueryResult.ofOutcome outcome = .failure "backend error: no such table: routes" ∧
        QueryResult.ofOutcome outcome ≠ .failure "query cancelled" := by
  have hresult : QueryResult.ofOutcome (.error (.backend (.noTable "routes")) : Outcome Float) =
      .failure "backend error: no such table: routes" := by decide
  refine ⟨reaches_cancelledAtQuery _, _, rfl, hresult, fun heq => ?_⟩
  exact absurd (hresult.symm.trans heq) (by decide)

end Traffic

end TransitQuery
