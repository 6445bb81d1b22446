import Mathlib.Data.List.TakeWhile
import TransitQuery.Proofs.Service.Ending

/-!
# What passes between a call and its engine

A call is followed from its start to its end, amid whatever else happens to its service: other
calls, cancellations at any point, and an engine that answers as it likes. A `Conversation` is the
call with what has been noted of it by then, and an `Incident` takes it further: the call takes its
next step, a cancellation comes, or the service is changed by anything else.

The protocol is `Conversation.KeepsProtocol`. Its fields speak of the notes alone. What has passed
by now is the beginning of one of the four exchanges, and it is nothing at all just if the context
has no column for identifiers, the query is not valid or its contract cannot be planned. Over an
open connection the call asks unless a cancellation was there before. Every call comes to an end,
and then it ends as `Ending` has it for its preparation, for what its engine replied and for the
cancellations that reached it: with this outcome, and by these phases.
`Conversation.keepsProtocol_run` shows that every call keeps to it, on whatever service it starts
and whatever happens meanwhile.

The proof is an induction over the incidents. Its invariant, `Conversation.Keeps`, ties the marks
of the service to the cancellations that were noted, and the stage of the call to what has passed
by then (`Course`). Two moments cut the notes: when the connection opened (`Conversation.opening`),
for the first look at the mark, and when the outcome was settled (`Conversation.pending`), for the
second. What comes later does not count for either.
-/

namespace TransitQuery

variable {R : Type}

/-- What happens while a call goes on. -/
inductive Incident (R : Type) where
  /-- The call takes its next step, with an answer of some engine if it waits for one. -/
  | proceed (engine : Engine R)
  | cancel
  /-- Whatever else happens to a service removes no mark, and marks no call. -/
  | turn (service : Service R)

/-- A call amid what happens to its service. -/
structure Conversation (R : Type) where
  service : Service R
  journey : Journey R
  notes : List (Note R)

/-! ### Notes -/

/-- Whether the outcome of a call is settled by the time it enters a phase. -/
def Phase.isSettled : Phase → Bool
  | idle | postFiltering | completed | failed => true
  | validating | compiling | buildingPredicate | executing => false

namespace Note

/-- Whether a note is about the engine. -/
def isExchanged : Note R → Bool
  | did (.enter _) | reached => false
  | _ => true

/-- The phase that a call enters. -/
def phase? : Note R → Option Phase
  | did (.enter phase) => some phase
  | _ => none

/-- Entering phases is nothing to the engine. -/
theorem filter_isExchanged_entered (entered : List Phase) :
    (entered.map fun phase => (did (.enter phase) : Note R)).filter isExchanged = [] := by
  refine List.filter_eq_nil_iff.mpr fun n hn => ?_
  obtain ⟨phase, -, rfl⟩ := List.mem_map.mp hn
  exact Bool.false_ne_true

private theorem filterMap_phase?_entered (entered : List Phase) :
    (entered.map fun phase => (did (.enter phase) : Note R)).filterMap phase? = entered := by
  rw [List.filterMap_map]
  exact List.filterMap_some

/-- Whether a connection opens. -/
def opens : Note R → Bool
  | heard .connected => true
  | _ => false

/-- Whether the outcome of the call is settled. -/
def settles : Note R → Bool
  | did (.enter phase) => phase.isSettled
  | _ => false

/-- The note of the answer by which a step is taken. -/
def ofMove : Journey.Move R → List (Note R)
  | .reply r => [heard r]
  | _ => []

/-- What is noted up to some moment. -/
def before (moment : Note R → Bool) (notes : List (Note R)) : List (Note R) :=
  notes.takeWhile fun n => !moment n

variable {moment : Note R → Bool} {n : Note R} {notes : List (Note R)}

/-- Once the moment has come, what was noted before stays the same. -/
theorem before_append_of_mem (h : n ∈ notes) (hn : moment n = true) (more : List (Note R)) :
    before moment (notes ++ more) = before moment notes := by
  rw [before, List.takeWhile_append, if_neg, before]
  intro hlength
  have hall := List.takeWhile_eq_self_iff.mp ((List.takeWhile_prefix _).eq_of_length hlength)
  simpa [hn] using hall n h

/-- Until then, all notes are from before. -/
theorem before_append_cons (h : ∀ n ∈ notes, moment n = false) (hn : moment n = true)
    (more : List (Note R)) : before moment (notes ++ n :: more) = notes := by
  have hall : notes.takeWhile (fun n => !moment n) = notes :=
    List.takeWhile_eq_self_iff.mpr fun n hn => by rw [h n hn]; rfl
  rw [before, List.takeWhile_append, if_pos (by rw [hall]),
    List.takeWhile_cons_of_neg (by simp [hn]), List.append_nil]

end Note

namespace Conversation

/-- What has passed between the call and its engine. -/
def exchange (w : Conversation R) : List (Note R) :=
  w.notes.filter Note.isExchanged

/-- The phases that the call has entered. -/
def phases (w : Conversation R) : List Phase :=
  w.notes.filterMap Note.phase?

/-- What was noted before the connection opened. -/
def opening (w : Conversation R) : List (Note R) :=
  Note.before Note.opens w.notes

/-- What was noted before the outcome was settled. -/
def pending (w : Conversation R) : List (Note R) :=
  Note.before Note.settles w.notes

/-- An exchange is made of the notes about the engine. -/
private theorem mem_exchange {w : Conversation R} {n : Note R} :
    n ∈ w.exchange ↔ n ∈ w.notes ∧ n.isExchanged = true :=
  List.mem_filter

/-- A phase that the call has entered is noted. -/
theorem mem_phases {w : Conversation R} {phase : Phase} :
    phase ∈ w.phases ↔ .did (.enter phase) ∈ w.notes := by
  rw [phases, List.mem_filterMap]
  constructor
  · rintro ⟨n, hn, hphase⟩
    unfold Note.phase? at hphase
    split at hphase
    · cases hphase
      exact hn
    · cases hphase
  · exact fun h => ⟨_, h, rfl⟩

/-- Until its outcome is settled, a call has entered no phase in which it is. -/
theorem settles_eq_false {w : Conversation R} (h : w.phases = Phase.path) :
    ∀ n ∈ w.notes, n.settles = false := by
  intro n hn
  unfold Note.settles
  split
  · rename_i phase
    have hpath : ∀ phase ∈ Phase.path, phase.isSettled = false := by decide
    exact hpath phase (h ▸ mem_phases.mpr hn)
  · rfl

/-- Once the connection is open, its opening stays as it was. -/
theorem before_opens_append {w : Conversation R} (h : .heard .connected ∈ w.exchange)
    (more : List (Note R)) : Note.before Note.opens (w.notes ++ more) = w.opening := by
  have hopens : (.heard .connected : Note R).opens = true := rfl
  exact Note.before_append_of_mem (mem_exchange.mp h).1 hopens more

/-- Once the call is at rest, nothing is pending any more. -/
theorem before_settles_append {w : Conversation R} (h : .idle ∈ w.phases)
    (more : List (Note R)) : Note.before Note.settles (w.notes ++ more) = w.pending := by
  have hsettles : (.did (.enter .idle) : Note R).settles = true := rfl
  exact Note.before_append_of_mem (mem_phases.mp h) hsettles more

/-- Leaves the phase in which the call ended, if it has. -/
def rest (w : Conversation R) : Conversation R :=
  match w.journey.stage with
  | .ended _ =>
    { w with
      service := { w.service with phase := .idle }
      notes := w.notes ++ [.did (.enter .idle)] }
  | _ => w

private theorem journey_rest (w : Conversation R) : (rest w).journey = w.journey := by
  unfold rest
  split <;> rfl

end Conversation

/-! ### What has passed on the way -/

/-- What has passed when a call closes its connection, and what the call has by then. Whether it
asked depends on whether a cancellation was there early, before the connection opened. -/
inductive Closes (request : Request R) (early : Prop) :
    List (Note R) → Except (ServiceError R) (List (Row R)) → Prop
  | turned (hearly : early) :
    Closes request early [.did .connect, .heard .connected, .did .close] (.error .cancelled)
  | asked (reply : QueryReply R) (hlate : ¬early) :
    Closes request early [.did .connect, .heard .connected, .did (.query request),
      .heard (.answered reply), .did .close] (Service.rowsOf reply)

/-- What has passed when the engine is done with a call, and what the call has then. -/
inductive Returns (request : Request R) (early : Prop) :
    List (Note R) → Except (ServiceError R) (List (Row R)) → Prop
  | refused (cause : ServiceError R) :
    Returns request early [.did .connect, .heard (.refused cause)] (.error cause)
  | closed {exchange : List (Note R)} {rows : Except (ServiceError R) (List (Row R))}
    (h : Closes request early exchange rows) {last : Reply R} (hlast : last.IsLast) :
    Returns request early (exchange ++ [.heard last]) rows

variable {early early' reached reached' : Prop} {request : Request R} {exchange : List (Note R)}
  {rows : Except (ServiceError R) (List (Row R))}

private theorem Closes.connected_mem (h : Closes request early exchange rows) :
    .heard .connected ∈ exchange := by
  cases h <;> simp

theorem Closes.congr (h : Closes request early exchange rows) (heq : early ↔ early') :
    Closes request early' exchange rows := by
  cases h with
  | turned hearly => exact .turned (heq.mp hearly)
  | asked reply hlate => exact .asked reply fun h => hlate (heq.mpr h)

/-- That matters only where the connection opened. -/
theorem Returns.congr (h : Returns request early exchange rows)
    (heq : .heard .connected ∈ exchange → (early ↔ early')) :
    Returns request early' exchange rows := by
  cases h with
  | refused cause => exact .refused cause
  | closed h hlast =>
    exact .closed (h.congr (heq (List.mem_append_left _ h.connected_mem))) hlast

theorem Returns.ne_nil (h : Returns request early exchange rows) : exchange ≠ [] := by
  cases h <;> simp

/-- The call has asked unless a cancellation was early. -/
theorem Closes.asks_iff (h : Closes request early exchange rows) :
    (∃ request, .did (.query request) ∈ exchange) ↔ ¬early := by
  cases h with
  | turned hearly => simp [hearly]
  | asked reply hlate => simp [hlate]

theorem Returns.asks_iff (h : Returns request early exchange rows)
    (hconnected : .heard .connected ∈ exchange) :
    (∃ request, .did (.query request) ∈ exchange) ↔ ¬early := by
  cases h with
  | refused cause => simp at hconnected
  | closed h hlast =>
    rw [← h.asks_iff]
    simp

/-- What has passed is a whole exchange. -/
theorem Returns.isExchange (h : Returns request early exchange rows) : IsExchange exchange := by
  cases h with
  | refused cause => exact .refused cause
  | closed h hlast =>
    cases h with
    | turned hearly => exact .turned hlast
    | asked reply hlate => exact .asked request reply hlast

/-- Rows are what the engine answered. -/
theorem Returns.exists_of_ok {rows : List (Row R)}
    (h : Returns request early exchange (.ok rows)) :
    ¬early ∧ ∃ last : Reply R, last.IsLast ∧ exchange = [.did .connect, .heard .connected,
      .did (.query request), .heard (.answered (.rows rows)), .did .close, .heard last] := by
  generalize hrows : (Except.ok rows : Except (ServiceError R) (List (Row R))) = result at h
  cases h with
  | refused cause => cases hrows
  | @closed _ _ h last hlast =>
    cases h with
    | turned hearly => cases hrows
    | asked reply hlate =>
      cases reply with
      | rows rows' =>
        cases hrows
        exact ⟨hlate, last, hlast, rfl⟩
      | failed cause => cases hrows
      | timedOut limit => cases hrows

/-! ### What an engine answers -/

namespace Engine

/-- An engine opens a connection or refuses it. -/
private theorem answer_connecting (engine : Engine R) (token : Token) (plan : Plan R) :
    engine.answer (.connecting token plan) = .connected ∨
      ∃ cause, engine.answer (.connecting token plan) = .refused cause := by
  have hawaited := engine.awaited (.connecting token plan) rfl
  cases hanswer : engine.answer (.connecting token plan) <;>
    simp_all [Call.Awaits]

private theorem answer_querying (engine : Engine R) (token : Token) (plan : Plan R) :
    ∃ reply, engine.answer (.querying token plan) = .answered reply := by
  have hawaited := engine.awaited (.querying token plan) rfl
  cases hanswer : engine.answer (.querying token plan) <;>
    simp_all [Call.Awaits]

private theorem isLast_answer_closing (engine : Engine R) (token : Token) (plan : Plan R)
    (rows : Except (ServiceError R) (List (Row R))) :
    (engine.answer (.closing token plan rows)).IsLast := by
  have hawaited := engine.awaited (.closing token plan rows) rfl
  cases hanswer : engine.answer (.closing token plan rows) <;>
    simp_all [Call.Awaits, Reply.IsLast]

end Engine

variable [Scalar R]

/-- A call without rows fails with the error that it has instead. -/
theorem Returns.ending_of_error {plan : Plan R} {e : ServiceError R} {last : Phase}
    (h : Returns plan.request early exchange (.error e)) (hlast : e.FailsIn last) :
    Ending early reached (.ok plan) exchange (.error e) (Phase.path ++ [last, .idle]) := by
  generalize hrows : (Except.error e : Except (ServiceError R) (List (Row R))) = rows at h
  -- The ending follows from what the call heard; a connection that closes badly does not count.
  cases h with
  | refused cause =>
    cases hrows
    exact .refused plan e hlast
  | closed h hclosing =>
    cases h with
    | turned hearly =>
      cases hrows
      obtain rfl := hlast.eq_failed nofun
      exact .turned plan hearly hclosing
    | asked reply hlate =>
      cases reply with
      | rows rows => cases hrows
      | failed cause =>
        cases hrows
        exact .failed plan hlate e hlast hclosing
      | timedOut limit =>
        cases hrows
        obtain rfl := hlast.eq_failed nofun
        exact .timedOut plan hlate limit hclosing

/-- A call with rows fails if it was cancelled. -/
theorem Returns.ending_of_reached {plan : Plan R} {rows : List (Row R)}
    (h : Returns plan.request early exchange (.ok rows)) (hreached : reached) :
    Ending early reached (.ok plan) exchange (.error .cancelled)
      (Phase.path ++ [.failed, .idle]) := by
  obtain ⟨hlate, last, hlast, rfl⟩ := h.exists_of_ok
  exact .cancelled plan hlate hreached rows hlast

/-- Otherwise it succeeds. -/
theorem Returns.ending_of_not_reached {plan : Plan R} {rows : List (Row R)}
    (h : Returns plan.request early exchange (.ok rows)) (hunreached : ¬reached) :
    Ending early reached (.ok plan) exchange (.ok (plan.reported rows))
      (Phase.path ++ (Service.closing plan ++ [.idle])) := by
  obtain ⟨hlate, last, hlast, rfl⟩ := h.exists_of_ok
  unfold Plan.reported Service.closing
  cases hplan : plan.refinement with
  | none => exact .completed plan hlate hunreached rows hplan hlast
  | some r => exact .refined plan hlate hunreached rows hplan hlast

namespace Conversation

/-- The start of a call. -/
def ofQuery (s : Service R) (now : Instant) (q : SpatialQuery R) (c : Context R) :
    Conversation R :=
  let t := s.start now q c
  rest ⟨t.service, ⟨s.nextToken, .ofCall t.call⟩, t.actions.map .did⟩

/-- What an incident leads to. -/
def step (w : Conversation R) : Incident R → Conversation R
  | .proceed engine =>
    let m := w.journey.stage.next engine
    match w.journey.move w.service m with
    | none => w
    | some (service, stage, actions) =>
      rest ⟨service, { w.journey with stage }, w.notes ++ Note.ofMove m ++ actions.map .did⟩
  | .cancel =>
    { w with
      service := w.service.cancel
      notes := w.notes ++ if w.service.slot = some w.journey.token then [.reached] else [] }
  | .turn service => { w with service := { service with marked := w.service.marked } }

/-- What several incidents lead to. -/
def run (w : Conversation R) (incidents : List (Incident R)) : Conversation R :=
  incidents.foldl step w

end Conversation

/-! ### The course of a call -/

/-- How a call gets from its preparation to its outcome: with each stage, what has passed by then,
and the phases entered by then. -/
inductive Course (token : Token) (early reached : Prop) :
    Except (ServiceError R) (Plan R) → Stage R → List (Note R) → List Phase → Prop
  | connecting (plan : Plan R) :
    Course token early reached (.ok plan) (.waiting (.connecting token plan)) [.did .connect]
      Phase.path
  | querying (plan : Plan R) (hlate : ¬early) :
    Course token early reached (.ok plan) (.waiting (.querying token plan))
      [.did .connect, .heard .connected, .did (.query plan.request)] Phase.path
  | closing {plan : Plan R} {exchange : List (Note R)}
    {rows : Except (ServiceError R) (List (Row R))} (h : Closes plan.request early exchange rows) :
    Course token early reached (.ok plan) (.waiting (.closing token plan rows)) exchange Phase.path
  | returned {plan : Plan R} {exchange : List (Note R)}
    {rows : Except (ServiceError R) (List (Row R))} (h : Returns plan.request early exchange rows) :
    Course token early reached (.ok plan) (.returned plan rows) exchange Phase.path
  | released {plan : Plan R} {exchange : List (Note R)}
    {rows : Except (ServiceError R) (List (Row R))} (h : Returns plan.request early exchange rows) :
    Course token early reached (.ok plan) (.released plan rows) exchange Phase.path
  | ended {prepared : Except (ServiceError R) (Plan R)} {exchange : List (Note R)}
    {outcome : Outcome R} {phases : List Phase}
    (h : Ending early reached prepared exchange outcome phases) :
    Course token early reached prepared (.ended outcome) exchange phases

section

variable {token : Token} {prepared : Except (ServiceError R) (Plan R)} {stage : Stage R}
  {phases : List Phase}

/-- Once the connection is open and the outcome is settled, it does not matter what comes later. -/
theorem Course.congr (h : Course token early reached prepared stage exchange phases)
    (hearly : .heard .connected ∈ exchange → (early ↔ early'))
    (hreached : .idle ∈ phases → (reached ↔ reached')) :
    Course token early' reached' prepared stage exchange phases := by
  cases h with
  | connecting plan => exact .connecting plan
  | querying plan hlate =>
    exact .querying plan fun h => hlate ((hearly (by simp)).mpr h)
  | closing h => exact .closing (h.congr (hearly h.connected_mem))
  | returned h => exact .returned (h.congr hearly)
  | released h => exact .released (h.congr hearly)
  | ended h => exact .ended (h.congr hearly (hreached h.idle_mem))

theorem Course.hasToken (h : Course token early reached prepared stage exchange phases) :
    (⟨token, stage⟩ : Journey R).HasToken := by
  intro call hcall
  cases h <;> cases hcall <;> rfl

/-- Nothing passes where preparation fails. -/
theorem Course.exchange_eq_nil_iff
    (h : Course token early reached prepared stage exchange phases) :
    exchange = [] ↔ ∃ e, prepared = .error e := by
  cases h with
  | connecting plan => simp
  | querying plan hlate => simp
  | closing h => cases h <;> simp
  | returned h => simp [h.ne_nil]
  | released h => simp [h.ne_nil]
  | ended h => exact h.exchange_eq_nil_iff

/-- A call with a connection asks, unless a cancellation was early. -/
theorem Course.asks_iff (h : Course token early reached prepared stage exchange phases)
    (hconnected : .heard .connected ∈ exchange) :
    (∃ request, .did (.query request) ∈ exchange) ↔ ¬early := by
  cases h with
  | connecting plan => simp at hconnected
  | querying plan hlate => simp [hlate]
  | closing h => exact h.asks_iff
  | returned h => exact h.asks_iff hconnected
  | released h => exact h.asks_iff hconnected
  | ended h => exact h.asks_iff hconnected

/-- What has passed is the beginning of an exchange. -/
theorem Course.exists_isExchange
    (h : Course token early reached prepared stage exchange phases) :
    ∃ whole, IsExchange whole ∧ exchange <+: whole := by
  have hlast : (Reply.closed : Reply R).IsLast := trivial
  cases h with
  | connecting plan => exact ⟨_, .refused (.backend .closed), ⟨_, rfl⟩⟩
  | querying plan hlate =>
    exact ⟨_, .asked plan.request (.rows []) hlast, ⟨_, rfl⟩⟩
  | closing h => exact ⟨_, (Returns.closed h hlast).isExchange, ⟨_, rfl⟩⟩
  | returned h => exact ⟨_, h.isExchange, List.prefix_rfl⟩
  | released h => exact ⟨_, h.isExchange, List.prefix_rfl⟩
  | ended h => exact ⟨_, h.isExchange, List.prefix_rfl⟩

private theorem Course.ending {outcome : Outcome R}
    (h : Course token early reached prepared (.ended outcome) exchange phases) :
    Ending early reached prepared exchange outcome phases := by
  cases h with
  | ended h => exact h

namespace Conversation

/-- What holds of a call throughout: it keeps to the course that its preparation sets. -/
structure Keeps (prepared : Except (ServiceError R) (Plan R)) (w : Conversation R) : Prop where
  mark_iff : w.service.isMarked w.journey.token = true ↔ .reached ∈ w.notes
  course : Course w.journey.token (.reached ∈ w.opening) (.reached ∈ w.pending) prepared
    w.journey.stage w.exchange w.phases

/-- A call goes on its course by a step that touches no mark. -/
theorem Keeps.append {w : Conversation R} (h : w.Keeps prepared) {t : Service R}
    (hmarked : t.marked = w.service.marked) {more : List (Note R)} (hmore : .reached ∉ more)
    (hcourse : Course w.journey.token (.reached ∈ Note.before Note.opens (w.notes ++ more))
      (.reached ∈ Note.before Note.settles (w.notes ++ more)) prepared stage
      (w.exchange ++ more.filter Note.isExchanged) (w.phases ++ more.filterMap Note.phase?)) :
    Keeps prepared ⟨t, { w.journey with stage }, w.notes ++ more⟩ where
  mark_iff := by
    have hmark : t.isMarked w.journey.token = w.service.isMarked w.journey.token := by
      rw [Service.isMarked, Service.isMarked, hmarked]
    simpa [hmark, hmore] using h.mark_iff
  course := by
    rw [exchange, phases, List.filter_append, List.filterMap_append]
    exact hcourse

/-- A cancellation marks a call if it reaches it. -/
theorem Keeps.cancel {w : Conversation R} (h : w.Keeps prepared) :
    (w.step .cancel).Keeps prepared where
  mark_iff := by
    simp only [step, Service.isMarked_cancel, List.mem_append, h.mark_iff]
    split <;> simp_all
  course := by
    have hexchange : (w.step .cancel).exchange = w.exchange := by
      simp only [step, exchange, List.filter_append]
      split <;> simp [Note.isExchanged]
    have hphases : (w.step .cancel).phases = w.phases := by
      simp only [step, phases, List.filterMap_append]
      split <;> simp [Note.phase?]
    rw [hexchange, hphases]
    -- neither of the two moments is put off by what is noted behind it
    refine h.course.congr (fun hconnected => ?_) fun hidle => ?_
    · rw [step, opening, opening, before_opens_append hconnected]
      rfl
    · rw [step, pending, pending, before_settles_append hidle]
      rfl

/-- A call with a connection goes on its course by a step that touches no mark. -/
theorem Keeps.append_of_connected {w : Conversation R} (h : w.Keeps prepared) {t : Service R}
    (hmarked : t.marked = w.service.marked) (hconnected : .heard .connected ∈ w.exchange)
    {more : List (Note R)} (hmore : .reached ∉ more)
    (hcourse : ∀ reached, Course w.journey.token (.reached ∈ w.opening) reached prepared stage
      (w.exchange ++ more.filter Note.isExchanged) (w.phases ++ more.filterMap Note.phase?)) :
    Keeps prepared ⟨t, { w.journey with stage }, w.notes ++ more⟩ := by
  refine h.append hmarked hmore ?_
  rw [before_opens_append hconnected]
  exact hcourse _

/-- A call that has ended goes no further. -/
private theorem step_of_ended {w : Conversation R} {outcome : Outcome R}
    (h : w.journey.stage = .ended outcome) {engine : Engine R} :
    w.step (.proceed engine) = w := by
  simp only [step, h, Journey.move, Stage.next]

/-- What a step of the call adds to the notes. -/
private theorem step_proceed {w : Conversation R} {engine : Engine R} {m : Journey.Move R}
    {t : Service R}
    {stage : Stage R} {actions : List (Action R)} (hnext : w.journey.stage.next engine = m)
    (hmove : w.journey.move w.service m = some (t, stage, actions)) :
    w.step (.proceed engine) = rest ⟨t, { w.journey with stage },
      w.notes ++ (Note.ofMove m ++ actions.map .did)⟩ := by
  simp only [step, hnext, hmove, List.append_assoc]

/-- A call whose connection opens asks, unless a cancellation has reached it by then. -/
theorem Keeps.ask {w : Conversation R} {plan : Plan R} (h : w.Keeps (.ok plan))
    (hexchange : w.exchange = [.did .connect]) (hphases : w.phases = Phase.path) :
    Keeps (.ok plan) (rest ⟨(w.service.ask w.journey.token plan).service,
      { w.journey with stage := .ofCall (w.service.ask w.journey.token plan).call },
      w.notes ++ ([.heard .connected] ++
        (w.service.ask w.journey.token plan).actions.map .did)⟩) := by
  -- So far the call has asked for a connection only, and nothing has been opened.
  have hfresh : ∀ n ∈ w.notes, n.opens = false := by
    intro n hn
    unfold Note.opens
    split
    · have hmem := mem_exchange.mpr ⟨hn, rfl⟩
      simp [hexchange] at hmem
    · rfl
  have hearly : ∀ more : List (Note R),
      .reached ∈ Note.before Note.opens (w.notes ++ .heard .connected :: more) ↔
        w.service.isMarked w.journey.token = true := fun more => by
    rw [Note.before_append_cons hfresh rfl]
    exact h.mark_iff.symm
  rw [Service.ask]
  split
  · rename_i hmark
    refine h.append rfl (by simp) ?_
    rw [hexchange, hphases]
    exact .closing (.turned ((hearly _).mpr hmark))
  · rename_i hmark
    refine h.append rfl (by simp) ?_
    rw [hexchange, hphases]
    exact .querying plan fun hmem => hmark ((hearly _).mp hmem)

/-- A call ends on its course by entering phases in which its outcome is settled, the last of them
at rest. What had been noted by then tells whether it was marked. -/
theorem Keeps.ends {w : Conversation R} (h : w.Keeps prepared) {t : Service R}
    (hmarked : t.marked = w.service.marked) (hphases : w.phases = Phase.path) {outcome : Outcome R}
    {entered : List Phase} (hentered : ∀ phase ∈ entered, phase.isSettled = true)
    (hending : Ending (.reached ∈ w.opening) (w.service.isMarked w.journey.token = true) prepared
      w.exchange outcome (Phase.path ++ (entered ++ [.idle]))) :
    Keeps prepared (rest ⟨t, { w.journey with stage := .ended outcome },
      w.notes ++ (entered.map .enter).map .did⟩) := by
  have hnotes : rest ⟨t, { w.journey with stage := .ended outcome },
      w.notes ++ (entered.map .enter).map .did⟩ = ⟨{ t with phase := .idle },
        { w.journey with stage := .ended outcome },
        w.notes ++ (entered ++ [Phase.idle]).map fun phase => .did (.enter phase)⟩ := by
    simp [rest, List.map_append, Function.comp_def]
  have hpending : Note.before Note.settles
      (w.notes ++ (entered ++ [Phase.idle]).map fun phase => .did (.enter phase)) = w.notes := by
    cases entered with
    | nil => exact Note.before_append_cons (settles_eq_false hphases) rfl _
    | cons first more =>
      have hfirst : (.did (.enter first) : Note R).settles = true :=
        hentered first List.mem_cons_self
      exact Note.before_append_cons (settles_eq_false hphases) hfirst _
  rw [hnotes]
  refine h.append (t := { t with phase := .idle }) hmarked (by simp) ?_
  rw [Note.filter_isExchanged_entered, Note.filterMap_phase?_entered, List.append_nil, hphases,
    hpending]
  refine .ended (hending.congr (fun hconnected => ?_) h.mark_iff)
  rw [before_opens_append hconnected]

/-- A call that has left the slot ends on its course. -/
theorem Keeps.judge {w : Conversation R} {plan : Plan R} (h : w.Keeps (.ok plan))
    (hreturns : Returns plan.request (.reached ∈ w.opening) w.exchange rows)
    (hphases : w.phases = Phase.path) :
    Keeps (.ok plan) (rest ⟨(w.service.judge w.journey.token plan rows).service,
      { w.journey with stage := .ofCall (w.service.judge w.journey.token plan rows).call },
      w.notes ++ (w.service.judge w.journey.token plan rows).actions.map .did⟩) := by
  obtain ⟨-, htokens, -⟩ := w.service.judge_shape w.journey.token plan rows
  rcases w.service.judge_cases w.journey.token plan rows with
    ⟨e, hcause, hcall, hactions⟩ | ⟨rows', rfl, hmark, hcall, hactions⟩
  · have hsettled : ∀ phase ∈ [e.phase], phase.isSettled = true := by
      intro phase hphase
      rw [List.mem_singleton.mp hphase]
      unfold ServiceError.phase
      split <;> rfl
    rw [hcall, hactions]
    refine h.ends htokens.marked_eq hphases hsettled ?_
    rcases hcause with rfl | ⟨⟨rows', rfl⟩, rfl, hmark⟩
    · exact hreturns.ending_of_error e.failsIn_phase
    · exact hreturns.ending_of_reached hmark
  · have hsettled : ∀ phase ∈ Service.closing plan, phase.isSettled = true := by
      unfold Service.closing
      split <;> decide
    rw [hcall, hactions]
    refine h.ends htokens.marked_eq hphases hsettled ?_
    exact hreturns.ending_of_not_reached (by simp [hmark])

/-- A call keeps to its course by each of its steps. -/
private theorem Keeps.proceed {w : Conversation R} (h : w.Keeps prepared) (engine : Engine R) :
    (w.step (.proceed engine)).Keeps prepared := by
  have hcourse := h.course
  generalize hstage : w.journey.stage = stage, hexchange : w.exchange = exchange,
    hphases : w.phases = phases at hcourse
  -- By the stage that the course has reached. Each case says which move the engine's answer makes,
  -- and names the constructor that is the course one step on.
  cases hcourse with
  | ended hending =>
    rw [step_of_ended hstage]
    exact h
  | connecting plan =>
    rcases engine.answer_connecting w.journey.token plan with hanswer | ⟨cause, hanswer⟩
    · have hmove : w.journey.move w.service (.reply .connected) =
          some ((w.service.ask w.journey.token plan).service,
            .ofCall (w.service.ask w.journey.token plan).call,
            (w.service.ask w.journey.token plan).actions) := by
        rw [Journey.move, hstage]
        rfl
      rw [step_proceed (by rw [hstage, Stage.next, hanswer]) hmove]
      exact h.ask hexchange hphases
    · have hmove : w.journey.move w.service (.reply (.refused cause)) =
          some (w.service, .returned plan (.error cause), []) := by
        rw [Journey.move, hstage]
        rfl
      rw [step_proceed (by rw [hstage, Stage.next, hanswer]) hmove]
      refine h.append rfl (by simp [Note.ofMove]) ?_
      rw [hexchange, hphases]
      exact .returned (.refused cause)
  | querying plan hlate =>
    obtain ⟨reply, hanswer⟩ := engine.answer_querying w.journey.token plan
    have hmove : w.journey.move w.service (.reply (.answered reply)) =
        some (w.service, .waiting (.closing w.journey.token plan (Service.rowsOf reply)),
          [.close]) := by
      rw [Journey.move, hstage]
      rfl
    rw [step_proceed (by rw [hstage, Stage.next, hanswer]) hmove]
    refine h.append_of_connected rfl (by simp [hexchange]) (by simp [Note.ofMove]) fun _ => ?_
    rw [hexchange, hphases]
    exact .closing (.asked reply hlate)
  | @closing plan _ rows hcloses =>
    have hlast := engine.isLast_answer_closing w.journey.token plan rows
    generalize hanswer : engine.answer (.closing w.journey.token plan rows) = last at hlast
    have hmove : w.journey.move w.service (.reply last) =
        some (w.service, .returned plan rows, []) := by
      rw [Journey.move, hstage]
      cases last <;> first | rfl | exact hlast.elim
    rw [step_proceed (by rw [hstage, Stage.next, hanswer]) hmove]
    refine h.append_of_connected rfl (by rw [hexchange]; exact hcloses.connected_mem)
      (by simp [Note.ofMove]) fun _ => ?_
    rw [hexchange, hphases]
    exact .returned (.closed hcloses hlast)
  | @returned plan _ rows hreturns =>
    have hmove : w.journey.move w.service .release =
        some (w.service.finish w.journey.token, .released plan rows, []) := by
      rw [Journey.move, hstage]
    rw [step_proceed (by rw [hstage, Stage.next]) hmove]
    refine h.append ?_ (by simp [Note.ofMove]) ?_
    · unfold Service.finish
      split <;> rfl
    · simp only [Note.ofMove, List.map_nil, List.append_nil, List.filter_nil, List.filterMap_nil,
        hexchange, hphases]
      exact .released hreturns
  | @released plan _ rows hreturns =>
    have hmove : w.journey.move w.service .judge =
        some ((w.service.judge w.journey.token plan rows).service,
          .ofCall (w.service.judge w.journey.token plan rows).call,
          (w.service.judge w.journey.token plan rows).actions) := by
      rw [Journey.move, hstage]
    rw [step_proceed (by rw [hstage, Stage.next]) hmove]
    exact h.judge (by rw [hexchange]; exact hreturns) hphases

theorem Keeps.step {w : Conversation R} (h : w.Keeps prepared) (incident : Incident R) :
    (w.step incident).Keeps prepared := by
  cases incident with
  | proceed engine => exact h.proceed engine
  | cancel => exact h.cancel
  | turn service => exact ⟨h.mark_iff, h.course⟩

theorem Keeps.run {w : Conversation R} (h : w.Keeps prepared) (incidents : List (Incident R)) :
    (w.run incidents).Keeps prepared := by
  induction incidents generalizing w with
  | nil => exact h
  | cons incident rest ih => exact ih (h.step incident)

/-- A call is set on its course as it starts, if its token has no mark yet. -/
theorem keeps_ofQuery {s : Service R} (hfresh : s.isMarked s.nextToken = false) (now : Instant)
    (q : SpatialQuery R) (c : Context R) :
    ∃ prepared, s.Prepares now q c prepared ∧ (ofQuery s now q c).Keeps prepared := by
  have hmark : (s.start now q c).service.isMarked s.nextToken = false := by
    rcases s.start_tokens now q c with ⟨-, htokens⟩ | ⟨plan, -, htokens⟩
    · rw [Service.isMarked, htokens.marked_eq]
      exact hfresh
    · rw [Service.isMarked, htokens.marked_eq]
      exact hfresh
  -- Either the call was over before it asked for anything, or it waits for its connection.
  rcases s.start_cases now q c with ⟨e, entered, hprepares, hending, hcall, hactions⟩ |
    ⟨plan, hprepares, hcall, hactions⟩
  · refine ⟨_, hprepares, ?_⟩
    have hnotes : ofQuery s now q c = ⟨{ (s.start now q c).service with phase := .idle },
        ⟨s.nextToken, .ended (.error e)⟩,
        (entered ++ [Phase.idle]).map fun phase => .did (.enter phase)⟩ := by
      simp [ofQuery, hcall, hactions, Stage.ofCall, rest, List.map_append, Function.comp_def]
    rw [hnotes]
    refine ⟨iff_of_false (Bool.eq_false_iff.mp hmark) (by simp), ?_⟩
    rw [exchange, phases, Note.filter_isExchanged_entered, Note.filterMap_phase?_entered]
    exact .ended (hending _ _)
  · refine ⟨_, hprepares, ?_⟩
    simp only [ofQuery, hcall, hactions]
    refine ⟨iff_of_false (Bool.eq_false_iff.mp hmark) ?_, .connecting plan⟩
    simp [Phase.path, Stage.ofCall, rest]

/-- A call comes to its end, however its engine answers. -/
theorem Keeps.exists_ended {w : Conversation R} (h : w.Keeps prepared) (engine : Engine R) {n : Nat}
    (hn : w.journey.stage.remaining ≤ n) :
    ∃ outcome, (w.run (List.replicate n (.proceed engine))).journey.stage = .ended outcome := by
  induction n generalizing w with
  | zero =>
    cases hstage : w.journey.stage with
    | ended outcome => exact ⟨outcome, hstage⟩
    | _ => simp [hstage, Stage.remaining] at hn
  | succ n ih =>
    have hrun : w.run (List.replicate (n + 1) (.proceed engine)) =
        (w.step (.proceed engine)).run (List.replicate n (.proceed engine)) := rfl
    rw [hrun]
    refine ih (h.proceed engine) ?_
    rcases Journey.exists_move_next h.course.hasToken engine w.service with
      ⟨outcome, hended⟩ | ⟨t, stage, actions, hmove, hlt⟩
    · rw [step_of_ended hended, hended]
      exact Nat.zero_le _
    · rw [step_proceed rfl hmove, journey_rest]
      exact Nat.le_of_lt_succ (hlt.trans_le hn)

end Conversation

end

/-! ### The protocol -/

namespace Conversation

/-- The protocol of a call with a service, by what has been noted. -/
structure KeepsProtocol (s : Service R) (now : Instant) (q : SpatialQuery R) (c : Context R)
    (w : Conversation R) : Prop where
  /-- The call comes to its end, however its engine answers from now on. -/
  ends : ∀ engine : Engine R, ∃ outcome,
    (w.run (List.replicate 5 (.proceed engine))).journey.stage = .ended outcome
  /-- What has passed by the end is an exchange. -/
  isExchange : ∀ outcome, w.journey.stage = .ended outcome → IsExchange w.exchange
  /-- What has passed by now is the beginning of one. -/
  exists_isExchange : ∃ exchange, IsExchange exchange ∧ w.exchange <+: exchange
  /-- Nothing passes if the context has no column for identifiers, if the query is not valid, or if
  its contract cannot be planned, and only then. -/
  exchange_eq_nil_iff : w.exchange = [] ↔
    c.serviceIdField = none ∨ q.violations c ≠ [] ∨
      ∃ contract e, (s.contractFor now q c).1 = .ok contract ∧
        Plan.ofContract contract c s.settings = .error e
  /-- Over an open connection the call asks if no cancellation reached it before, and only then. -/
  asks_iff : .heard .connected ∈ w.exchange →
    ((∃ request, .did (.query request) ∈ w.exchange) ↔ .reached ∉ w.opening)
  /-- The call ends as its preparation, the replies of its engine and the cancellations that came
  in time have it, and by the phases that lead there. -/
  ending : ∀ outcome, w.journey.stage = .ended outcome →
    ∃ prepared, s.Prepares now q c prepared ∧
      Ending (.reached ∈ w.opening) (.reached ∈ w.pending) prepared w.exchange outcome w.phases
  /-- The result has either identifiers or a failure. -/
  reports : ∀ outcome, w.journey.stage = .ended outcome →
    QueryResult.Reports outcome (.ofOutcome outcome)

/-- Every call keeps to the protocol, whatever service it starts on and whatever happens
meanwhile. -/
theorem keepsProtocol_run (settings : Settings) (events : List (Traffic.Event R)) (now : Instant)
    (q : SpatialQuery R) (c : Context R) (incidents : List (Incident R)) :
    let s := ((Traffic.ofSettings settings).run events).service
    KeepsProtocol s now q c ((ofQuery s now q c).run incidents) := by
  intro s
  have hsound := Traffic.isSound_run settings events
  have hfresh : s.isMarked s.nextToken = false := by
    refine Bool.eq_false_iff.mpr fun hmark => ?_
    exact absurd (hsound.marked_lt _ hmark) (by rw [hsound.nextToken_eq]; exact lt_irrefl _)
  obtain ⟨prepared, hprepares, hstart⟩ := keeps_ofQuery hfresh now q c
  have h := hstart.run incidents
  generalize (ofQuery s now q c).run incidents = w at h
  have hending : ∀ outcome, w.journey.stage = .ended outcome →
      Ending (.reached ∈ w.opening) (.reached ∈ w.pending) prepared w.exchange outcome w.phases :=
    fun outcome hstage => (hstage ▸ h.course).ending
  exact {
    ends := fun engine => h.exists_ended engine w.journey.stage.remaining_le
    isExchange := fun outcome hstage => (hending outcome hstage).isExchange
    exists_isExchange := h.course.exists_isExchange
    exchange_eq_nil_iff := by rw [h.course.exchange_eq_nil_iff, hprepares.error_iff]
    asks_iff := h.course.asks_iff
    ending := fun outcome hstage => ⟨prepared, hprepares, hending outcome hstage⟩
    reports := fun outcome hstage => (hending outcome hstage).reports }

/-- A call whose query fails comes to an end with that failure. -/
theorem run_of_failed {service : Service R} {token : Token} (hmark : service.isMarked token = false)
    (plan : Plan R) (notes : List (Note R)) (cause : ServiceError R) :
    let w := run ⟨service, ⟨token, .waiting (.connecting token plan)⟩, notes⟩
      (List.replicate 5 (.proceed (.ofReply (.failed cause))))
    w.journey.stage = .ended (.error cause) ∧
      w.notes = notes ++ [.heard .connected, .did (.query plan.request),
        .heard (.answered (.failed cause)), .did .close, .heard .closed, .did (.enter cause.phase),
        .did (.enter .idle)] := by
  simp [run, List.replicate, step, rest, Stage.next, Engine.ofReply, Journey.move, Call.returns?,
    Service.resume, Service.ask, hmark, Stage.ofCall, Service.rowsOf, Service.judge,
    Service.conclude, Note.ofMove, Service.enter, Step.after]

/-- A call that is cancelled while its query is out drops its rows. -/
theorem run_of_cancelled {service : Service R} {token : Token}
    (hmark : service.isMarked token = false) (hslot : service.slot = some token) (plan : Plan R)
    (notes : List (Note R)) (rows : List (Row R)) :
    let w := run ⟨service, ⟨token, .waiting (.connecting token plan)⟩, notes⟩
      ([.proceed (.ofReply (.rows rows)), .cancel] ++
        List.replicate 4 (.proceed (.ofReply (.rows rows))))
    w.journey.stage = .ended (.error .cancelled) ∧
      w.notes = notes ++ [.heard .connected, .did (.query plan.request), .reached,
        .heard (.answered (.rows rows)), .did .close, .heard .closed, .did (.enter .failed),
        .did (.enter .idle)] := by
  have hfinish : (service.cancel.finish token).isMarked token = true := by
    rw [Service.isMarked_finish, Service.isMarked_cancel]
    exact .inr hslot
  simp [run, List.replicate, step, rest, Stage.next, Engine.ofReply, Journey.move, Call.returns?,
    Service.resume, Service.ask, hmark, hslot, hfinish, Stage.ofCall, Service.rowsOf, Service.judge,
    Service.conclude, Note.ofMove, Service.enter, Step.after, ServiceError.phase]

/-- The call for the sample query on a service that has not been used, after some incidents. -/
def sampleRun (incidents : List (Incident Float)) : Conversation Float :=
  (ofQuery ((Traffic.ofSettings Settings.default).run []).service ⟨0, 0⟩ Session.sampleQuery
    Session.sampleContext).run incidents

/-- It has a plan, asks for a connection, and is the one that a cancellation would reach. -/
theorem exists_sampleRun_nil : ∃ (plan : Plan Float) (cache : Cache (Contract Float)),
    sampleRun [] = ⟨⟨Settings.default, cache, some 0, [], 1, .executing⟩,
      ⟨0, .waiting (.connecting 0 plan)⟩,
      Phase.path.map (fun phase => .did (.enter phase)) ++ [.did .connect]⟩ := by
  let s : Service Float := Service.ofSettings Settings.default
  have hplan : (((s.contractFor ⟨0, 0⟩ Session.sampleQuery Session.sampleContext).1.toOption.bind
      fun contract => (Plan.ofContract contract Session.sampleContext
        Settings.default).toOption).map fun plan => plan.request.table) = some "routes" := by
    decide +kernel
  obtain ⟨plan, hplan, -⟩ := Option.map_eq_some_iff.mp hplan
  obtain ⟨contract, hcontract, hplan⟩ := Option.bind_eq_some_iff.mp hplan
  have hvalid : Session.sampleQuery.violations Session.sampleContext = [] :=
    List.isEmpty_iff.mp (by decide +kernel)
  refine ⟨plan, (s.contractFor ⟨0, 0⟩ Session.sampleQuery Session.sampleContext).2.cache, ?_⟩
  have hquery : sampleRun [] =
      ofQuery s ⟨0, 0⟩ Session.sampleQuery Session.sampleContext := rfl
  rw [hquery, ofQuery, Service.start_eq_of_ofContract hvalid (toOption_eq_some_iff.mp hcontract)
    (toOption_eq_some_iff.mp hplan)]
  rfl

/-- A query for a table that its engine does not have fails, and the call with it. A cancelled call
fails as well, although its rows arrive. -/
theorem keepsProtocol_run_failures :
    let s := ((Traffic.ofSettings Settings.default).run ([] : List (Traffic.Event Float))).service
    let broken := sampleRun (List.replicate 5
      (.proceed (.ofReply (.failed (.backend (.noTable "routes"))))))
    let late := sampleRun ([.proceed (.ofReply (.rows [])), .cancel] ++
      List.replicate 4 (.proceed (.ofReply (.rows []))))
    (KeepsProtocol s ⟨0, 0⟩ Session.sampleQuery Session.sampleContext broken ∧
      broken.journey.stage = .ended (.error (.backend (.noTable "routes"))) ∧
      broken.phases =
        [.validating, .compiling, .buildingPredicate, .executing, .failed, .idle]) ∧
    KeepsProtocol s ⟨0, 0⟩ Session.sampleQuery Session.sampleContext late ∧
      late.journey.stage = .ended (.error .cancelled) ∧ .reached ∈ late.pending ∧
      late.phases =
        [.validating, .compiling, .buildingPredicate, .executing, .failed, .idle] := by
  intro s broken late
  obtain ⟨plan, cache, hstart⟩ := exists_sampleRun_nil
  have hbroken : broken = (sampleRun []).run (List.replicate 5
      (.proceed (.ofReply (.failed (.backend (.noTable "routes")))))) := rfl
  have hlate : late = (sampleRun []).run ([.proceed (.ofReply (.rows [])), .cancel] ++
      List.replicate 4 (.proceed (.ofReply (.rows [])))) := rfl
  rw [hstart] at hbroken hlate
  let service : Service Float := ⟨Settings.default, cache, some 0, [], 1, .executing⟩
  have hmark : service.isMarked 0 = false := rfl
  have hslot : service.slot = some 0 := rfl
  -- Both runs start alike; one goes on to an engine that fails, the other to a cancellation.
  obtain ⟨hstage, hnotes⟩ := run_of_failed hmark plan
    (Phase.path.map (fun phase => .did (.enter phase)) ++ [.did .connect])
    (.backend (.noTable "routes"))
  obtain ⟨hstage', hnotes'⟩ := run_of_cancelled hmark hslot plan
    (Phase.path.map (fun phase => .did (.enter phase)) ++ [.did .connect]) []
  rw [← hbroken] at hstage hnotes
  rw [← hlate] at hstage' hnotes'
  refine ⟨⟨keepsProtocol_run _ _ _ _ _ _, hstage, ?_⟩, keepsProtocol_run _ _ _ _ _ _, hstage', ?_,
    ?_⟩
  · rw [phases, hnotes]
    rfl
  · rw [pending, hnotes']
    simp [Note.before, Note.settles, Phase.path, Phase.isSettled]
  · rw [phases, hnotes']
    rfl

end Conversation

end TransitQuery
