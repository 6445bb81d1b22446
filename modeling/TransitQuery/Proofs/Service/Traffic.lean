import TransitQuery.Proofs.Service.Undisturbed

/-!
# Calls that can be cancelled

Once its query is planned, a call takes a token and waits for its engine. While it does, other
calls begin and end, and the latest of them is cancelled now and then. The traffic of a service is
all calls that have taken a token, in the order in which they did. Its events let one of them go a
step further, in any order.

A call ends in three steps: its engine is done with it, it leaves the slot, and it looks at its
mark. `Service.resume` takes the last two at once with the answer that the engine is done by
(`Service.resume_eq_judge`). Here they are taken one by one, as other threads may run in between.

Tokens are what the calls share. The slot has the token of the latest call, until that call leaves
it. So a cancellation marks this call or none, and a mark that a call has not found when it looks
never comes.
-/

namespace TransitQuery

variable {R : Type}

/-! ### Calls and their stages -/

/-- The token of a call that is not over. -/
def Call.token? : Call R → Option Token
  | connecting token _ | querying token _ | closing token _ _ => some token
  | finished _ => none

/-- What a call has when its engine is done with it: when no connection was opened, or when it is
closed again. -/
def Call.returns? : Call R → Reply R → Option (Plan R × Except (ServiceError R) (List (Row R)))
  | connecting _ plan, .refused cause => some (plan, .error cause)
  | closing _ plan rows, .closed | closing _ plan rows, .closeFailed _ => some (plan, rows)
  | _, _ => none

/-- How far a call is that has taken a token. -/
inductive Stage (R : Type) where
  /-- It waits for an answer of its engine. -/
  | waiting (call : Call R)
  /-- Its engine is done with it. -/
  | returned (plan : Plan R) (rows : Except (ServiceError R) (List (Row R)))
  /-- It has left the slot, and not looked at its mark yet. -/
  | released (plan : Plan R) (rows : Except (ServiceError R) (List (Row R)))
  | ended (outcome : Outcome R)

/-- A call that has taken a token. -/
structure Journey (R : Type) where
  token : Token
  stage : Stage R

/-- A step of such a call. -/
inductive Journey.Move (R : Type) where
  | reply (r : Reply R)
  | release
  | judge

/-- A service, the calls that have taken a token, and what each of them did. -/
structure Traffic (R : Type) where
  service : Service R
  journeys : List (Journey R)
  log : List (Nat × Action R)

namespace Stage

/-- The stage of a call. -/
def ofCall : Call R → Stage R
  | .finished outcome => .ended outcome
  | call => .waiting call

/-- Whether a call has not left the slot yet. -/
def IsOpen : Stage R → Prop
  | waiting _ | returned _ _ => True
  | released _ _ | ended _ => False

end Stage

namespace Traffic

/-- What happens to the traffic of a service. -/
inductive Event (R : Type) where
  /-- A call with a plan takes a token. -/
  | begin (plan : Plan R)
  /-- The call with a number takes a step. -/
  | move (i : Nat) (m : Journey.Move R)
  | cancel
  /-- Whatever else a service does leaves the tokens where they are. -/
  | turn (service : Service R)

/-- A service that has not been used, without calls. -/
def ofSettings (settings : Settings) : Traffic R where
  service := Service.ofSettings settings
  journeys := []
  log := []

/-- The call with a number is the latest, and has not left the slot yet. -/
def IsCurrent (w : Traffic R) (i : Nat) : Prop :=
  i + 1 = w.journeys.length ∧ ∃ j, w.journeys[i]? = some j ∧ j.stage.IsOpen

end Traffic

namespace Stage

/-- The failure of a call, as far as it is known. -/
def error? : Stage R → Option (ServiceError R)
  | waiting (.closing _ _ (.error e)) | returned _ (.error e) | released _ (.error e)
  | ended (.error e) => some e
  | _ => none

/-- Whether a call waits for its connection. -/
def IsConnecting : Stage R → Prop
  | waiting (.connecting _ _) => True
  | _ => False

/-- What a call has come to agrees with its mark: it succeeds without one only. -/
def AgreesWith (mark : Bool) (stage : Stage R) : Prop :=
  ∀ ids, stage = .ended (.ok ids) → mark = false

end Stage

/-- A call takes its own token along. -/
def Journey.HasToken (j : Journey R) : Prop :=
  ∀ call, j.stage = .waiting call → call.token? = some j.token

namespace Service

/-- Two services have the same tokens in the same places. -/
structure SameTokens (s t : Service R) : Prop where
  slot_eq : t.slot = s.slot
  marked_eq : t.marked = s.marked
  nextToken_eq : t.nextToken = s.nextToken

/-- A cancellation marks the token in the slot and no other. -/
theorem isMarked_cancel (s : Service R) (token : Token) :
    s.cancel.isMarked token = true ↔ s.isMarked token = true ∨ s.slot = some token := by
  unfold Service.cancel Service.isMarked
  cases s.slot with
  | none => simp
  | some current =>
    rw [List.contains_cons, Bool.or_eq_true, beq_iff_eq, Option.some_inj, or_comm]
    exact or_congr_right eq_comm

end Service

namespace Traffic

/-- A list after one entry has been replaced. -/
theorem eq_or_getElem?_of_set {α : Type} {l : List α} {i k : Nat} {a b : α}
    (h : (l.set i a)[k]? = some b) : (k = i ∧ b = a) ∨ (k ≠ i ∧ l[k]? = some b) := by
  by_cases heq : i = k
  · subst heq
    obtain ⟨hi, hget⟩ := List.getElem?_eq_some_iff.mp h
    rw [List.getElem_set_self] at hget
    exact .inl ⟨rfl, hget.symm⟩
  · rw [List.getElem?_set_ne heq] at h
    exact .inr ⟨Ne.symm heq, h⟩

/-- A list after one entry has been put behind it. -/
theorem getElem?_or_eq_of_concat {α : Type} {l : List α} {i : Nat} {a b : α}
    (h : (l ++ [a])[i]? = some b) : l[i]? = some b ∨ (i = l.length ∧ b = a) := by
  obtain ⟨hi, hget⟩ := List.getElem?_eq_some_iff.mp h
  rw [List.length_append, List.length_singleton] at hi
  rcases Nat.lt_succ_iff_lt_or_eq.mp hi with hlt | rfl
  · rw [List.getElem?_append_left hlt] at h
    exact .inl h
  · rw [List.getElem_concat_length rfl] at hget
    exact .inr ⟨rfl, hget.symm⟩

/-- What a call did stands in the log behind what had been done before. -/
theorem mem_or_of_mem_log {log : List (Nat × Action R)} {i : Nat} {actions : List (Action R)}
    {p : Nat × Action R} (h : p ∈ log ++ actions.map fun a => (i, a)) :
    p ∈ log ∨ (p.1 = i ∧ p.2 ∈ actions) := by
  rcases List.mem_append.mp h with hold | hnew
  · exact .inl hold
  · obtain ⟨a, ha, rfl⟩ := List.mem_map.mp hnew
    exact .inr ⟨rfl, ha⟩

/-- A step of one call keeps it the latest or not, and leaves the others as they are. -/
theorem isCurrent_set {w : Traffic R} {i : Nat} (hi : i < w.journeys.length) (t : Service R)
    (j : Journey R) (log : List (Nat × Action R)) (k : Nat) :
    (⟨t, w.journeys.set i j, log⟩ : Traffic R).IsCurrent k ↔
      if k = i then k + 1 = w.journeys.length ∧ j.stage.IsOpen else w.IsCurrent k := by
  unfold IsCurrent
  rw [List.length_set]
  split
  · rename_i heq
    rw [heq, List.getElem?_set_self hi]
    simp
  · rename_i hne
    rw [List.getElem?_set_ne (Ne.symm hne)]

/-- What holds after every run: calls have tokens of their own, the slot has that of the current
call, and what a call has come to agrees with its mark. -/
structure IsSound (w : Traffic R) : Prop where
  nextToken_eq : w.service.nextToken = w.journeys.length
  token_eq : ∀ (i : Nat) (j : Journey R), w.journeys[i]? = some j → j.token = i
  hasToken : ∀ j ∈ w.journeys, j.HasToken
  slot_iff : ∀ i : Nat, w.service.slot = some i ↔ w.IsCurrent i
  marked_lt : ∀ i : Nat, w.service.isMarked i = true → i < w.journeys.length
  agreesWith : ∀ (i : Nat) (j : Journey R), w.journeys[i]? = some j →
    j.stage.AgreesWith (w.service.isMarked i)
  logged_lt : ∀ p ∈ w.log, p.1 < w.journeys.length
  unasked : ∀ (i : Nat) (j : Journey R), w.journeys[i]? = some j → j.stage.IsConnecting →
    ∀ request, (i, .query request) ∉ w.log

/-- A service that has not been used has no calls. -/
theorem isSound_ofSettings (settings : Settings) : (ofSettings settings : Traffic R).IsSound where
  nextToken_eq := rfl
  token_eq i j h := by simp [ofSettings] at h
  hasToken := by simp [ofSettings]
  slot_iff i := by simp [ofSettings, Service.ofSettings, IsCurrent]
  marked_lt i := by simp [ofSettings, Service.ofSettings, Service.isMarked]
  agreesWith i j h := by simp [ofSettings] at h
  logged_lt := by simp [ofSettings]
  unasked i j h := by simp [ofSettings] at h

/-- A cancellation marks the current call, which does not have an outcome. -/
theorem IsSound.cancel {w : Traffic R} (h : w.IsSound) :
    ({ w with service := w.service.cancel } : Traffic R).IsSound := by
  have hsame : w.service.cancel.slot = w.service.slot ∧
      w.service.cancel.nextToken = w.service.nextToken := by
    unfold Service.cancel
    split <;> exact ⟨rfl, rfl⟩
  refine ⟨hsame.2.trans h.nextToken_eq, h.token_eq, h.hasToken, ?_, ?_, ?_, h.logged_lt,
    h.unasked⟩
  · intro i
    rw [hsame.1]
    exact h.slot_iff i
  · intro i hi
    rcases (w.service.isMarked_cancel i).mp hi with hmarked | hslot
    · exact h.marked_lt i hmarked
    · have hlast := ((h.slot_iff i).mp hslot).1
      dsimp only
      omega
  · intro i j hj ids hstage
    rw [Bool.eq_false_iff]
    intro hmark
    rcases (w.service.isMarked_cancel i).mp hmark with hmarked | hslot
    · exact absurd hmarked (Bool.eq_false_iff.mp (h.agreesWith i j hj ids hstage))
    · -- What the slot names is open, and what is open has not ended with identifiers.
      obtain ⟨-, j', hj', hopen⟩ := (h.slot_iff i).mp hslot
      obtain rfl := Option.some.inj (hj.symm.trans hj')
      rw [hstage] at hopen
      exact hopen

/-- Only tokens, calls and what they did matter. -/
theorem IsSound.congr {w w' : Traffic R} (h : w.IsSound) (htokens : w.service.SameTokens w'.service)
    (hjourneys : w'.journeys = w.journeys) (hlog : w'.log = w.log) : w'.IsSound := by
  obtain ⟨hslot, hmarked, hnext⟩ := htokens
  have hmark : ∀ i : Nat, w'.service.isMarked i = w.service.isMarked i := by
    intro i
    rw [Service.isMarked, Service.isMarked, hmarked]
  refine ⟨?_, ?_, ?_, ?_, ?_, ?_, ?_, ?_⟩
  · rw [hnext, hjourneys]
    exact h.nextToken_eq
  · rw [hjourneys]
    exact h.token_eq
  · rw [hjourneys]
    exact h.hasToken
  · intro i
    rw [hslot, IsCurrent, hjourneys]
    exact h.slot_iff i
  · intro i
    rw [hmark, hjourneys]
    exact h.marked_lt i
  · intro i j
    rw [hmark, hjourneys]
    exact h.agreesWith i j
  · rw [hlog, hjourneys]
    exact h.logged_lt
  · rw [hlog, hjourneys]
    exact h.unasked

end Traffic

/-! ### Steps -/

variable [Scalar R]

namespace Service

/-- Ends a call that has left the slot. -/
def judge (s : Service R) (token : Token) (plan : Plan R) :
    Except (ServiceError R) (List (Row R)) → Step R
  | .error e => s.conclude (.error e)
  | .ok rows => if s.isMarked token then s.conclude (.error .cancelled) else s.report plan rows

/-- The outcome of a call that has left the slot. -/
def verdict (s : Service R) (token : Token) (plan : Plan R) :
    Except (ServiceError R) (List (Row R)) → Outcome R
  | .error e => .error e
  | .ok rows => if s.isMarked token then .error .cancelled else .ok (plan.reported rows)

/-- When its engine is done with a call, the call leaves the slot and looks at its mark. -/
theorem resume_eq_judge (s : Service R) {call : Call R} {reply : Reply R} {plan : Plan R}
    {rows : Except (ServiceError R) (List (Row R))} (h : call.returns? reply = some (plan, rows)) :
    ∃ token, call.token? = some token ∧
      s.resume call reply = (s.finish token).judge token plan rows := by
  have hsettle : ∀ token, s.settle token plan rows = (s.finish token).judge token plan rows := by
    intro token
    cases rows <;> rfl
  unfold Call.returns? at h
  split at h <;> cases h
  · exact ⟨_, rfl, hsettle _⟩
  · exact ⟨_, rfl, hsettle _⟩
  · exact ⟨_, rfl, hsettle _⟩

/-- A call that starts takes a token and asks for a connection, or ends without one. -/
theorem start_tokens (s : Service R) (now : Instant) (q : SpatialQuery R) (c : Context R) :
    ((∃ outcome, (s.start now q c).call = .finished outcome) ∧
        s.SameTokens (s.start now q c).service) ∨
      ∃ plan, (s.start now q c).call = .connecting s.nextToken plan ∧
        s.begin.SameTokens (s.start now q c).service := by
  have hframe := contractFor_frame s now q c
  have hslot : (s.contractFor now q c).2.slot = s.slot := by rw [hframe]
  have hmarked : (s.contractFor now q c).2.marked = s.marked := by rw [hframe]
  have hnext : (s.contractFor now q c).2.nextToken = s.nextToken := by rw [hframe]
  unfold start
  split
  · exact .inl ⟨⟨_, rfl⟩, rfl, rfl, rfl⟩
  · simp only [enter, Step.after]
    split
    · exact .inl ⟨⟨_, rfl⟩, rfl, rfl, rfl⟩
    · simp only [contractFor_enter]
      cases (s.contractFor now q c).1 with
      | error e => exact .inl ⟨⟨_, rfl⟩, hslot, hmarked, hnext⟩
      | ok contract =>
        dsimp only
        cases Plan.ofContract contract c (s.contractFor now q c).2.settings with
        | error e => exact .inl ⟨⟨_, rfl⟩, hslot, hmarked, hnext⟩
        | ok plan =>
          refine .inr ⟨plan, ?_, ?_, ?_, ?_⟩
          · simp only [connect, enter, Step.after, hnext]
          · simp only [connect, enter, Step.after, begin, hnext]
          · simp only [connect, enter, Step.after, begin, hmarked]
          · simp only [connect, enter, Step.after, begin, hnext]

/-- The last look ends the call, touches no token, and asks nothing. -/
theorem judge_shape (s : Service R) (token : Token) (plan : Plan R)
    (rows : Except (ServiceError R) (List (Row R))) :
    (s.judge token plan rows).call = .finished (s.verdict token plan rows) ∧
      s.SameTokens (s.judge token plan rows).service ∧
      ∀ request, .query request ∉ (s.judge token plan rows).actions := by
  have hreport : ∀ rows, (s.report plan rows).call = .finished (.ok (plan.reported rows)) ∧
      s.SameTokens (s.report plan rows).service ∧
      ∀ request, .query request ∉ (s.report plan rows).actions := by
    intro rows
    unfold report Plan.reported
    cases plan.refinement with
    | none => exact ⟨rfl, ⟨rfl, rfl, rfl⟩, by simp [conclude, enter, Step.after]⟩
    | some r => exact ⟨rfl, ⟨rfl, rfl, rfl⟩, by simp [conclude, enter, Step.after]⟩
  cases rows with
  | error e => exact ⟨rfl, ⟨rfl, rfl, rfl⟩, by simp [judge, conclude, enter, Step.after]⟩
  | ok rows =>
    rw [judge, verdict]
    by_cases hmark : s.isMarked token = true
    · rw [if_pos hmark, if_pos hmark]
      exact ⟨rfl, ⟨rfl, rfl, rfl⟩, by simp [conclude, enter, Step.after]⟩
    · rw [if_neg hmark, if_neg hmark]
      exact hreport rows

end Service

/-- What a step of a call leads to: what calls share afterwards, the stage of the call, and what it
did. There is none if the call is not at the point to take the step. -/
def Journey.move (s : Service R) (j : Journey R) :
    Journey.Move R → Option (Service R × Stage R × List (Action R))
  | .reply r =>
    match j.stage with
    | .waiting call =>
      match call.returns? r with
      | some (plan, rows) => some (s, .returned plan rows, [])
      | none =>
        let t := s.resume call r
        some (t.service, .ofCall t.call, t.actions)
    | _ => none
  | .release =>
    match j.stage with
    | .returned plan rows => some (s.finish j.token, .released plan rows, [])
    | _ => none
  | .judge =>
    match j.stage with
    | .released plan rows =>
      let t := s.judge j.token plan rows
      some (t.service, .ofCall t.call, t.actions)
    | _ => none

namespace Traffic

/-- The traffic after an event. -/
def step (w : Traffic R) : Event R → Traffic R
  | .begin plan =>
    let t := w.service.connect plan
    { service := t.service
      journeys := w.journeys ++ [⟨w.service.nextToken, .ofCall t.call⟩]
      log := w.log ++ t.actions.map fun a => (w.journeys.length, a) }
  | .move i m =>
    match w.journeys[i]? with
    | none => w
    | some j =>
      match j.move w.service m with
      | none => w
      | some (service, stage, actions) =>
        { service
          journeys := w.journeys.set i { j with stage }
          log := w.log ++ actions.map fun a => (i, a) }
  | .cancel => { w with service := w.service.cancel }
  | .turn service =>
    { w with
      service := { service with
        slot := w.service.slot
        marked := w.service.marked
        nextToken := w.service.nextToken } }

/-- The traffic after several events. -/
def run (w : Traffic R) (events : List (Event R)) : Traffic R :=
  events.foldl step w

end Traffic

/-! ### The way of a call -/

/-- The way of a call from stage to stage. It asks only if it is not marked by then. -/
inductive Journey.Goes (s : Service R) (token : Token) :
    Stage R → Journey.Move R → Service R → Stage R → List (Action R) → Prop
  | asks (plan : Plan R) (h : s.isMarked token = false) :
    Goes s token (.waiting (.connecting token plan)) (.reply .connected) s
      (.waiting (.querying token plan)) [.query plan.request]
  | turns (plan : Plan R) (h : s.isMarked token = true) :
    Goes s token (.waiting (.connecting token plan)) (.reply .connected) s
      (.waiting (.closing token plan (.error .cancelled))) [.close]
  | refused (plan : Plan R) (cause : ServiceError R) :
    Goes s token (.waiting (.connecting token plan)) (.reply (.refused cause)) s
      (.returned plan (.error cause)) []
  | answered (plan : Plan R) (r : QueryReply R) :
    Goes s token (.waiting (.querying token plan)) (.reply (.answered r)) s
      (.waiting (.closing token plan (Service.rowsOf r))) [.close]
  | closed (plan : Plan R) (rows : Except (ServiceError R) (List (Row R))) (r : Reply R)
    (h : r = .closed ∨ ∃ cause, r = .closeFailed cause) :
    Goes s token (.waiting (.closing token plan rows)) (.reply r) s (.returned plan rows) []
  | releases (plan : Plan R) (rows : Except (ServiceError R) (List (Row R))) :
    Goes s token (.returned plan rows) .release (s.finish token) (.released plan rows) []
  | ends (plan : Plan R) (rows : Except (ServiceError R) (List (Row R))) {t : Service R}
    (ht : s.SameTokens t) {actions : List (Action R)} (h : ∀ request, .query request ∉ actions) :
    Goes s token (.released plan rows) .judge t (.ended (s.verdict token plan rows)) actions

/-- An answer takes a call on its way, or leaves all as it is if the call does not wait for it. -/
theorem Journey.goes_of_reply {s : Service R} {token : Token} {call : Call R}
    (htoken : call.token? = some token) {r : Reply R} {t : Service R} {stage : Stage R}
    {actions : List (Action R)}
    (h : (⟨token, .waiting call⟩ : Journey R).move s (.reply r) = some (t, stage, actions)) :
    (t = s ∧ stage = .waiting call ∧ actions = []) ∨
      Goes s token (.waiting call) (.reply r) t stage actions := by
  unfold move at h
  cases call with
  | finished outcome => cases htoken
  | connecting token' plan =>
    cases htoken
    cases r with
    | connected =>
      simp only [Call.returns?, Service.resume, Service.ask] at h
      cases hmark : s.isMarked token with
      | false =>
        rw [hmark] at h
        cases h
        exact .inr (.asks plan hmark)
      | true =>
        rw [hmark] at h
        cases h
        exact .inr (.turns plan hmark)
    -- A reply to something that the call did not ask for changes nothing.
    | refused cause =>
      cases h
      exact .inr (.refused plan cause)
    | _ =>
      cases h
      exact .inl ⟨rfl, rfl, rfl⟩
  | querying token' plan =>
    cases htoken
    cases r with
    | answered r =>
      cases h
      exact .inr (.answered plan r)
    | _ =>
      cases h
      exact .inl ⟨rfl, rfl, rfl⟩
  | closing token' plan rows =>
    cases htoken
    cases r with
    | closed =>
      cases h
      exact .inr (.closed plan rows _ (.inl rfl))
    | closeFailed cause =>
      cases h
      exact .inr (.closed plan rows _ (.inr ⟨cause, rfl⟩))
    | _ =>
      cases h
      exact .inl ⟨rfl, rfl, rfl⟩

/-- A step takes a call on its way, or leaves all as it is. -/
theorem Journey.goes_of_move {s : Service R} {j : Journey R} (hj : j.HasToken) {m : Journey.Move R}
    {t : Service R} {stage : Stage R} {actions : List (Action R)}
    (h : j.move s m = some (t, stage, actions)) :
    (t = s ∧ stage = j.stage ∧ actions = []) ∨ Goes s j.token j.stage m t stage actions := by
  obtain ⟨token, stage₀⟩ := j
  cases m with
  | release =>
    cases stage₀ with
    | returned plan rows =>
      cases h
      exact .inr (.releases plan rows)
    | _ => cases h
  | judge =>
    cases stage₀ with
    | released plan rows =>
      obtain ⟨hcall, htokens, hactions⟩ := s.judge_shape token plan rows
      simp only [move, hcall, Option.some.injEq, Prod.mk.injEq] at h
      obtain ⟨rfl, rfl, rfl⟩ := h
      exact .inr (.ends plan rows htokens hactions)
    | _ => cases h
  | reply r =>
    cases stage₀ with
    | waiting call => exact goes_of_reply (hj call rfl) h
    | _ => cases h

namespace Journey

variable {s t : Service R} {token : Token} {m : Journey.Move R} {stage stage' : Stage R}
  {actions : List (Action R)}

/-- Only the step out of the slot touches it, and no step touches a mark. -/
theorem Goes.frame (h : Goes s token stage m t stage' actions) :
    t.marked = s.marked ∧ t.nextToken = s.nextToken ∧
      ((t.slot = s.slot ∧ (stage'.IsOpen ↔ stage.IsOpen)) ∨
        (t.slot = (s.finish token).slot ∧ ¬stage'.IsOpen)) := by
  have hfinish : (s.finish token).marked = s.marked ∧
      (s.finish token).nextToken = s.nextToken := by
    unfold Service.finish
    split <;> exact ⟨rfl, rfl⟩
  cases h with
  | releases plan rows => exact ⟨hfinish.1, hfinish.2, .inr ⟨rfl, not_false⟩⟩
  | ends plan rows ht h => exact ⟨ht.marked_eq, ht.nextToken_eq, .inl ⟨ht.slot_eq, Iff.rfl⟩⟩
  | _ => exact ⟨rfl, rfl, .inl ⟨rfl, Iff.rfl⟩⟩

/-- A call goes on with its own token. -/
theorem Goes.hasToken (h : Goes s token stage m t stage' actions) :
    (⟨token, stage'⟩ : Journey R).HasToken := by
  intro call hcall
  cases h <;> cases hcall <;> rfl

/-- A call does not wait for a second connection. -/
theorem Goes.not_isConnecting (h : Goes s token stage m t stage' actions) :
    ¬stage'.IsConnecting := by
  cases h <;> exact not_false

/-- A call looks at its mark last of all before it succeeds. -/
theorem Goes.agreesWith (h : Goes s token stage m t stage' actions) :
    stage'.AgreesWith (s.isMarked token) := by
  intro ids hended
  cases h with
  | ends plan rows ht h =>
    cases rows with
    | error e => cases hended
    | ok rows =>
      cases hmark : s.isMarked token with
      | false => rfl
      | true => simp [Service.verdict, hmark] at hended
  | _ => cases hended

/-- A call asks on its first step only, and not if it is marked. -/
theorem Goes.unmarked_of_query (h : Goes s token stage m t stage' actions) {request : Request R}
    (hquery : .query request ∈ actions) : s.isMarked token = false := by
  cases h with
  | asks plan h => exact h
  | ends plan rows ht h => exact absurd hquery (h request)
  | _ => simp at hquery

end Journey

/-! ### Runs -/

namespace Traffic

/-- All that an event can do: a call takes a token, a call goes on its way, the call in the slot is
marked, or tokens and calls stay as they are. -/
theorem step_cases {w : Traffic R} (hw : ∀ j ∈ w.journeys, j.HasToken) (event : Event R) :
    (∃ plan phase, event = .begin plan ∧ w.step event =
      ⟨{ w.service.begin with phase },
        w.journeys ++ [⟨w.service.nextToken, .waiting (.connecting w.service.nextToken plan)⟩],
        w.log ++ [(w.journeys.length, .enter phase), (w.journeys.length, .connect)]⟩) ∨
    (∃ i m j t stage actions, event = .move i m ∧ w.journeys[i]? = some j ∧
      Journey.Goes w.service j.token j.stage m t stage actions ∧ w.step event =
        ⟨t, w.journeys.set i ⟨j.token, stage⟩, w.log ++ actions.map fun a => (i, a)⟩) ∨
    (event = .cancel ∧ w.step event = { w with service := w.service.cancel }) ∨
    (event ≠ .cancel ∧ w.service.SameTokens (w.step event).service ∧
      (w.step event).journeys = w.journeys ∧ (w.step event).log = w.log) := by
  cases event with
  | begin plan => exact .inl ⟨plan, .executing, rfl, rfl⟩
  | cancel => exact .inr (.inr (.inl ⟨rfl, rfl⟩))
  | turn service =>
    exact .inr (.inr (.inr ⟨by simp, ⟨rfl, rfl, rfl⟩, rfl, rfl⟩))
  | move i m =>
    have hsame : w.step (.move i m) = w →
        (Event.move i m : Event R) ≠ .cancel ∧ w.service.SameTokens (w.step (.move i m)).service ∧
          (w.step (.move i m)).journeys = w.journeys ∧ (w.step (.move i m)).log = w.log := by
      intro h
      rw [h]
      exact ⟨by simp, ⟨rfl, rfl, rfl⟩, rfl, rfl⟩
    cases hj : w.journeys[i]? with
    | none => exact .inr (.inr (.inr (hsame (by rw [step, hj]))))
    | some j =>
      cases hmove : j.move w.service m with
      | none => exact .inr (.inr (.inr (hsame (by simp only [step, hj, hmove]))))
      | some result =>
        obtain ⟨t, stage, actions⟩ := result
        have hstep : w.step (.move i m) =
            ⟨t, w.journeys.set i ⟨j.token, stage⟩, w.log ++ actions.map fun a => (i, a)⟩ := by
          simp only [step, hj, hmove]
        rcases Journey.goes_of_move (hw j (List.mem_of_getElem? hj)) hmove with
          ⟨rfl, rfl, rfl⟩ | hgoes
        · refine .inr (.inr (.inr (hsame ?_)))
          obtain ⟨hi, hget⟩ := List.getElem?_eq_some_iff.mp hj
          rw [hstep, List.map_nil, List.append_nil, ← hget, List.set_getElem_self]
        · exact .inr (.inl ⟨i, m, j, t, stage, actions, rfl, hj, hgoes, hstep⟩)

/-- A new call has the slot. -/
theorem IsSound.slot_begin {w : Traffic R} (h : w.IsSound) (plan : Plan R) (i : Nat) :
    (w.step (.begin plan)).service.slot = some i ↔ (w.step (.begin plan)).IsCurrent i := by
  have hslot : (w.step (.begin plan)).service.slot = some w.service.nextToken := rfl
  have hlength : (w.step (.begin plan)).journeys.length = w.journeys.length + 1 :=
    List.length_append
  rw [hslot, Option.some_inj, h.nextToken_eq, IsCurrent, hlength]
  constructor
  · rintro rfl
    exact ⟨rfl, _, List.getElem?_concat_length, trivial⟩
  · rintro ⟨hlast, -⟩
    exact (Nat.succ.inj hlast).symm

/-- A new call is the current one, with a token that has never been marked. -/
theorem IsSound.begin {w : Traffic R} (h : w.IsSound) (plan : Plan R) :
    (w.step (.begin plan)).IsSound := by
  have hlength : (w.step (.begin plan)).journeys.length = w.journeys.length + 1 :=
    List.length_append
  have hget : ∀ (i : Nat) (j : Journey R), (w.step (.begin plan)).journeys[i]? = some j →
      w.journeys[i]? = some j ∨ i = w.journeys.length ∧
        j = ⟨w.service.nextToken, .waiting (.connecting w.service.nextToken plan)⟩ :=
    fun i j => getElem?_or_eq_of_concat
  have hunasked : ∀ request, .query request ∉ (w.service.connect plan).actions := by
    simp [Service.connect, Service.enter, Step.after]
  refine ⟨?_, ?_, ?_, h.slot_begin plan, ?_, ?_, ?_, ?_⟩
  · rw [hlength, ← h.nextToken_eq]
    rfl
  · intro i j hj
    rcases hget i j hj with hold | ⟨rfl, rfl⟩
    · exact h.token_eq i j hold
    · exact h.nextToken_eq
  · intro j hj
    rcases List.mem_append.mp hj with hold | hnew
    · exact h.hasToken j hold
    · rw [List.mem_singleton.mp hnew]
      intro call hcall
      cases hcall
      rfl
  · intro i hi
    rw [hlength]
    exact Nat.lt_succ_of_lt (h.marked_lt i hi)
  · intro i j hj
    change j.stage.AgreesWith (w.service.isMarked i)
    rcases hget i j hj with hold | ⟨rfl, rfl⟩
    · exact h.agreesWith i j hold
    · intro ids hended
      cases hended
  · intro p hp
    rw [hlength]
    rcases mem_or_of_mem_log hp with hold | ⟨heq, -⟩
    · exact Nat.lt_succ_of_lt (h.logged_lt p hold)
    · rw [heq]
      exact Nat.lt_succ_self _
  · intro i j hj hconnecting request hquery
    rcases mem_or_of_mem_log hquery with hold | ⟨-, hnew⟩
    · rcases hget i j hj with hbefore | ⟨rfl, -⟩
      · exact h.unasked i j hbefore hconnecting request hold
      · exact lt_irrefl _ (h.logged_lt _ hold)
    · exact hunasked request hnew

/-- The slot has the token of the current call still, and is empty if that has left it. -/
theorem IsSound.slot_goes {w : Traffic R} (h : w.IsSound) {m : Journey.Move R} {j : Journey R}
    {t : Service R} {stage : Stage R} {actions : List (Action R)}
    (hj : w.journeys[j.token]? = some j)
    (hgoes : Journey.Goes w.service j.token j.stage m t stage actions)
    (log : List (Nat × Action R)) (k : Nat) :
    t.slot = some k ↔
      (⟨t, w.journeys.set j.token ⟨j.token, stage⟩, log⟩ : Traffic R).IsCurrent k := by
  obtain ⟨hi, -⟩ := List.getElem?_eq_some_iff.mp hj
  rw [isCurrent_set hi]
  rcases hgoes.frame.2.2 with ⟨hslot, hopen⟩ | ⟨hslot, hclosed⟩
  · rw [hslot, h.slot_iff]
    split
    · rename_i heq
      rw [heq, IsCurrent, hj, hopen]
      simp
    · exact Iff.rfl
  · -- the slot is left if it has the token of the call, which then is the latest
    rw [hslot, Service.finish]
    split <;> split
    · rename_i hcurrent heq
      simp [hclosed]
    · rename_i hcurrent hne
      have hlast := ((h.slot_iff j.token).mp hcurrent).1
      refine iff_of_false (by simp) fun hk => hne ?_
      exact Nat.succ.inj (hk.1.trans hlast.symm)
    · rename_i hother heq
      rw [heq]
      exact iff_of_false hother fun hk => hclosed hk.2
    · exact h.slot_iff k

/-- A call that goes on its way changes nothing for the others. The slot it leaves for good. -/
theorem IsSound.goes {w : Traffic R} (h : w.IsSound) {i : Nat} {m : Journey.Move R} {j : Journey R}
    {t : Service R} {stage : Stage R} {actions : List (Action R)} (hj : w.journeys[i]? = some j)
    (hgoes : Journey.Goes w.service j.token j.stage m t stage actions) :
    (⟨t, w.journeys.set i ⟨j.token, stage⟩, w.log ++ actions.map fun a => (i, a)⟩ :
      Traffic R).IsSound := by
  obtain ⟨hi, -⟩ := List.getElem?_eq_some_iff.mp hj
  obtain rfl := h.token_eq i j hj
  obtain ⟨hmarked, hnext, -⟩ := hgoes.frame
  have hmark : ∀ k : Nat, t.isMarked k = w.service.isMarked k := by
    intro k
    rw [Service.isMarked, Service.isMarked, hmarked]
  -- The call that moves is looked at by itself, and the others are what they were.
  refine ⟨?_, ?_, ?_, h.slot_goes hj hgoes _, ?_, ?_, ?_, ?_⟩
  · rw [hnext, h.nextToken_eq, List.length_set]
  · intro k j' hk
    rcases eq_or_getElem?_of_set hk with ⟨rfl, rfl⟩ | ⟨-, hold⟩
    · rfl
    · exact h.token_eq k j' hold
  · intro j' hj'
    rcases List.mem_or_eq_of_mem_set hj' with hold | rfl
    · exact h.hasToken j' hold
    · exact hgoes.hasToken
  · intro k hk
    rw [hmark] at hk
    rw [List.length_set]
    exact h.marked_lt k hk
  · intro k j' hk
    rw [hmark]
    rcases eq_or_getElem?_of_set hk with ⟨rfl, rfl⟩ | ⟨-, hold⟩
    · exact hgoes.agreesWith
    · exact h.agreesWith k j' hold
  · intro p hp
    rw [List.length_set]
    rcases mem_or_of_mem_log hp with hold | ⟨heq, -⟩
    · exact h.logged_lt p hold
    · rw [heq]
      exact hi
  · intro k j' hk hconnecting request hquery
    rcases eq_or_getElem?_of_set hk with ⟨rfl, rfl⟩ | ⟨hne, hold⟩
    · exact hgoes.not_isConnecting hconnecting
    · rcases mem_or_of_mem_log hquery with hbefore | ⟨heq, -⟩
      · exact h.unasked k j' hold hconnecting request hbefore
      · exact hne heq

/-- What holds of the traffic holds after every event. -/
theorem isSound_step {w : Traffic R} (h : w.IsSound) (event : Event R) :
    (w.step event).IsSound := by
  rcases step_cases h.hasToken event with ⟨plan, phase, rfl, -⟩ |
    ⟨i, m, j, t, stage, actions, -, hj, hgoes, hstep⟩ | ⟨-, hstep⟩ | ⟨-, htokens, hjourneys, hlog⟩
  · exact h.begin plan
  · rw [hstep]
    exact h.goes hj hgoes
  · rw [hstep]
    exact h.cancel
  · exact h.congr htokens hjourneys hlog

/-- So it holds after every run. -/
theorem isSound_run (settings : Settings) (events : List (Event R)) :
    ((ofSettings settings).run events).IsSound := by
  have hrun : ∀ w : Traffic R, w.IsSound → (w.run events).IsSound := by
    induction events with
    | nil => exact fun w h => h
    | cons event rest ih => exact fun w h => ih _ (isSound_step h event)
  exact hrun _ (isSound_ofSettings settings)

end Traffic

end TransitQuery
