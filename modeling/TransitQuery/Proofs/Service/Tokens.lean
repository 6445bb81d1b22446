import Mathlib.Data.List.Induction
import TransitQuery.Proofs.Service.Traffic

/-!
# Whom a cancellation reaches

Calls begin, go on their ways and end, and now and then the service is asked to cancel. A
cancellation reaches the call that began last, if it has not left the slot, and no other. What a
call comes to depends on whether one has reached it by the time it looks: before it asks its
engine, and after it has left the slot (`Traffic.keepsTokens_run`).

Events are stated by what happens in the traffic before them (`Traffic.Meets`), without the marks
and the tokens of the service: a cancellation reaches a call if it is current at that moment
(`Traffic.Reaches`). `Traffic.isMarked_run` says that marks record just this. The rules are the
fields of `KeepsTokens`:

* calls have tokens of their own, and the slot holds that of the current call, if there is one;
* a cancellation marks the current call and no other, and no other call takes its token away;
* a call that is marked does not succeed, and if it was marked before it had a connection, it never
  asks;
* one that ends as cancelled has been reached, or its engine has said so.

Marks come and stay, so each rule is an induction over the events with the state of one call in
view, and steps of other calls leave that alone (`Traffic.slot_move`, `Traffic.journey_step`).
-/

namespace TransitQuery

variable {R : Type} [Scalar R]

/-- An answer by which an engine reports a cancellation of its own. -/
def Reply.IsCancelled : Reply R → Prop
  | refused .cancelled | answered (.failed .cancelled) => True
  | _ => False

/-- A call fails as cancelled because of its mark, or because its engine says so. -/
theorem Journey.Goes.cancelled_cases {s t : Service R} {token : Token} {m : Journey.Move R}
    {stage stage' : Stage R} {actions : List (Action R)}
    (h : Goes s token stage m t stage' actions) (herror : stage'.error? = some .cancelled) :
    stage.error? = some .cancelled ∨ s.isMarked token = true ∨
      ∃ r, m = .reply r ∧ r.IsCancelled := by
  -- A cancellation comes from the mark or from the engine. All other moves hand it on.
  cases h with
  | asks plan hmark => cases herror
  | turns plan hmark => exact .inr (.inl hmark)
  | refused plan cause =>
    cases herror
    exact .inr (.inr ⟨_, rfl, trivial⟩)
  | answered plan reply =>
    cases reply with
    | rows rows => cases herror
    | failed cause =>
      cases herror
      exact .inr (.inr ⟨_, rfl, trivial⟩)
    | timedOut limit => cases herror
  | closed plan rows r hlast =>
    cases rows with
    | error e => exact .inl herror
    | ok rows => cases herror
  | releases plan rows =>
    cases rows with
    | error e => exact .inl herror
    | ok rows => cases herror
  | ends plan rows ht hactions =>
    cases rows with
    | error e => exact .inl herror
    | ok rows =>
      cases hmark : s.isMarked token with
      | true => exact .inr (.inl rfl)
      | false => simp [Stage.error?, Service.verdict, hmark] at herror

namespace Traffic

/-! ### What happened during a run -/

/-- During a run from `w` an event happened of which `P` holds, with the traffic before it. -/
def Meets (w : Traffic R) (events : List (Event R)) (P : Traffic R → Event R → Prop) : Prop :=
  ∃ before event after, events = before ++ event :: after ∧ P (w.run before) event

/-- A run may be made in two portions. -/
theorem run_append (w : Traffic R) (before after : List (Event R)) :
    w.run (before ++ after) = (w.run before).run after :=
  List.foldl_append

/-- What happened by the end of a run happened before, or in the last event. -/
theorem meets_concat (w : Traffic R) (events : List (Event R)) (event : Event R)
    (P : Traffic R → Event R → Prop) :
    w.Meets (events ++ [event]) P ↔ w.Meets events P ∨ P (w.run events) event := by
  constructor
  · rintro ⟨before, e, after, heq, h⟩
    rcases List.eq_nil_or_concat after with rfl | ⟨rest, last, rfl⟩
    · obtain ⟨rfl, hlast⟩ := List.append_inj' heq rfl
      obtain ⟨rfl, -⟩ := List.cons.inj hlast
      exact .inr h
    · rw [List.concat_eq_append, ← List.cons_append, ← List.append_assoc] at heq
      obtain ⟨rfl, -⟩ := List.append_inj' heq rfl
      exact .inl ⟨before, e, rest, rfl, h⟩
  · rintro (⟨before, e, after, rfl, h⟩ | h)
    · exact ⟨before, e, after ++ [event], by simp, h⟩
    · exact ⟨events, event, [], rfl, h⟩

/-- A cancellation during a run reached the call with a number: it was the latest then, and had not
left the slot. -/
def Reaches (w : Traffic R) (events : List (Event R)) (i : Nat) : Prop :=
  w.Meets events fun w event => event = .cancel ∧ w.IsCurrent i

/-- Marks come by cancellations that reach a call. -/
theorem isMarked_step {w : Traffic R} (h : w.IsSound) (event : Event R) (i : Nat) :
    (w.step event).service.isMarked i = true ↔
      w.service.isMarked i = true ∨ event = .cancel ∧ w.IsCurrent i := by
  have hsame : ∀ t : Service R, t.marked = w.service.marked → event ≠ .cancel →
      (t.isMarked i = true ↔
        w.service.isMarked i = true ∨ event = .cancel ∧ w.IsCurrent i) := by
    intro t hmarked hne
    rw [Service.isMarked, hmarked, ← Service.isMarked]
    exact (or_iff_left fun h => hne h.1).symm
  rcases step_cases h.hasToken event with ⟨plan, phase, rfl, hstep⟩ |
    ⟨k, m, j, t, stage, actions, rfl, hj, hgoes, hstep⟩ | ⟨rfl, hstep⟩ | ⟨hne, htokens, -, -⟩
  · exact hsame _ rfl (by simp)
  · rw [hstep]
    exact hsame _ hgoes.frame.1 (by simp)
  · rw [hstep, ← h.slot_iff]
    simpa using w.service.isMarked_cancel i
  · exact hsame _ htokens.marked_eq hne

/-- A call is marked just if a cancellation reached it. -/
theorem isMarked_run (settings : Settings) (events : List (Event R)) (i : Nat) :
    ((ofSettings settings).run events).service.isMarked i = true ↔
      (ofSettings settings).Reaches events i := by
  induction events using List.reverseRecOn with
  | nil => simp [Reaches, Meets, run, ofSettings, Service.ofSettings, Service.isMarked]
  | append_singleton events event ih =>
    rw [Reaches, meets_concat, ← Reaches, ← ih, run_append]
    exact isMarked_step (isSound_run settings events) event i

/-- A marked call that has not asked yet does not ask any more. -/
theorem unasked_step {w : Traffic R} (h : w.IsSound) {i : Nat}
    (hmark : w.service.isMarked i = true) (hlog : ∀ request, (i, .query request) ∉ w.log)
    (event : Event R) : ∀ request, (i, .query request) ∉ (w.step event).log := by
  rcases step_cases h.hasToken event with ⟨plan, phase, -, hstep⟩ |
    ⟨k, m, j, t, stage, actions, -, hj, hgoes, hstep⟩ | ⟨-, hstep⟩ | ⟨-, -, -, hsame⟩
  · rw [hstep]
    simpa using hlog
  · rw [hstep]
    intro request hquery
    rcases List.mem_append.mp hquery with hold | hnew
    · exact hlog request hold
    · obtain ⟨a, ha, heq⟩ := List.mem_map.mp hnew
      obtain ⟨rfl, rfl⟩ := Prod.mk.inj heq
      have hunmarked := hgoes.unmarked_of_query ha
      rw [h.token_eq k j hj, hmark] at hunmarked
      cases hunmarked
  · rw [hstep]
    exact hlog
  · rw [hsame]
    exact hlog

private theorem unasked_run {w : Traffic R} (h : w.IsSound) {i : Nat}
    (hmark : w.service.isMarked i = true) (hlog : ∀ request, (i, .query request) ∉ w.log)
    (events : List (Event R)) : ∀ request, (i, .query request) ∉ (w.run events).log := by
  induction events generalizing w with
  | nil => exact hlog
  | cons event rest ih =>
    exact ih (isSound_step h event) ((isMarked_step h event i).mpr (.inl hmark))
      (unasked_step h hmark hlog event)

/-- A step of one call leaves the token of another in the slot. -/
theorem slot_move {w : Traffic R} (h : w.IsSound) {i k : Nat} (hne : i ≠ k)
    (hslot : w.service.slot = some k) (m : Journey.Move R) :
    (w.step (.move i m)).service.slot = some k := by
  rcases step_cases h.hasToken (.move i m) with ⟨plan, phase, hevent, -⟩ |
    ⟨i', m', j, t, stage, actions, hevent, hj, hgoes, hstep⟩ | ⟨hevent, -⟩ | ⟨-, htokens, -, -⟩
  · cases hevent
  · cases hevent
    rw [hstep]
    rcases hgoes.frame.2.2 with ⟨hsame, -⟩ | ⟨hleft, -⟩
    · exact hsame.trans hslot
    · have hother : w.service.slot ≠ some j.token := by
        rw [hslot, h.token_eq i j hj]
        exact fun heq => hne (Option.some.inj heq).symm
      rw [hleft, Service.finish, if_neg hother]
      exact hslot
  · cases hevent
  · exact htokens.slot_eq.trans hslot

/-- What an event does to one call: nothing, or it begins, or it goes on its way. -/
theorem journey_step {w : Traffic R} (hw : ∀ j ∈ w.journeys, j.HasToken) (event : Event R)
    (i : Nat) :
    (w.step event).journeys[i]? = w.journeys[i]? ∨
    (∃ plan token, event = .begin plan ∧ w.journeys[i]? = none ∧
      (w.step event).journeys[i]? = some ⟨token, .waiting (.connecting token plan)⟩) ∨
    (∃ m j t stage actions, event = .move i m ∧ w.journeys[i]? = some j ∧
      Journey.Goes w.service j.token j.stage m t stage actions ∧
      (w.step event).journeys[i]? = some ⟨j.token, stage⟩) := by
  rcases step_cases hw event with ⟨plan, phase, rfl, hstep⟩ |
    ⟨k, m, j, t, stage, actions, rfl, hj, hgoes, hstep⟩ | ⟨-, hstep⟩ | ⟨-, -, hsame, -⟩
  · rw [hstep]
    rcases lt_trichotomy i w.journeys.length with hlt | rfl | hgt
    · exact .inl (List.getElem?_append_left hlt)
    · exact .inr (.inl ⟨plan, _, rfl, List.getElem?_eq_none le_rfl, List.getElem?_concat_length⟩)
    · refine .inl ?_
      rw [List.getElem?_eq_none hgt.le, List.getElem?_eq_none]
      rw [List.length_append, List.length_singleton]
      exact hgt
  · rw [hstep]
    by_cases heq : k = i
    · subst heq
      obtain ⟨hi, -⟩ := List.getElem?_eq_some_iff.mp hj
      exact .inr (.inr ⟨m, j, t, stage, actions, rfl, hj, hgoes, List.getElem?_set_self hi⟩)
    · exact .inl (List.getElem?_set_ne heq)
  · rw [hstep]
    exact .inl rfl
  · rw [hsame]
    exact .inl rfl

/-- A call that fails as cancelled has been marked, or its engine has said so. -/
theorem isMarked_or_isCancelled (settings : Settings) (events : List (Event R)) {i : Nat}
    {j : Journey R} (hj : ((ofSettings settings).run events).journeys[i]? = some j)
    (herror : j.stage.error? = some .cancelled) :
    ((ofSettings settings).run events).service.isMarked i = true ∨
      ∃ r, .move i (.reply r) ∈ events ∧ r.IsCancelled := by
  induction events using List.reverseRecOn generalizing j with
  | nil => simp [run, ofSettings] at hj
  | append_singleton events event ih =>
    have hsound := isSound_run settings events
    rw [run_append] at hj ⊢
    -- marks stay, and so does what engines have said
    have hkeep : (((ofSettings settings).run events).service.isMarked i = true ∨
        ∃ r, .move i (.reply r) ∈ events ∧ r.IsCancelled) →
        (((ofSettings settings).run events).step event).service.isMarked i = true ∨
          ∃ r, .move i (.reply r) ∈ events ++ [event] ∧ r.IsCancelled := by
      rintro (hmark | ⟨r, hr, hcancelled⟩)
      · exact .inl ((isMarked_step hsound event i).mpr (.inl hmark))
      · exact .inr ⟨r, List.mem_append_left _ hr, hcancelled⟩
    rcases journey_step hsound.hasToken event i with hsame | ⟨plan, token, rfl, -, hnew⟩ |
      ⟨m, j', t, stage, actions, rfl, hj', hgoes, hnew⟩
    · exact hkeep (ih (hsame.symm.trans hj) herror)
    · obtain rfl := Option.some.inj (hnew.symm.trans hj)
      cases herror
    · obtain rfl := Option.some.inj (hnew.symm.trans hj)
      rcases hgoes.cancelled_cases herror with hbefore | hmark | ⟨r, rfl, hcancelled⟩
      · exact hkeep (ih hj' hbefore)
      · rw [hsound.token_eq i j' hj'] at hmark
        exact hkeep (.inl hmark)
      · exact .inr ⟨r, List.mem_append_right _ (List.mem_singleton.mpr rfl), hcancelled⟩

/-- The rules of tokens, marks and the slot, for the traffic that a run leads to. -/
structure KeepsTokens (settings : Settings) (events : List (Event R)) (w : Traffic R) : Prop where
  /-- Calls have tokens of their own: they are numbered as they begin. -/
  token_eq : ∀ (i : Nat) (j : Journey R), w.journeys[i]? = some j → j.token = i
  /-- The slot has the token of the call that began last, until that call leaves it. -/
  slot_iff : ∀ i : Nat, w.service.slot = some i ↔ w.IsCurrent i
  /-- A cancellation marks this call, and no other. -/
  cancel_iff : ∀ i : Nat, (w.step .cancel).service.isMarked i = true ↔
    w.service.isMarked i = true ∨ w.IsCurrent i
  /-- What another call does, leaving the slot included, does not touch the token in the slot. -/
  slot_move : ∀ (i k : Nat) (m : Journey.Move R), i ≠ k → w.service.slot = some k →
    (w.step (.move i m)).service.slot = some k
  /-- A call is marked if a cancellation has reached it, and not otherwise. -/
  isMarked_iff : ∀ i : Nat, w.service.isMarked i = true ↔
    (ofSettings settings).Reaches events i
  /-- A marked call does not succeed. -/
  ne_ok_of_isMarked : ∀ (i : Nat) (j : Journey R), w.journeys[i]? = some j →
    w.service.isMarked i = true → ∀ ids, j.stage ≠ .ended (.ok ids)
  /-- A call that has no connection yet when it is marked asks nothing. -/
  unasked : ∀ before after : List (Event R), events = before ++ after →
    ∀ (i : Nat) (j : Journey R), ((ofSettings settings).run before).journeys[i]? = some j →
      j.stage.IsConnecting → ((ofSettings settings).run before).service.isMarked i = true →
        ∀ request, (i, .query request) ∉ w.log
  /-- A call that no cancellation has reached does not end as cancelled, if its engine reports none
  of its own. -/
  reaches_of_cancelled : ∀ (i : Nat) (j : Journey R), w.journeys[i]? = some j →
    j.stage = .ended (.error .cancelled) → (∀ r, .move i (.reply r) ∈ events → ¬r.IsCancelled) →
      (ofSettings settings).Reaches events i

/-- Every run keeps the rules, however its calls are interleaved. -/
theorem keepsTokens_run (settings : Settings) (events : List (Event R)) :
    KeepsTokens settings events ((ofSettings settings).run events) := by
  -- All parts are read off the invariant of the run; the rest is one event or the events behind
  -- it.
  have h := isSound_run settings events
  refine ⟨h.token_eq, h.slot_iff, ?_, ?_, ?_, ?_, ?_, ?_⟩
  · intro i
    rw [isMarked_step h]
    simp
  · intro i k m hne hslot
    exact slot_move h hne hslot m
  · exact isMarked_run settings events
  · intro i j hj hmark ids hstage
    have hunmarked := h.agreesWith i j hj ids hstage
    rw [hmark] at hunmarked
    cases hunmarked
  · rintro before after rfl i j hj hconnecting hmark
    have hbefore := isSound_run settings before
    rw [run_append]
    exact unasked_run hbefore hmark (hbefore.unasked i j hj hconnecting) after
  · intro i j hj hstage hengine
    rw [← isMarked_run]
    have herror : j.stage.error? = some .cancelled := by
      rw [hstage]
      rfl
    rcases isMarked_or_isCancelled settings events hj herror with hmark | ⟨r, hr, hcancelled⟩
    · exact hmark
    · exact absurd hcancelled (hengine r hr)

/-- Of two calls, the second has the slot when the first has left, and is the one to be marked. -/
example (settings : Settings) (plan : Plan R) :
    ((ofSettings settings).run [.begin plan, .begin plan,
      .move 0 (.reply (.refused (.backend .closed))), .move 0 .release,
      .cancel]).service.marked = [1] := by
  rfl

end Traffic

end TransitQuery
