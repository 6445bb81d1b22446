import TransitQuery.Proofs.Plan
import TransitQuery.Service.Basic

/-!
# How calls start

Up to its connection a call depends on the service by what it finds in the cache, the settings and
the next token alone. What it does then is decided by the plan of its contract
(`Service.call_start`).

* `Service.contractFor_fst`, `Service.contractFor_frame`: the contract of a query is the one in the
  cache or else compiled, and on the way to it nothing but the cache is touched. The phase makes no
  difference (`Service.contractFor_enter`).
* `Service.callFor`: how a call with a contract goes on. Contracts that say the same in the context
  go on alike (`Service.callFor_eq_of_isLike`), which is where calls that share a contract meet
  calls that have their own.
* `Service.start_eq_of_ofContract`: all of the start of a call that can be planned: its phases, its
  token and its request, and what the service is afterwards.

Queries that are not valid never get here: they end before a contract is looked for.
-/

namespace TransitQuery

variable {R : Type} [Scalar R]

namespace Service

/-- The contract of a query is the one in the cache, or else compiled. -/
theorem contractFor_fst (s : Service R) (now : Instant) (q : SpatialQuery R) (c : Context R) :
    (s.contractFor now q c).1 =
      match s.cache.find? (CacheKey.ofContext q.hash c) with
      | some contract => .ok contract
      | none => q.compile now c := by
  unfold contractFor lookUp Cache.get
  dsimp only
  cases s.cache.find? (CacheKey.ofContext q.hash c) with
  | some contract => rfl
  | none => cases q.compile now c <;> rfl

/-- The contract of a query does not depend on the phase. -/
theorem contractFor_enter (s : Service R) (phase : Phase) (now : Instant) (q : SpatialQuery R)
    (c : Context R) :
    ({ s with phase } : Service R).contractFor now q c =
      ((s.contractFor now q c).1, { (s.contractFor now q c).2 with phase }) := by
  unfold contractFor lookUp Cache.get
  dsimp only
  cases s.cache.find? (CacheKey.ofContext q.hash c) with
  | some contract => rfl
  | none => cases q.compile now c <;> rfl

/-- Nothing but the cache is touched on the way to a contract. -/
theorem contractFor_frame (s : Service R) (now : Instant) (q : SpatialQuery R) (c : Context R) :
    (s.contractFor now q c).2 = { s with cache := (s.contractFor now q c).2.cache } := by
  unfold contractFor lookUp Cache.get
  dsimp only
  cases s.cache.find? (CacheKey.ofContext q.hash c) with
  | some contract => rfl
  | none => cases q.compile now c <;> rfl

/-- How a call with a contract goes on: it is connecting, or its contract cannot be planned. -/
def callFor (s : Service R) (c : Context R) (contract : Contract R) : Call R :=
  match Plan.ofContract contract c s.settings with
  | .error e => .finished (.error (.plan e))
  | .ok plan => .connecting s.nextToken plan

/-- Contracts that say the same in a context make no difference to the call. -/
theorem callFor_eq_of_isLike {contract contract' : Contract R} {c : Context R}
    (h : contract.IsLike contract' c) (s : Service R) :
    s.callFor c contract = s.callFor c contract' := by
  rw [callFor, callFor, Plan.ofContract_eq_of_isLike h]

/-- A call of a valid query goes on as its contract has it. -/
theorem call_start {s : Service R} {now : Instant} {q : SpatialQuery R} {c : Context R}
    {contract : Contract R} (hvalid : q.violations c = [])
    (hcontract : (s.contractFor now q c).1 = .ok contract) :
    (s.start now q c).call = s.callFor c contract := by
  have hsettings : (s.contractFor now q c).2.settings = s.settings := by rw [contractFor_frame]
  have htoken : (s.contractFor now q c).2.nextToken = s.nextToken := by rw [contractFor_frame]
  unfold start callFor
  split
  · rename_i hid
    rw [Plan.ofContract, Option.isNone_iff_eq_none.mp hid]
    rfl
  · simp only [enter, Step.after, hvalid, contractFor_enter, hcontract, hsettings]
    cases Plan.ofContract contract c s.settings with
    | error e => rfl
    | ok plan => simp only [connect, enter, Step.after, begin, htoken]

/-- A call of a valid query that can be planned goes through four phases, takes the slot with a
token of its own and asks for a connection. It touches neither the marks nor the settings. -/
theorem start_eq_of_ofContract {s : Service R} {now : Instant} {q : SpatialQuery R} {c : Context R}
    {contract : Contract R} {plan : Plan R} (hvalid : q.violations c = [])
    (hcontract : (s.contractFor now q c).1 = .ok contract)
    (hplan : Plan.ofContract contract c s.settings = .ok plan) :
    s.start now q c =
      ⟨{ s with
          cache := (s.contractFor now q c).2.cache
          slot := some s.nextToken
          nextToken := s.nextToken + 1
          phase := .executing },
        .connecting s.nextToken plan,
        [.enter .validating, .enter .compiling, .enter .buildingPredicate, .enter .executing,
          .connect]⟩ := by
  obtain ⟨idField, _, hid, -⟩ := Plan.exists_realizes_of_ofContract hplan
  have hsettings : (s.contractFor now q c).2.settings = s.settings := by rw [contractFor_frame]
  rw [start, if_neg (by simp [hid])]
  simp only [enter, Step.after, hvalid, contractFor_enter, hcontract, hsettings, hplan, connect,
    begin]
  rw [contractFor_frame]

/-- So such a call reaches the engine. -/
theorem start_reaches {s : Service R} {now : Instant} {q : SpatialQuery R} {c : Context R}
    {contract : Contract R} {plan : Plan R} (hvalid : q.violations c = [])
    (hcontract : (s.contractFor now q c).1 = .ok contract)
    (hplan : Plan.ofContract contract c s.settings = .ok plan) :
    (s.start now q c).call = .connecting s.nextToken plan ∧
      (s.start now q c).service.marked = s.marked ∧
      (s.start now q c).service.settings = s.settings := by
  rw [start_eq_of_ofContract hvalid hcontract hplan]
  exact ⟨rfl, rfl, rfl⟩

end Service

end TransitQuery
