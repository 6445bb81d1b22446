import TransitQuery.Proofs.Cache
import TransitQuery.Proofs.Query.Canonical
import TransitQuery.Proofs.Service.Start

/-!
# Calls that share a cache

Calls come to their contracts in three steps, each of which is taken at once: a look into the
cache, and after a miss a compilation and a deposit. A crowd is a service with any number of calls
on that way. Its events let one call take a step, in any order, and drop all contracts in between.

A contract that a call comes by may have been compiled for another call, of which only the key is
the same. The digest in the key then stands for all that a query asks for, and what the key does
not tell, the boundary, is taken from the context of the call. So the contract is planned as if the
call had compiled its own (`Crowd.served_isLike`).

* `Crowd.step` and `Crowd.run`: the events, of any number of calls and in any order. Only valid
  queries come this far.
* `Crowd.IsSound`: whatever is in the cache or held by a call is a contract that some call of the
  crowd compiles under the same key (`Crowd.Knows`). Evictions and clearing can only take away, and
  a deposit adds what is known.
* `Crowd.IsSeparated`: queries of the crowd whose digests are the same have the same canonical
  form. This is the only assumption, and it is about the queries of one run, since no digest can
  keep all queries apart.
* `Crowd.served_isLike`: what serves a call differs from its own contract in nothing that planning
  reads, and it is planned alike.

The example is a hit under another boundary: the second call is served by the contract of the first
one, whose boundary it does not have.
-/

namespace TransitQuery

/-- A query in a context. -/
structure Inquiry (R : Type) where
  query : SpatialQuery R
  context : Context R

/-- How far a call is on its way to a contract. -/
inductive Progress (R : Type) where
  | waiting
  /-- The call has looked and found nothing. -/
  | missed
  | compiled (contract : Contract R)
  | served (contract : Contract R)
  | failed (cause : CompileError R)

/-- A call on its way to a contract. -/
structure Visitor (R : Type) extends Inquiry R where
  progress : Progress R

/-- A service and the calls that are on their way, or have been. -/
structure Crowd (R : Type) where
  service : Service R
  visitors : List (Visitor R)

/-- A step of a call. -/
inductive Move where
  | look
  | compile (now : Instant)
  | deposit

/-- What happens to a crowd. -/
inductive Event (R : Type) where
  | arrive (inquiry : Inquiry R)
  /-- The call with a number takes a step. -/
  | move (i : Nat) (m : Move)
  | clear
  /-- Whatever else a service does leaves the cache as it is. -/
  | turn (service : Service R)

variable {R : Type}

/-- The contract that a call holds. -/
def Progress.contract? : Progress R → Option (Contract R)
  | compiled contract | served contract => some contract
  | _ => none

/-- The contract that serves a call. -/
def Progress.served? : Progress R → Option (Contract R)
  | served contract => some contract
  | _ => none

/-- A call that is served holds its contract for good. -/
private theorem Progress.eq_served_of_served? {p : Progress R} {contract : Contract R}
    (h : p.served? = some contract) : p = .served contract := by
  cases p <;> cases h
  rfl

/-- The text of a boundary that is given as text. -/
def Boundary.text? : Boundary R → Option String
  | wkt text => some text
  | geoJson _ => none

variable [Scalar R]

namespace Inquiry

/-- The key under which the contract of a query is kept. -/
def key (a : Inquiry R) : CacheKey :=
  CacheKey.ofContext a.query.hash a.context

/-- Whether a contract is compiled from a query in its context, at some time. -/
def Yields (a : Inquiry R) (contract : Contract R) : Prop :=
  ∃ now, a.query.compile now a.context = .ok contract

end Inquiry

namespace Visitor

/-- The service and the call after a step. A call that cannot take the step stays as it is. -/
def move (s : Service R) (v : Visitor R) : Move → Service R × Visitor R
  | .look =>
    match v.progress with
    | .waiting =>
      match s.lookUp v.key with
      | (some contract, s) => (s, { v with progress := .served contract })
      | (none, s) => (s, { v with progress := .missed })
    | _ => (s, v)
  | .compile now =>
    match v.progress with
    | .missed =>
      match v.query.compile now v.context with
      | .ok contract => (s, { v with progress := .compiled contract })
      | .error e => (s, { v with progress := .failed e })
    | _ => (s, v)
  | .deposit =>
    match v.progress with
    | .compiled contract => (s.deposit v.key contract, { v with progress := .served contract })
    | _ => (s, v)

end Visitor

namespace Crowd

/-- A service that has not been used, without calls. -/
def ofSettings (settings : Settings) : Crowd R where
  service := Service.ofSettings settings
  visitors := []

/-- The crowd after an event. Queries that are not valid go no further than to be checked. -/
def step (w : Crowd R) : Event R → Crowd R
  | .arrive a =>
    match a.query.violations a.context with
    | [] => { w with visitors := w.visitors ++ [⟨a, .waiting⟩] }
    | _ => w
  | .move i m =>
    match w.visitors[i]? with
    | none => w
    | some v =>
      let (service, v) := v.move w.service m
      { service, visitors := w.visitors.set i v }
  | .clear => { w with service := w.service.clearCache }
  | .turn service => { w with service := { service with cache := w.service.cache } }

/-- The crowd after several events. -/
def run (w : Crowd R) (events : List (Event R)) : Crowd R :=
  events.foldl step w

end Crowd

/-! ### What is known -/

/-- What a call may hold: it is valid, has not failed, and its contract is known under its key. -/
structure Visitor.IsSound (known : CacheKey → Contract R → Prop) (v : Visitor R) : Prop where
  valid : v.query.violations v.context = []
  held : ∀ contract ∈ v.progress.contract?, known v.key contract
  unfailed : ∀ e, v.progress ≠ .failed e

namespace Crowd

/-- Some call of a crowd has a key, and its query compiles to a contract. -/
def Knows (w : Crowd R) (key : CacheKey) (contract : Contract R) : Prop :=
  ∃ v ∈ w.visitors, v.key = key ∧ v.Yields contract

/-- Whatever is cached or held by a call is known. -/
structure IsSound (w : Crowd R) : Prop where
  cached : ∀ e ∈ w.service.cache.entries, w.Knows e.1 e.2
  visitor : ∀ v ∈ w.visitors, v.IsSound w.Knows

end Crowd

namespace Crowd

/-- All that an event can do: a call with a valid query arrives, a call takes a step, or the calls
stay as they are and nothing is added to the cache. -/
theorem step_cases (w : Crowd R) (event : Event R) :
    (∃ a : Inquiry R, a.query.violations a.context = [] ∧
      w.step event = { w with visitors := w.visitors ++ [⟨a, .waiting⟩] }) ∨
    (∃ i m v, w.visitors[i]? = some v ∧
      w.step event = ⟨(v.move w.service m).1, w.visitors.set i (v.move w.service m).2⟩) ∨
    ((w.step event).visitors = w.visitors ∧
      (w.step event).service.cache.entries ⊆ w.service.cache.entries) := by
  cases event with
  | arrive a =>
    cases hvalid : a.query.violations a.context with
    | nil => exact .inl ⟨a, hvalid, by rw [step, hvalid]⟩
    | cons violation rest =>
      have hstep : w.step (.arrive a) = w := by rw [step, hvalid]
      exact .inr (.inr ⟨by rw [hstep], by rw [hstep]; exact List.Subset.refl _⟩)
  | move i m =>
    cases hv : w.visitors[i]? with
    | none =>
      have hstep : w.step (.move i m) = w := by rw [step, hv]
      exact .inr (.inr ⟨by rw [hstep], by rw [hstep]; exact List.Subset.refl _⟩)
    | some v => exact .inr (.inl ⟨i, m, v, hv, by rw [step, hv]⟩)
  | clear => exact .inr (.inr ⟨rfl, List.nil_subset _⟩)
  | turn service => exact .inr (.inr ⟨rfl, List.Subset.refl _⟩)

end Crowd

/-! ### Steps keep what is known -/

/-- A step does not change what a call asks. -/
theorem Visitor.toInquiry_move (s : Service R) (v : Visitor R) (m : Move) :
    (v.move s m).2.toInquiry = v.toInquiry := by
  obtain ⟨a, progress⟩ := v
  cases m with
  | look =>
    cases progress with
    | waiting =>
      simp only [move]
      cases s.lookUp a.key with
      | mk found s' => cases found <;> rfl
    | _ => rfl
  | compile now =>
    cases progress with
    | missed =>
      simp only [move]
      cases a.query.compile now a.context <;> rfl
    | _ => rfl
  | deposit => cases progress <;> rfl

/-- A step of a call keeps what is known. -/
theorem Visitor.move_isSound {known : CacheKey → Contract R → Prop} {s : Service R}
    {v : Visitor R} (hs : ∀ e ∈ s.cache.entries, known e.1 e.2) (hv : v.IsSound known)
    (hown : ∀ contract, v.Yields contract → known v.key contract) (m : Move) :
    (∀ e ∈ (v.move s m).1.cache.entries, known e.1 e.2) ∧ (v.move s m).2.IsSound known := by
  obtain ⟨a, progress⟩ := v
  have hsame : (∀ e ∈ s.cache.entries, known e.1 e.2) ∧
      (⟨a, progress⟩ : Visitor R).IsSound known := ⟨hs, hv⟩
  cases m with
  | look =>
    cases progress with
    | waiting =>
      have hkept : ∀ e ∈ (s.lookUp a.key).2.cache.entries, known e.1 e.2 := by
        simpa [Service.lookUp] using hs
      have hfirst : (s.lookUp a.key).1 = s.cache.find? a.key := Cache.get_fst _ _
      simp only [move]
      cases hfound : s.lookUp a.key with
      | mk found s' =>
        rw [hfound] at hkept hfirst
        cases found with
        | none => exact ⟨hkept, ⟨hv.valid, by simp [Progress.contract?], by simp⟩⟩
        | some contract =>
          have hknown := hs _ (Cache.mem_of_find?_eq_some hfirst.symm)
          exact ⟨hkept, ⟨hv.valid, by simpa [Progress.contract?] using hknown, by simp⟩⟩
    | _ => exact hsame
  | compile now =>
    cases progress with
    | missed =>
      obtain ⟨-, supplements, -, -, hcompile⟩ :=
        SpatialQuery.exists_compile_of_violations hv.valid
      -- a valid query compiles, so the call does not fail here
      have hknown := hown _ ⟨now, hcompile now⟩
      have hmove : move s ⟨a, .missed⟩ (.compile now) =
          (s, ⟨a, .compiled (a.query.contractWith now a.context supplements)⟩) := by
        simp only [move, hcompile now]
      rw [hmove]
      exact ⟨hs, ⟨hv.valid, by simpa [Progress.contract?] using hknown, by simp⟩⟩
    | _ => exact hsame
  | deposit =>
    cases progress with
    | compiled contract =>
      have hknown := hv.held contract rfl
      refine ⟨fun e he => ?_, ⟨hv.valid, hv.held, by simp [move]⟩⟩
      -- whatever is pushed out, only the call's own contract comes in
      obtain rfl | hold := Cache.mem_of_mem_insert he
      · exact hknown
      · exact hs e hold
    | _ => exact hsame

/-- The more is known, the more a call may hold. -/
theorem Visitor.IsSound.mono {known known' : CacheKey → Contract R → Prop} {v : Visitor R}
    (h : ∀ key contract, known key contract → known' key contract) (hv : v.IsSound known) :
    v.IsSound known' :=
  ⟨hv.valid, fun contract hheld => h _ _ (hv.held contract hheld), hv.unfailed⟩

namespace Crowd

/-- All calls of a crowd are among those of another, perhaps at other steps. -/
def IsWithin (w w' : Crowd R) : Prop :=
  ∀ v ∈ w.visitors, ∃ v' ∈ w'.visitors, v'.toInquiry = v.toInquiry

/-- What is known to some calls is known to more of them. -/
theorem Knows.mono {w w' : Crowd R} (h : w.IsWithin w') {key : CacheKey}
    {contract : Contract R} : w.Knows key contract → w'.Knows key contract := by
  rintro ⟨v, hv, rfl, hyields⟩
  obtain ⟨v', hv', heq⟩ := h v hv
  refine ⟨v', hv', by rw [heq], ?_⟩
  rwa [heq]

/-- A service that has not been used holds nothing. -/
theorem isSound_ofSettings (settings : Settings) : (ofSettings settings : Crowd R).IsSound where
  cached := by simp [ofSettings, Service.ofSettings, Cache.empty]
  visitor := by simp [ofSettings]

/-- What is known stays known, and what holds of a crowd holds after every event. -/
theorem isSound_step {w : Crowd R} (h : w.IsSound) (event : Event R) :
    w.IsWithin (w.step event) ∧ (w.step event).IsSound := by
  obtain ⟨a, hvalid, hstep⟩ | ⟨i, m, v, hv, hstep⟩ | ⟨hvisitors, hentries⟩ := step_cases w event
  · rw [hstep]
    have hwithin : w.IsWithin { w with visitors := w.visitors ++ [⟨a, .waiting⟩] } :=
      fun v hv => ⟨v, List.mem_append_left _ hv, rfl⟩
    refine ⟨hwithin, fun e he => (h.cached e he).mono hwithin, fun v hv => ?_⟩
    obtain hold | hnew := List.mem_append.mp hv
    · exact (h.visitor v hold).mono fun _ _ => Knows.mono hwithin
    · rw [List.mem_singleton.mp hnew]
      exact ⟨hvalid, by simp [Progress.contract?], by simp⟩
  · have hi := List.mem_of_getElem? hv
    obtain ⟨hcached, hmoved⟩ := Visitor.move_isSound h.cached (h.visitor v hi)
      (fun contract hyields => ⟨v, hi, rfl, hyields⟩) m
    rw [hstep]
    have hwithin : w.IsWithin ⟨(v.move w.service m).1,
        w.visitors.set i (v.move w.service m).2⟩ := by
      intro v' hv'
      obtain ⟨j, hj⟩ := List.mem_iff_getElem?.mp hv'
      -- only the call that takes the step is replaced, by one that asks the same
      by_cases hij : i = j
      · subst hij
        obtain rfl : v = v' := Option.some.inj (hv.symm.trans hj)
        exact ⟨_, List.mem_set (List.getElem?_eq_some_iff.mp hv).1 _,
          Visitor.toInquiry_move _ _ _⟩
      · exact ⟨v', List.mem_of_getElem? (by rw [List.getElem?_set_ne hij, hj]), rfl⟩
    refine ⟨hwithin, fun e he => (hcached e he).mono hwithin, fun v' hv' => ?_⟩
    obtain hold | rfl := List.mem_or_eq_of_mem_set hv'
    · exact (h.visitor v' hold).mono fun _ _ => Knows.mono hwithin
    · exact hmoved.mono fun _ _ => Knows.mono hwithin
  · have hwithin : w.IsWithin (w.step event) := fun v hv => ⟨v, hvisitors ▸ hv, rfl⟩
    refine ⟨hwithin, fun e he => (h.cached e (hentries he)).mono hwithin, fun v hv => ?_⟩
    exact (h.visitor v (hvisitors ▸ hv)).mono fun _ _ => Knows.mono hwithin

/-- So it holds after every run. -/
theorem isSound_run {w : Crowd R} (h : w.IsSound) (events : List (Event R)) :
    (w.run events).IsSound := by
  induction events generalizing w with
  | nil => exact h
  | cons event rest ih => exact ih (isSound_step h event).2

/-! ### Contracts of others -/

/-- Digests tell the queries of a crowd apart, as far as their canonical forms differ. -/
def IsSeparated (w : Crowd R) : Prop :=
  ∀ v ∈ w.visitors, ∀ v' ∈ w.visitors, v.query.hash = v'.query.hash →
    v.query.canonicalBytes = v'.query.canonicalBytes

end Crowd

/-- A contract under the key of a call says the same to the call as one compiled for it. -/
theorem Inquiry.isLike_of_yields [LegibleScalar R] {a b : Inquiry R} {contract : Contract R}
    (ha : a.query.violations a.context = []) (hb : b.query.violations b.context = [])
    (hkey : b.key = a.key) (hcanonical : b.query.canonicalBytes = a.query.canonicalBytes)
    (hyields : b.Yields contract) (now : Instant) :
    ∃ own, a.query.compile now a.context = .ok own ∧ contract.IsLike own a.context := by
  obtain ⟨hdistance, supplements, hresolve, hfinite, hcompile⟩ :=
    SpatialQuery.exists_compile_of_violations ha
  obtain ⟨hdistance', supplements', hresolve', hfinite', hcompile'⟩ :=
    SpatialQuery.exists_compile_of_violations hb
  obtain ⟨now', hcontract⟩ := hyields
  obtain rfl := Except.ok.inj ((hcompile' now').symm.trans hcontract)
  obtain ⟨hfind, hmain, hsupplements⟩ := SpatialQuery.asks_eq_of_canonicalBytes_eq hdistance'
    hdistance hresolve' hresolve hfinite' hfinite hcanonical
  have hentries : (b.query.contractWith now' b.context supplements').entries =
      (a.query.contractWith now a.context supplements).entries := by
    rw [SpatialQuery.contractWith, SpatialQuery.contractWith, hmain, hsupplements]
  -- The key tells whether there is a boundary. If there is, that of the call goes first.
  have hboundary : b.context.boundary.isSome = a.context.boundary.isSome :=
    congrArg CacheKey.hasBoundary hkey
  refine ⟨_, hcompile now, rfl, hfind, hentries, ?_⟩
  show (a.context.boundary <|> b.context.boundary) = (a.context.boundary <|> a.context.boundary)
  cases ha : a.context.boundary with
  | none =>
    rw [ha] at hboundary
    rw [Option.isSome_eq_false_iff.mp hboundary |> Option.isNone_iff_eq_none.mp]
  | some shape => rfl

/-! ### Ways to a contract -/

namespace Visitor

/-- The service and the call after all three steps, taken one after the other. -/
def finish (s : Service R) (v : Visitor R) (now : Instant) : Service R × Visitor R :=
  let (s, v) := v.move s .look
  let (s, v) := v.move s (.compile now)
  v.move s .deposit

/-- A call that has come to a contract asks what it asked. -/
private theorem toInquiry_finish (s : Service R) (v : Visitor R) (now : Instant) :
    (v.finish s now).2.toInquiry = v.toInquiry := by
  simp only [finish, toInquiry_move]

/-- A call that takes its steps at once gets the contract that a service has for its query, and
leaves the service as a look-up and a compilation do. -/
theorem finish_waiting (s : Service R) (a : Inquiry R) (now : Instant) :
    finish s ⟨a, .waiting⟩ now =
      ((s.contractFor now a.query a.context).2, ⟨a,
        match (s.contractFor now a.query a.context).1 with
        | .ok contract => .served contract
        | .error e => .failed e⟩) := by
  unfold finish Service.contractFor
  simp only [move, Inquiry.key]
  cases s.lookUp (CacheKey.ofContext a.query.hash a.context) with
  | mk found s' =>
    cases found with
    | some contract => rfl
    | none =>
      dsimp only
      cases a.query.compile now a.context <;> rfl

/-- A valid call that takes the steps it still has to take comes to a contract. -/
theorem exists_finish_eq_served {known : CacheKey → Contract R → Prop} (s : Service R)
    {v : Visitor R} (hv : v.IsSound known) (now : Instant) :
    ∃ contract, (v.finish s now).2.progress = .served contract := by
  obtain ⟨-, supplements, -, -, hcompile⟩ := SpatialQuery.exists_compile_of_violations hv.valid
  obtain ⟨a, progress⟩ := v
  cases progress with
  | waiting =>
    rw [finish_waiting, Service.contractFor]
    cases s.lookUp (CacheKey.ofContext a.query.hash a.context) with
    | mk found s' =>
      cases found with
      | some contract => exact ⟨contract, rfl⟩
      | none => exact ⟨a.query.contractWith now a.context supplements, by simp only [hcompile now]⟩
  | missed =>
    exact ⟨a.query.contractWith now a.context supplements, by
      simp only [finish, move, hcompile now]⟩
  | compiled contract => exact ⟨contract, rfl⟩
  | served contract => exact ⟨contract, rfl⟩
  | failed e => exact absurd rfl (hv.unfailed e)

end Visitor

namespace Crowd

/-- The three steps of a call. -/
def finishing (i : Nat) (now : Instant) : List (Event R) :=
  [.move i .look, .move i (.compile now), .move i .deposit]

/-- A step changes the service and one call. -/
private theorem step_move {w : Crowd R} {i : Nat} {v : Visitor R} (hv : w.visitors[i]? = some v)
    (m : Move) :
    w.step (.move i m) = ⟨(v.move w.service m).1, w.visitors.set i (v.move w.service m).2⟩ := by
  rw [step, hv]

/-- What a call takes at once, it takes as if it were alone. -/
theorem run_finishing {w : Crowd R} {i : Nat} {v : Visitor R} (hv : w.visitors[i]? = some v)
    (now : Instant) :
    w.run (finishing i now) =
      ⟨(v.finish w.service now).1, w.visitors.set i (v.finish w.service now).2⟩ := by
  have hi := (List.getElem?_eq_some_iff.mp hv).1
  rw [run, finishing, List.foldl_cons, List.foldl_cons, List.foldl_cons, List.foldl_nil,
    step_move hv .look, step_move (List.getElem?_set_self hi) (.compile now),
    step_move (List.getElem?_set_self (by rwa [List.length_set])) .deposit, List.set_set,
    List.set_set]
  rfl

/-- Contracts that are known under the key of a call say the same to it as one compiled for it. -/
theorem isLike_of_knows [LegibleScalar R] {w : Crowd R} (h : w.IsSound) (hsep : w.IsSeparated)
    {v : Visitor R} (hv : v ∈ w.visitors) {contract : Contract R}
    (hknown : w.Knows v.key contract) (now : Instant) :
    ∃ own, v.query.compile now v.context = .ok own ∧ contract.IsLike own v.context := by
  obtain ⟨v', hv', hkey, hyields⟩ := hknown
  exact Inquiry.isLike_of_yields (h.visitor v hv).valid (h.visitor v' hv').valid hkey
    (hsep v' hv' v hv (congrArg CacheKey.hash hkey)) hyields now

/-- A call of a query that has been asked before starts as if nothing were cached. -/
theorem call_start_clearCache [LegibleScalar R] {w : Crowd R} (h : w.IsSound)
    (hsep : w.IsSeparated) {v : Visitor R} (hv : v ∈ w.visitors) (now : Instant) :
    (w.service.start now v.query v.context).call =
      (w.service.clearCache.start now v.query v.context).call := by
  have hvalid := (h.visitor v hv).valid
  obtain ⟨-, supplements, -, -, hcompile⟩ := SpatialQuery.exists_compile_of_violations hvalid
  have hclear := Service.contractFor_fst w.service.clearCache now v.query v.context
  have hshared := Service.contractFor_fst w.service now v.query v.context
  rw [Service.call_start hvalid (hclear.trans (hcompile now))]
  -- a miss compiles what an empty cache does, and a hit is like it
  cases hfound : w.service.cache.find? (CacheKey.ofContext v.query.hash v.context) with
  | none =>
    rw [hfound] at hshared
    rw [Service.call_start hvalid (hshared.trans (hcompile now))]
    rfl
  | some contract =>
    rw [hfound] at hshared
    obtain ⟨own, hown, hlike⟩ :=
      isLike_of_knows h hsep hv (h.cached _ (Cache.mem_of_find?_eq_some hfound)) now
    obtain rfl := Except.ok.inj ((hcompile now).symm.trans hown)
    rw [Service.call_start hvalid hshared, Service.callFor_eq_of_isLike hlike]
    rfl

/-- Sharing is not seen. In every run of a service, however its cache is bounded and whatever is
dropped, each call has a contract of its own, compiled for its query in its context. If digests
tell the queries apart, the contract that serves the call says the same and is planned alike, so
that the call goes on alike. Every call can be served, and starts on the shared cache as on an
empty one. -/
theorem served_isLike [LegibleScalar R] (settings : Settings) (events : List (Event R))
    {w : Crowd R} (hrun : (ofSettings settings).run events = w) (hsep : w.IsSeparated) {i : Nat}
    {v : Visitor R} (hv : w.visitors[i]? = some v) (now : Instant) :
    ∃ own, v.query.compile now v.context = .ok own ∧
      (∀ contract, v.progress = .served contract → contract.IsLike own v.context ∧
        (∀ settings', Plan.ofContract contract v.context settings' =
          Plan.ofContract own v.context settings') ∧
        ∀ s : Service R, s.callFor v.context contract = s.callFor v.context own) ∧
      (∃ contract, (w.run (finishing i now)).visitors[i]? =
        some ⟨v.toInquiry, .served contract⟩) ∧
      (w.service.start now v.query v.context).call =
        (w.service.clearCache.start now v.query v.context).call := by
  have hsound : w.IsSound := hrun ▸ isSound_run (isSound_ofSettings settings) events
  have hmem := List.mem_of_getElem? hv
  have hi := (List.getElem?_eq_some_iff.mp hv).1
  obtain ⟨-, supplements, -, -, hcompile⟩ :=
    SpatialQuery.exists_compile_of_violations (hsound.visitor v hmem).valid
  refine ⟨_, hcompile now, fun contract hserved => ?_, ?_,
    call_start_clearCache hsound hsep hmem now⟩
  · have hknown := (hsound.visitor v hmem).held contract (by rw [hserved]; rfl)
    obtain ⟨own, hown, hlike⟩ := isLike_of_knows hsound hsep hmem hknown now
    obtain rfl := Except.ok.inj ((hcompile now).symm.trans hown)
    refine ⟨hlike, Plan.ofContract_eq_of_isLike hlike, fun s => ?_⟩
    exact Service.callFor_eq_of_isLike hlike s
  · obtain ⟨contract, hserved⟩ :=
      Visitor.exists_finish_eq_served w.service (hsound.visitor v hmem) now
    refine ⟨contract, ?_⟩
    rw [run_finishing hv, List.getElem?_set_self hi, ← hserved, ← Visitor.toInquiry_finish]

/-- A query for the routes that meet a boundary, and the boundary. -/
def sampleInquiry (wkt : String) : Inquiry Float where
  query := ⟨.routes, .intersect, 0, .boundary, []⟩
  context :=
    { Context.empty with
      serviceIdField := some "id"
      spatialReady := true
      geometryField := some "geometry"
      boundary := some (.wkt wkt) }

/-- Two calls that differ in their boundaries. The first compiles, the second then looks. -/
def sampleEvents : List (Event Float) :=
  [.arrive (sampleInquiry "POINT (0 0)"), .arrive (sampleInquiry "POINT (1 0)")] ++
    finishing 0 ⟨0, 0⟩ ++ [.move 1 .look]

/-- The contract of one boundary serves the call with another, and is planned as its own. -/
theorem served_isLike_sample :
    ∃ v contract own, ((ofSettings Settings.default).run sampleEvents).visitors[1]? = some v ∧
      v.progress = .served contract ∧
      contract.boundary.bind Boundary.text? = some "POINT (0 0)" ∧
      v.context.boundary.bind Boundary.text? = some "POINT (1 0)" ∧
      v.query.compile ⟨0, 0⟩ v.context = .ok own ∧
      ∀ settings, Plan.ofContract contract v.context settings =
        Plan.ofContract own v.context settings := by
  have hrun : (((ofSettings Settings.default).run sampleEvents).visitors[1]?.any fun v =>
      v.context.boundary.bind Boundary.text? = some "POINT (1 0)" &&
        v.progress.served?.any fun contract =>
          contract.boundary.bind Boundary.text? = some "POINT (0 0)") = true ∧
      ∀ v ∈ ((ofSettings Settings.default).run sampleEvents).visitors,
        v.query.canonicalBytes = (sampleInquiry "").query.canonicalBytes := by
    decide +kernel
  obtain ⟨hsecond, hsame⟩ := hrun
  obtain ⟨v, hv, h⟩ := (Option.any_eq_true _ _).mp hsecond
  obtain ⟨hhere, h⟩ := Bool.and_eq_true_iff.mp h
  obtain ⟨contract, hserved, hthere⟩ := (Option.any_eq_true _ _).mp h
  have hserved := Progress.eq_served_of_served? hserved
  obtain ⟨own, hown, hplans, -⟩ := served_isLike Settings.default sampleEvents rfl
    (fun v hv v' hv' _ => (hsame v hv).trans (hsame v' hv').symm) hv ⟨0, 0⟩
  exact ⟨v, contract, own, hv, hserved, of_decide_eq_true hthere, of_decide_eq_true hhere, hown,
    (hplans contract hserved).2.1⟩

end Crowd

end TransitQuery
