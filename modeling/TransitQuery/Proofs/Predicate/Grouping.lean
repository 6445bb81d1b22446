import TransitQuery.Proofs.Predicate.Clauses
import TransitQuery.Proofs.Predicate.Decided
import TransitQuery.Scalar.Double

/-!
# How clauses group

The predicate of a contract is built by a fold over its clauses. What it says can be told without
the fold. A row passes if it satisfies some clause from which it can *start*, the main clause or
one that is also included, and if no later clause stops it: not one that is included, by failing
on it, nor one that is excluded, by holding on it. Later clauses that are also included stop
nothing, and trivial clauses do not count at all (`ClauseContext.evaluate_predicate_eq_true_iff`).

The induction is over the clauses that are still to be joined. Its invariant speaks of an
arbitrary expression joined so far, which a row either passes and is then stopped by nothing that
follows, or passes no more, so that it has to start again.

`PassesClauses` and `StartsAmong` speak of positions in the list of clauses, as the description
does. For the induction they are unfolded at the first clause, where they say the same by recursion
(`passesClauses_cons_iff`, `startsAmong_cons_iff`).
-/

namespace TransitQuery

variable {R : Type} [Scalar R]

/-! ### Passing clauses -/

namespace TypedClause

/-- A row can start from a clause that counts and is also included. -/
def IsStart (c : TypedClause R) : Prop :=
  c.type = .alsoIncluded ∧ c.clause.isTrivial = false

/-- A clause does not stop a row that has started before it. -/
def LetsPass (row : Row R) (c : TypedClause R) : Prop :=
  c.clause.isTrivial = false →
    (c.type = .included → c.clause.evaluate row = .ok true) ∧
      (c.type = .excluded → c.clause.evaluate row = .ok false)

end TypedClause

/-- A row passes clauses, of which the first is the main clause: it satisfies one from which it
can start, and no later one stops it. -/
def PassesClauses (row : Row R) (cs : List (TypedClause R)) : Prop :=
  ∃ (j : Nat) (c : TypedClause R), cs[j]? = some c ∧ (j = 0 ∨ c.IsStart) ∧
    c.clause.evaluate row = .ok true ∧
    ∀ (k : Nat) (d : TypedClause R), j < k → cs[k]? = some d → d.LetsPass row

/-- A row starts at one of several clauses and is not stopped by those that follow. -/
def StartsAmong (row : Row R) (cs : List (TypedClause R)) : Prop :=
  ∃ (j : Nat) (c : TypedClause R), cs[j]? = some c ∧ c.IsStart ∧
    c.clause.evaluate row = .ok true ∧
    ∀ (k : Nat) (d : TypedClause R), j < k → cs[k]? = some d → d.LetsPass row

private theorem not_startsAmong_nil (row : Row R) : ¬ StartsAmong row [] := by
  rintro ⟨j, c, h, -⟩
  simp at h

/-- Membership by position, past the first one. -/
private theorem forall_later_cons_iff {α : Type} {a : α} {as : List α} {P : α → Prop} :
    (∀ k d, 0 < k → (a :: as)[k]? = some d → P d) ↔ ∀ d ∈ as, P d := by
  constructor
  · intro h d hd
    obtain ⟨k, hk⟩ := List.mem_iff_getElem?.mp hd
    exact h (k + 1) d (by omega) (by rw [List.getElem?_cons_succ]; exact hk)
  · intro h k d hk hd
    obtain ⟨k, rfl⟩ := Nat.exists_eq_succ_of_ne_zero (by omega : k ≠ 0)
    rw [List.getElem?_cons_succ] at hd
    exact h d (List.mem_iff_getElem?.mpr ⟨k, hd⟩)

/-- The same between the positions of a list and those of its tail. -/
private theorem forall_later_succ_iff {α : Type} {a : α} {as : List α} {P : α → Prop} {j : Nat} :
    (∀ k d, j + 1 < k → (a :: as)[k]? = some d → P d) ↔
      ∀ k d, j < k → as[k]? = some d → P d := by
  constructor
  · intro h k d hk hd
    exact h (k + 1) d (by omega) (by rw [List.getElem?_cons_succ]; exact hd)
  · intro h k d hk hd
    obtain ⟨k, rfl⟩ := Nat.exists_eq_succ_of_ne_zero (by omega : k ≠ 0)
    rw [List.getElem?_cons_succ] at hd
    exact h k d (by omega) hd

/-- Something about a position of a list and about all that stands behind it is said of the first
position, or of a later one and so of the tail. -/
private theorem exists_position_cons_iff {α : Type} (a : α) (as : List α) {S : Nat → α → Prop}
    {P : α → Prop} :
    (∃ j c, (a :: as)[j]? = some c ∧ S j c ∧ ∀ k d, j < k → (a :: as)[k]? = some d → P d) ↔
      (S 0 a ∧ ∀ d ∈ as, P d) ∨
        ∃ j c, as[j]? = some c ∧ S (j + 1) c ∧ ∀ k d, j < k → as[k]? = some d → P d := by
  constructor
  · rintro ⟨j, c, hc, hs, hlater⟩
    cases j with
    | zero =>
      obtain rfl := Option.some.inj hc
      exact .inl ⟨hs, forall_later_cons_iff.mp hlater⟩
    | succ j =>
      rw [List.getElem?_cons_succ] at hc
      exact .inr ⟨j, c, hc, hs, forall_later_succ_iff.mp hlater⟩
  · rintro (⟨hs, hlater⟩ | ⟨j, c, hc, hs, hlater⟩)
    · exact ⟨0, a, rfl, hs, forall_later_cons_iff.mpr hlater⟩
    · exact ⟨j + 1, c, by rw [List.getElem?_cons_succ]; exact hc, hs,
        forall_later_succ_iff.mpr hlater⟩

/-- A row starts at the first clause, or at one of the others. -/
theorem startsAmong_cons_iff {row : Row R} {c : TypedClause R} {cs : List (TypedClause R)} :
    StartsAmong row (c :: cs) ↔
      (c.IsStart ∧ c.clause.evaluate row = .ok true ∧ ∀ d ∈ cs, d.LetsPass row) ∨
        StartsAmong row cs := by
  simpa only [StartsAmong, and_assoc] using exists_position_cons_iff c cs
    (S := fun _ d => d.IsStart ∧ d.clause.evaluate row = .ok true) (P := (·.LetsPass row))

/-- A row passes from the main clause, or from a later one. -/
theorem passesClauses_cons_iff {row : Row R} {c : TypedClause R} {cs : List (TypedClause R)} :
    PassesClauses row (c :: cs) ↔
      (c.clause.evaluate row = .ok true ∧ ∀ d ∈ cs, d.LetsPass row) ∨ StartsAmong row cs := by
  -- past the main clause a row can only start
  simpa only [PassesClauses, StartsAmong, and_assoc, true_or, true_and, Nat.add_one_ne_zero,
    false_or] using exists_position_cons_iff c cs
    (S := fun j d => (j = 0 ∨ d.IsStart) ∧ d.clause.evaluate row = .ok true)
    (P := (·.LetsPass row))

/-! ### Joining one clause, and all of them -/

/-- What one more clause makes of an expression: a row passes if it has passed before and the
clause does not stop it, or if it starts here. -/
theorem exists_join_decided {row : Row R} {e : Predicate R} {c : TypedClause R}
    (he : e.IsDecided row) (hc : c.clause.IsDecided row) :
    ∃ q, c.type.join (some e) c.clause = some q ∧ q.IsDecided row ∧
      (q.evaluate row = .ok true ↔
        (e.evaluate row = .ok true ∧ c.LetsPass row) ∨
          (c.IsStart ∧ c.clause.evaluate row = .ok true)) := by
  obtain ⟨a, ha⟩ := he
  obtain ⟨b, hb⟩ := hc
  by_cases ht : c.clause.isTrivial = true
  · -- nothing is joined, and nothing is asked of a trivial clause either
    refine ⟨e, join_of_isTrivial ht, ⟨a, ha⟩, ?_⟩
    simp [TypedClause.LetsPass, TypedClause.IsStart, ht]
  · cases htype : c.type with
    | included =>
      refine ⟨.and e c.clause, by simp [BlockType.join, ht],
        ⟨_, Predicate.evaluate_and ha hb⟩, ?_⟩
      rw [Predicate.evaluate_and ha hb, ha]
      simp [TypedClause.LetsPass, TypedClause.IsStart, htype, ht, hb]
    | excluded =>
      have hn := Predicate.evaluate_not hb
      refine ⟨.and e (.not c.clause), by simp [BlockType.join, ht],
        ⟨_, Predicate.evaluate_and ha hn⟩, ?_⟩
      rw [Predicate.evaluate_and ha hn, ha]
      simp [TypedClause.LetsPass, TypedClause.IsStart, htype, ht, hb]
    | alsoIncluded =>
      refine ⟨.or e c.clause, by simp [BlockType.join, ht],
        ⟨_, Predicate.evaluate_or ha hb⟩, ?_⟩
      rw [Predicate.evaluate_or ha hb, ha]
      simp [TypedClause.LetsPass, TypedClause.IsStart, htype, ht, hb]

/-- What clauses make of an expression that they are joined to. -/
theorem joinAll_decided {row : Row R} {e p : Predicate R} {cs : List (TypedClause R)}
    (he : e.IsDecided row) (hcs : ∀ c ∈ cs, c.clause.IsDecided row)
    (h : joinAll (some e) cs = some p) :
    p.IsDecided row ∧ (p.evaluate row = .ok true ↔
      (e.evaluate row = .ok true ∧ ∀ d ∈ cs, d.LetsPass row) ∨ StartsAmong row cs) := by
  -- the expression grows with every clause, so it has to be arbitrary
  induction cs generalizing e with
  | nil =>
    obtain rfl := Option.some.inj h
    exact ⟨he, by simp [not_startsAmong_nil]⟩
  | cons c cs ih =>
    obtain ⟨q, hq, hdecided, hiff⟩ := exists_join_decided he (hcs c List.mem_cons_self)
    rw [joinAll_cons, hq] at h
    -- what follows is joined to an expression that the row passes from before, or from here on
    obtain ⟨hp, hpiff⟩ := ih hdecided (fun d hd => hcs d (List.mem_cons_of_mem c hd)) h
    refine ⟨hp, ?_⟩
    rw [hpiff, hiff, startsAmong_cons_iff, List.forall_mem_cons]
    constructor
    · rintro (⟨⟨htrue, hc⟩ | ⟨hstart, htrue⟩, hrest⟩ | hlater)
      · exact .inl ⟨htrue, hc, hrest⟩
      · exact .inr (.inl ⟨hstart, htrue, hrest⟩)
      · exact .inr (.inr hlater)
    · rintro (⟨htrue, hc, hrest⟩ | ⟨hstart, htrue, hrest⟩ | hlater)
      · exact .inl ⟨.inl ⟨htrue, hc⟩, hrest⟩
      · exact .inl ⟨.inr ⟨hstart, htrue⟩, hrest⟩
      · exact .inr hlater

/-! ### Clauses that leave a trace, and clauses that leave none -/

omit [Scalar R] in
/-- A clause from which rows can start is an alternative to all that stands before it. -/
theorem exists_joinAll_start {e p : Predicate R} {before after : List (TypedClause R)}
    {c : TypedClause R} (hc : c.IsStart) (h : joinAll (some e) (before ++ c :: after) = some p) :
    ∃ q, joinAll (some e) before = some q ∧ joinAll (some (.or q c.clause)) after = some p := by
  obtain ⟨htype, htrivial⟩ := hc
  obtain ⟨q, hq⟩ := exists_joinAll_some e before
  refine ⟨q, hq, ?_⟩
  rw [joinAll_append, hq, joinAll_cons, htype] at h
  rw [← h, BlockType.join, if_neg (by simp [htrivial])]

/-! ### Predicates of contracts -/

namespace ClauseContext

/-- What the predicate of a contract says. Behind it stands a list of clauses that begins with the
main clause, which is not trivial. Where all of them are decided, the rows that satisfy the
predicate are those that pass the clauses. Trivial clauses could be left out, and what a row can
start from is an alternative to everything before it. -/
theorem evaluate_predicate_eq_true_iff {s : ClauseContext R} {contract : Contract R}
    {p : Predicate R} (h : s.predicate contract = .ok p) :
    ∃ (main : Predicate R) (cs : List (TypedClause R)),
      s.clauses contract = .ok (⟨.included, main⟩ :: cs) ∧ main.isTrivial = false ∧
      (∀ row, (∀ c ∈ (⟨.included, main⟩ : TypedClause R) :: cs, c.clause.IsDecided row) →
        p.IsDecided row ∧
          (p.evaluate row = .ok true ↔ PassesClauses row (⟨.included, main⟩ :: cs))) ∧
      joinAll (some main) (cs.filter fun c => !c.clause.isTrivial) = some p ∧
      ∀ before c after, cs = before ++ c :: after → c.IsStart →
        ∃ q, joinAll (some main) before = some q ∧
          joinAll (some (.or q c.clause)) after = some p := by
  obtain ⟨_, _, main, cs, -, -, hmain, -, hclauses, hp⟩ := exists_clauses_of_predicate h
  refine ⟨main, cs, hclauses, hmain, fun row hdecided => ?_, ?_, ?_⟩
  · obtain ⟨hfirst, hrest⟩ := List.forall_mem_cons.mp hdecided
    rw [passesClauses_cons_iff]
    exact joinAll_decided hfirst hrest hp
  · rw [joinAll_filter_not_isTrivial]
    exact hp
  · rintro before c after rfl hc
    exact exists_joinAll_start hc hp

/-- Within 300 meters and not a bus, or else of one operator; a blank mode is excluded, too. -/
def sampleContract : Contract Float where
  version := Contract.currentVersion
  find := .routes
  entries := [.main ⟨.selectedPoint, 300, .within⟩, .supplement ⟨.excluded, .mode " "⟩,
    .supplement ⟨.excluded, .mode "bus"⟩, .supplement ⟨.alsoIncluded, .operator "BVG"⟩]
  boundary := none
  compiledAt := ⟨0, 0⟩
  context := ⟨true, false, true⟩
  hash := ""

/-- A context in which `sampleContract` has a predicate. -/
def sampleContext : Context Float :=
  { Context.empty with
    spatialReady := true
    geometryField := some "geometry"
    operatorFields := ["operator"]
    modeField := some "mode"
    point := some ⟨0, 0⟩ }

/-- The operator saves a bus far away, and nothing is left of the blank mode. -/
theorem evaluate_predicate_sample :
    ∃ (p main : Predicate Float) (cs : List (TypedClause Float)),
      (⟨sampleContext, .native, none⟩ : ClauseContext Float).predicate sampleContract = .ok p ∧
      (⟨sampleContext, .native, none⟩ : ClauseContext Float).clauses sampleContract =
        .ok (⟨.included, main⟩ :: cs) ∧
      cs.map TypedClause.type = [.excluded, .excluded, .alsoIncluded] ∧
      p.evaluate [("mode", .str "bus"), ("operator", .str "BVG")] = .ok true ∧
      PassesClauses [("mode", .str "bus"), ("operator", .str "BVG")] (⟨.included, main⟩ :: cs) := by
  obtain ⟨main, cs, hclauses, -, hiff, -, -⟩ :=
    @evaluate_predicate_eq_true_iff Float _ ⟨sampleContext, .native, none⟩ sampleContract _ rfl
  obtain ⟨hmain, rfl⟩ := List.cons.inj (Except.ok.inj hclauses)
  obtain rfl := congrArg TypedClause.clause hmain
  refine ⟨_, _, _, rfl, hclauses, rfl, rfl, (hiff _ fun c hc => ?_).2.mp rfl⟩
  simp only [List.mem_cons, List.not_mem_nil, or_false] at hc
  obtain rfl | rfl | rfl | rfl := hc <;> exact ⟨_, rfl⟩

end ClauseContext

end TransitQuery
