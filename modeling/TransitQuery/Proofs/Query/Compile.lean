import TransitQuery.Proofs.Computation
import TransitQuery.Query.Compile

/-!
# Compiling valid queries

A valid query always compiles, and what it compiles to is known: its main clause and its blocks
resolved, with the boundary of the context. All its radii are finite.

* `SpatialQuery.violations_eq_nil_iff`: validity, in terms of the radius, the target and the
  blocks. Each kind of target has a lemma of its own that says what it needs of the context.
* `SpatialQuery.contractWith`: the contract that a query has once its blocks are resolved.
* `SpatialQuery.exists_compile_of_violations`: a valid query compiles to such a contract, at any
  time.

Violations are lists that are put one behind the other, and a query is valid if the whole list is
empty. So the lemmas take it apart, down to single conditions (`of_violationIf_eq_nil`), and what
is known of a block is that it contributes nothing. That the converse holds as well, and which
violations there are otherwise, is shown in `Resolve`.
-/

namespace TransitQuery

variable {R : Type}

namespace SpatialQuery

variable [Scalar R]

/-- The contract of a query whose blocks are resolved. -/
def contractWith (q : SpatialQuery R) (now : Instant) (c : Context R)
    (supplements : List (Supplement R)) : Contract R where
  version := Contract.currentVersion
  find := q.find
  entries := .main q.mainClause :: supplements.map .supplement
  boundary := c.boundary
  compiledAt := now
  context := ContextSnapshot.ofContext c
  hash := q.hash

end SpatialQuery

/-- A clause whose radius is finite, if it has one. -/
def Clause.hasFiniteRadius [Scalar R] : Clause R → Bool
  | nearPoint distance => Scalar.isFinite distance
  | _ => true

/-- A condition that adds no violation does not hold. -/
theorem of_violationIf_eq_nil {condition : Bool} {v : Violation R}
    (h : violationIf condition v = []) : condition = false := by
  cases condition
  · rfl
  · cases h

variable [Scalar R]

theorem isFinite_of_isRadius {x : R} (h : isRadius x = true) : Scalar.isFinite x = true :=
  (Bool.and_eq_true_iff.mp h).1

/-! ### What validity takes -/

/-- A point has no violations if it is there, finite and away from the poles. -/
private theorem pointViolations_eq_nil_iff {c : Context R} :
    pointViolations c = [] ↔ ∃ p, c.point = some p ∧ p.isFinite = true ∧ p.isPolar = false := by
  unfold pointViolations
  cases c.point with
  | none => simp
  | some p => cases hfinite : p.isFinite <;> simp [violationIf, hfinite]

namespace Target

/-- As a target, the selected point is there and away from the poles, and there is some tier. -/
theorem violations_selectedPoint_eq_nil_iff {c : Context R} :
    selectedPoint.violations c = [] ↔
      (∃ p, c.point = some p ∧ p.isFinite = true ∧ p.isPolar = false) ∧
        (c.spatialReady = true ∨ c.bboxReady = true) := by
  rw [violations, List.append_eq_nil_iff, pointViolations_eq_nil_iff]
  refine and_congr_right fun _ => ?_
  cases c.spatialReady <;> cases c.bboxReady <;> simp [violationIf]

/-- As a target, the boundary is there, and there are spatial tests. -/
theorem violations_boundary_eq_nil_iff {c : Context R} :
    boundary.violations c = [] ↔ c.hasBoundary = true ∧ c.spatialReady = true := by
  rw [violations, List.append_eq_nil_iff]
  cases c.hasBoundary <;> cases c.spatialReady <;> simp [violationIf]

end Target

/-- A query is valid if its radius is one, its target is served, and nothing is wrong with its
blocks. -/
theorem SpatialQuery.violations_eq_nil_iff {q : SpatialQuery R} {c : Context R} :
    q.violations c = [] ↔ isRadius q.distance = true ∧ q.target.violations c = [] ∧
      blockViolations c 1 q.blocks = [] := by
  rw [violations, List.append_eq_nil_iff, List.append_eq_nil_iff, and_assoc]
  refine and_congr_left fun _ => ?_
  cases isRadius q.distance <;> simp [violationIf]

namespace Block

/-- A block without violations resolves to a clause with a finite radius, if the radius of its
query is finite. -/
theorem exists_resolve_of_violations {c : Context R} {n : Nat} {b : Block R} {inherited : R}
    (h : b.violations c n = []) (hinherited : Scalar.isFinite inherited = true) :
    ∃ s, b.resolve inherited = .ok s ∧ s.clause.hasFiniteRadius = true := by
  obtain ⟨htype, hop⟩ := List.append_eq_nil_iff.mp h
  unfold typeViolations at htype
  unfold operatorViolations at hop
  unfold resolve
  split at htype
  · cases htype
  rename_i hknown
  cases hkind : b.parsedType with
  | error e =>
    cases e with
    | unknownType name => exact absurd hkind (hknown name)
    | unknownOperator name =>
      unfold parsedType at hkind
      split at hkind
      · cases hkind
      · split at hkind <;> cases hkind
  | ok type =>
    dsimp only
    -- an operator is required, and it has to be known
    split at hop
    · cases hop
    · cases hop
    · rename_i hop'
      obtain ⟨-, hdistance⟩ := List.append_eq_nil_iff.mp hop
      rw [hop']
      refine ⟨_, rfl, ?_⟩
      -- the radius is the block's own, which has been checked, or the one of the query
      cases hd : b.distance with
      | none => simpa [BlockOperator.clause, Clause.hasFiniteRadius, hd] using hinherited
      | some d =>
        rw [hd] at hdistance
        have hradius : isRadius d = true := by
          simpa using of_violationIf_eq_nil hdistance
        simpa [BlockOperator.clause, Clause.hasFiniteRadius, hd] using isFinite_of_isRadius hradius
    · rename_i op hne hop'
      rw [hop']
      refine ⟨_, rfl, ?_⟩
      cases op <;> first | rfl | exact absurd rfl (hne ·)

end Block

namespace SpatialQuery

/-- The blocks of a valid query resolve. -/
theorem exists_mapM_resolve {c : Context R} {n : Nat} {blocks : List (Block R)} {inherited : R}
    (h : blockViolations c n blocks = []) (hinherited : Scalar.isFinite inherited = true) :
    ∃ supplements, blocks.mapM (Block.resolve inherited) = .ok supplements ∧
      ∀ s ∈ supplements, s.clause.hasFiniteRadius = true := by
  induction blocks generalizing n with
  | nil => exact ⟨[], rfl, by simp⟩
  | cons b rest ih =>
    obtain ⟨hb, hrest⟩ := List.append_eq_nil_iff.mp h
    obtain ⟨s, hs, hfinite⟩ := Block.exists_resolve_of_violations hb hinherited
    obtain ⟨supplements, hsupplements, hall⟩ := ih hrest
    exact ⟨s :: supplements, mapM_cons_eq_ok_iff.mpr ⟨s, supplements, hs, hsupplements, rfl⟩,
      List.forall_mem_cons.mpr ⟨hfinite, hall⟩⟩

/-- A valid query has finite radii and compiles. -/
theorem exists_compile_of_violations {q : SpatialQuery R} {c : Context R}
    (h : q.violations c = []) :
    Scalar.isFinite q.distance = true ∧ ∃ supplements, q.resolveBlocks = .ok supplements ∧
      (∀ s ∈ supplements, s.clause.hasFiniteRadius = true) ∧
      ∀ now, q.compile now c = .ok (q.contractWith now c supplements) := by
  obtain ⟨hradius, -, hblocks⟩ := violations_eq_nil_iff.mp h
  have hfinite := isFinite_of_isRadius hradius
  obtain ⟨supplements, hsupplements, hall⟩ := exists_mapM_resolve hblocks hfinite
  refine ⟨hfinite, supplements, hsupplements, hall, fun now => ?_⟩
  have hresolve : q.resolveBlocks = .ok supplements := hsupplements
  rw [compile, h]
  dsimp only
  rw [hresolve]
  rfl

end SpatialQuery

end TransitQuery
