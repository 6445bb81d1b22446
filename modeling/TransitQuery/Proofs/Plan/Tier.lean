import TransitQuery.Proofs.Plan.Feasible

/-!
# Which tier a valid query meets

Validation looks at whether a context has spatial tests or boxes, and no further. For the native
tier that is not enough: it also takes a geometry column. So without such a column a valid query may
meet no tier at all, and one whose target is the boundary may meet boxes, which cannot test it. With
the column neither happens (`SpatialQuery.tier_of_violations`).

* `Tier.select_eq_native_iff`, `ClauseContext.exists_ofContext_iff`: when the native tier is
  selected, and when any is.
* `SpatialQuery.ready_of_violations`, `SpatialQuery.spatialReady_of_target`: what a valid query
  knows of its context.
* `SpatialQuery.lacksNative_iff`: with a boundary as the target, the predicate fails for lack of
  spatial tests just if the tier is not the native one. Other failures, such as a column that is
  missing, do not count here.
* `SpatialQuery.tier_of_violations`: the statements together, under the condition under which they
  hold.

The last two theorems run the planner on valid queries: with a geometry column, and without one,
where the native tier that validation had in mind is not to be had.
-/

namespace TransitQuery

variable {R : Type}

/-! ### Tiers of contexts -/

/-- The native tier takes spatial tests and a geometry column. -/
theorem Tier.select_eq_native_iff {c : Context R} :
    Tier.select c = some .native ↔ c.spatialReady = true ∧ c.geometryField.isSome = true := by
  unfold select
  cases c.spatialReady <;> cases c.geometryField.isSome <;> cases c.bboxReady <;> decide

/-- There is a tier if there is the native one or boxes are ready. -/
private theorem Tier.isSome_select_iff {c : Context R} :
    (Tier.select c).isSome = true ↔
      (c.spatialReady = true ∧ c.geometryField.isSome = true) ∨ c.bboxReady = true := by
  unfold select
  cases c.spatialReady <;> cases c.geometryField.isSome <;> cases c.bboxReady <;> decide

/-- The clauses of a context are there if it has a tier. -/
theorem ClauseContext.exists_ofContext_iff {c : Context R} :
    (∃ s, ClauseContext.ofContext c = .ok s) ↔ (Tier.select c).isSome = true := by
  unfold ofContext
  cases Tier.select c <;> simp

/-- The errors that tell that spatial tests are missing: for all clauses, or for those that are
about the boundary. -/
inductive BuildError.LacksNative : BuildError R → Prop
  | noTier : LacksNative .noTier
  | boundary (origin : ClauseOrigin) : LacksNative (.boundaryNeedsNative origin)

variable [Scalar R]

/-- The predicate of a contract in a context. -/
def Contract.predicateIn (contract : Contract R) (c : Context R) :
    Except (BuildError R) (Predicate R) := do
  let s ← ClauseContext.ofContext c
  s.predicate contract

namespace SpatialQuery

variable {q : SpatialQuery R} {c : Context R}

/-! ### What validation asks of a context -/

/-- A context in which a query is valid has spatial tests or boxes. -/
theorem ready_of_violations (h : q.violations c = []) :
    c.spatialReady = true ∨ c.bboxReady = true := by
  obtain ⟨-, htarget, -⟩ := violations_eq_nil_iff.mp h
  cases hcase : q.target with
  | selectedPoint =>
    rw [hcase, Target.violations_selectedPoint_eq_nil_iff] at htarget
    exact htarget.2
  | boundary =>
    rw [hcase, Target.violations_boundary_eq_nil_iff] at htarget
    exact .inl htarget.2

/-- If the target is the boundary, it has spatial tests. -/
theorem spatialReady_of_target (h : q.violations c = []) (htarget : q.target = .boundary) :
    c.spatialReady = true := by
  obtain ⟨-, hviolations, -⟩ := violations_eq_nil_iff.mp h
  rw [htarget, Target.violations_boundary_eq_nil_iff] at hviolations
  exact hviolations.2

/-! ### What is built -/

/-- On the native tier nothing fails for lack of spatial tests. -/
theorem Obstacle.not_lacksNative {e : BuildError R} (h : q.Obstacle c e)
    (hnative : Tier.select c = some .native) : ¬e.LacksNative := by
  intro hlacks
  cases h with
  | noTier hnone => cases hnone.symm.trans hnative
  | lacks htier horigin h =>
    obtain rfl := Option.some.inj (htier.symm.trans hnative)
    generalize q.subjectOf _ = subject at h
    cases h with
    | nativeTier htier => cases htier
    | _ => cases hlacks

/-- With boxes, the main clause fails if the target is the boundary. -/
theorem predicate_contractWith_of_bbox (htarget : q.target = .boundary) (now : Instant)
    (supplements : List (Supplement R)) :
    (⟨c, .bbox, none⟩ : ClauseContext R).predicate (q.contractWith now c supplements) =
      .error (.boundaryNeedsNative .main) := by
  have hcompatible : (q.contractWith now c supplements).isCompatible = true := by
    simp [Contract.isCompatible, contractWith]
  have hmain : ∀ given, (⟨c, .bbox, none⟩ : ClauseContext R).mainWith given q.mainClause =
      .error (.boundaryNeedsNative .main) := by
    intro given
    unfold ClauseContext.mainWith
    rw [mainClause, htarget]
    cases Relation.ofCondition q.condition <;> rfl
  rw [ClauseContext.predicate, if_pos hcompatible]
  change ClauseContext.entries _ _ (.main q.mainClause :: _) = _
  rw [ClauseContext.entries, hmain]
  rfl

/-- Around a boundary, spatial tests are missed just when the tier is not the native one. -/
theorem lacksNative_iff (hvalid : q.violations c = []) (htarget : q.target = .boundary)
    {supplements : List (Supplement R)} (hresolve : q.resolveBlocks = .ok supplements)
    (now : Instant) :
    (∃ e, (q.contractWith now c supplements).predicateIn c = .error e ∧ e.LacksNative) ↔
      Tier.select c ≠ some .native := by
  unfold Contract.predicateIn ClauseContext.ofContext
  cases htier : Tier.select c with
  | none => exact iff_of_true ⟨_, rfl, .noTier⟩ (by simp)
  | some tier =>
    dsimp only [ok_bind]
    cases tier with
    | native =>
      refine iff_of_false ?_ (not_not_intro rfl)
      rintro ⟨e, he, hlacks⟩
      rcases predicate_cases hvalid htier hresolve with ⟨-, p, hp⟩ | ⟨e', hobstacle, he'⟩
      · cases hp.symm.trans he
      · obtain rfl := Except.error.inj (he'.symm.trans he)
        exact hobstacle.not_lacksNative htier hlacks
    | bbox =>
      exact iff_of_true ⟨_, predicate_contractWith_of_bbox htarget now supplements, .boundary _⟩
        (by simp)

/-- What a valid query meets. It compiles, and its context has a tier and clauses if there is a
geometry column or boxes are ready. If its target is the boundary, the tier is the native one just
when there is a geometry column, and just then its predicate does not fail for lack of spatial
tests. -/
theorem tier_of_violations (hvalid : q.violations c = []) (now : Instant) :
    ∃ contract, q.compile now c = .ok contract ∧
      ((Tier.select c).isSome = true ↔
        c.geometryField.isSome = true ∨ c.bboxReady = true) ∧
      ((∃ s, ClauseContext.ofContext c = .ok s) ↔
        c.geometryField.isSome = true ∨ c.bboxReady = true) ∧
      (q.target = .boundary →
        (Tier.select c = some .native ↔ c.geometryField.isSome = true) ∧
        ((∃ e, contract.predicateIn c = .error e ∧ e.LacksNative) ↔ c.geometryField = none)) := by
  obtain ⟨-, supplements, hresolve, -, hcompile⟩ := exists_compile_of_violations hvalid
  have hsome : (Tier.select c).isSome = true ↔
      c.geometryField.isSome = true ∨ c.bboxReady = true := by
    rw [Tier.isSome_select_iff]
    constructor
    · rintro (⟨-, hfield⟩ | hboxes)
      · exact .inl hfield
      · exact .inr hboxes
    · rintro (hfield | hboxes)
      · exact (ready_of_violations hvalid).imp_left fun hspatial => ⟨hspatial, hfield⟩
      · exact .inr hboxes
  refine ⟨_, hcompile now, hsome, ClauseContext.exists_ofContext_iff.trans hsome,
    fun htarget => ?_⟩
  have hnative : Tier.select c = some .native ↔ c.geometryField.isSome = true := by
    rw [Tier.select_eq_native_iff]
    exact and_iff_right (spatialReady_of_target hvalid htarget)
  refine ⟨hnative, (lacksNative_iff hvalid htarget hresolve now).trans ?_⟩
  rw [Ne, hnative, Option.not_isSome_iff_eq_none]

/-- Routes within 300 meters of a boundary. -/
def quayQuery : SpatialQuery FlatDouble :=
  { (default : SpatialQuery FlatDouble) with target := .boundary }

/-- Spatial tests and boxes, with the point `(0, 0)` selected and as the boundary, and perhaps a
geometry column. -/
def quayContext (geometryField : Option String) (bboxReady : Bool) : Context FlatDouble :=
  { (Context.empty : Context FlatDouble) with
    spatialReady := true
    geometryField
    bboxReady
    bboxFields := some BoxColumns.default
    point := some ⟨(0 : Float), (0 : Float)⟩
    boundary := some (.wkt "POINT (0 0)") }

/-- With a geometry column there is the native tier for the boundary, and spatial tests are not
missed. -/
theorem tier_of_violations_quay :
    quayQuery.violations (quayContext (some "geometry") false) = [] ∧
      ∃ contract, quayQuery.compile ⟨0, 0⟩ (quayContext (some "geometry") false) = .ok contract ∧
        Tier.select (quayContext (some "geometry") false) = some .native ∧
        ∀ e, contract.predicateIn (quayContext (some "geometry") false) = .error e →
          ¬e.LacksNative := by
  have hvalid : quayQuery.violations (quayContext (some "geometry") false) = [] :=
    List.isEmpty_iff.mp (by decide +kernel)
  obtain ⟨contract, hcontract, -, -, htarget⟩ := tier_of_violations hvalid ⟨0, 0⟩
  obtain ⟨hnative, hlacks⟩ := htarget rfl
  refine ⟨hvalid, contract, hcontract, hnative.mpr rfl, fun e he hmissed => ?_⟩
  cases hlacks.mp ⟨e, he, hmissed⟩

/-- Without the column, valid queries meet no tier, and boxes for a boundary. -/
theorem not_tier_of_violations_quay :
    ((default : SpatialQuery FlatDouble).violations (quayContext none false) = [] ∧
      Tier.select (quayContext none false) = none ∧
      ∃ contract, default.compile ⟨0, 0⟩ (quayContext none false) = .ok contract ∧
        contract.predicateIn (quayContext none false) = .error .noTier) ∧
    quayQuery.violations (quayContext none true) = [] ∧
      Tier.select (quayContext none true) = some .bbox ∧
      ∃ contract, quayQuery.compile ⟨0, 0⟩ (quayContext none true) = .ok contract ∧
        contract.predicateIn (quayContext none true) = .error (.boundaryNeedsNative .main) := by
  have hpoint : (default : SpatialQuery FlatDouble).violations (quayContext none false) = [] :=
    List.isEmpty_iff.mp (by decide +kernel)
  have hboundary : quayQuery.violations (quayContext none true) = [] :=
    List.isEmpty_iff.mp (by decide +kernel)
  obtain ⟨-, _, -, -, hcompile⟩ := exists_compile_of_violations hpoint
  obtain ⟨-, supplements, -, -, hcompile'⟩ := exists_compile_of_violations hboundary
  exact ⟨⟨hpoint, rfl, _, hcompile ⟨0, 0⟩, rfl⟩, hboundary, rfl, _, hcompile' ⟨0, 0⟩,
    predicate_contractWith_of_bbox rfl _ supplements⟩

end SpatialQuery

end TransitQuery
