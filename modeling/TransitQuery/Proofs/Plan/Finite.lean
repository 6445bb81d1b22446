import TransitQuery.Proofs.Geometry.Finite
import TransitQuery.Proofs.Plan.Feasible
import TransitQuery.Proofs.Predicate.Boxes
import TransitQuery.Proofs.Predicate.Numbers
import TransitQuery.Proofs.Scalar.Steady

/-!
# Finite numbers in plans

Validation lets only finite radii through, and looks at the selected point only if that is the
target. So the numbers of a plan come from finite ones, with two gaps: a block may measure from a
point that was never looked at, and the sides of a box are computed without a look at the result.
`Plan.hasFiniteNumbers_iff` says that there are no others.

The numbers of a predicate are listed leaf by leaf (`Predicate.numbers`), those of a plan are the
ones of its two predicates, and the statement is about all of them at once. A clause brings in a
radius, a point, or the four sides of a box, and which of these depends on its subject and on the
tier.

* `hasFiniteNumbers_typedClause_iff`: clause by clause, the numbers are finite just if
  `MeasuresFinite` holds of the radius.
* `SpatialQuery.hasFiniteRadius_of_mem_entries`: the radii of a valid query are finite, inherited
  ones included.
* `Plan.hasFiniteNumbers_iff`: what is left to ask is whether the point is finite, if it is
  measured from, and whether the box around it is.

That a radius stays finite when it becomes one in degrees is the law `MeteredScalar`. Doubles have
it, because they are divided by a number greater than one.
-/

namespace TransitQuery

variable {R : Type}

/-! ### The numbers of joined clauses -/

/-- Joining a clause adds its numbers. -/
theorem numbers_join (type : BlockType) (e : Predicate R) (clause : Predicate R) :
    ∃ q, type.join (some e) clause = some q ∧ q.numbers = e.numbers ++ clause.numbers := by
  by_cases h : clause.isTrivial = true
  · refine ⟨e, join_of_isTrivial h, ?_⟩
    rw [Predicate.numbers_of_isTrivial h, List.append_nil]
  · cases type <;> simp [BlockType.join, h, Predicate.numbers]

/-- Joining clauses adds the numbers of each, in their order. -/
private theorem numbers_joinAll {e q : Predicate R} {cs : List (TypedClause R)}
    (h : joinAll (some e) cs = some q) :
    q.numbers = e.numbers ++ cs.flatMap fun c => c.clause.numbers := by
  induction cs generalizing e with
  | nil =>
    obtain rfl := Option.some.inj h
    rw [List.flatMap_nil, List.append_nil]
  | cons c cs ih =>
    obtain ⟨e', he', hnumbers⟩ := numbers_join c.type e c.clause
    rw [joinAll_cons, he'] at h
    rw [ih h, hnumbers, List.flatMap_cons, List.append_assoc]

/-! ### Point clauses -/

/-- An entry has a radius if it is about the point. -/
private theorem Entry.isSome_radius?_iff (entry : Entry R) :
    entry.radius?.isSome = true ↔ entry.subject = .point := by
  cases entry with
  | main m =>
    obtain ⟨target, radius, relation⟩ := m
    cases target <;> simp [Entry.radius?, Entry.subject, Target.subject]
  | supplement b =>
    obtain ⟨type, clause⟩ := b
    cases clause <;>
      simp [Entry.radius?, Entry.subject, Clause.kind, BlockOperator.subject]

variable [Scalar R]

/-- The numbers of a predicate are those of its clauses. -/
theorem ClauseContext.numbers_predicate {s : ClauseContext R} {contract : Contract R}
    {p : Predicate R} (h : s.predicate contract = .ok p) :
    ∃ cs, s.clauses contract = .ok cs ∧ p.numbers = cs.flatMap fun c => c.clause.numbers := by
  obtain ⟨m, bs, main, cs, -, -, -, -, hcs, hjoin⟩ := exists_clauses_of_predicate h
  exact ⟨_, hcs, numbers_joinAll hjoin⟩

/-! ### Finite numbers -/

/-- Whether all numbers in the predicates of a plan are finite. -/
def Plan.hasFiniteNumbers (plan : Plan R) : Bool :=
  plan.request.predicate.hasFiniteNumbers && plan.refinement.all (·.predicate.hasFiniteNumbers)

/-- A type of scalars in which radii stay finite when they are turned into degrees. -/
class MeteredScalar (R : Type) [Scalar R] : Prop where
  isFinite_zero : Scalar.isFinite (Scalar.zero : R) = true
  isFinite_degreesOfMeters : ∀ {x : R}, Scalar.isFinite x = true →
    Scalar.isFinite (degreesOfMeters x) = true

/-- An entry whose radius is finite, if it has one. -/
def Entry.hasFiniteRadius : Entry R → Bool
  | main m => Scalar.isFinite m.distance
  | supplement b => b.clause.hasFiniteRadius

private theorem Entry.isFinite_of_radius {entry : Entry R} {radius : R}
    (h : entry.hasFiniteRadius = true) (hradius : entry.radius? = some radius) :
    Scalar.isFinite radius = true := by
  match entry, hradius with
  | .main ⟨.selectedPoint, _, _⟩, rfl => exact h
  | .supplement ⟨_, .nearPoint _⟩, rfl => exact h

namespace ClauseContext

variable {s : ClauseContext R}

/-- The numbers by which a clause measures a radius from the selected point are finite: the sides of
the box on the tier of boxes, and otherwise the point itself. -/
def MeasuresFinite (s : ClauseContext R) (radius : R) : Prop :=
  ∀ p ∈ s.context.point, if s.exactField = none ∧ s.tier = .bbox
    then ∀ box ∈ p.surroundings? radius, box.isFinite = true else p.isFinite = true

/-- A disc with a finite radius has finite numbers if its middle has. -/
private theorem hasFiniteNumbers_of_disc {p : LatLng R} {radius : R}
    (hradius : Scalar.isFinite radius = true) :
    [p.lng, p.lat, radius].all Scalar.isFinite = p.isFinite := by
  simp only [List.all_cons, List.all_nil, hradius, Bool.and_true, LatLng.isFinite]
  ac_rfl

/-- An attribute clause has no numbers. -/
theorem hasFiniteNumbers_of_isAttribute {q : Predicate R} (h : q.IsAttribute) :
    q.hasFiniteNumbers = true := by
  match q, h with
  | _, .always | _, .equals _ _ => rfl
  | _, .anyOf fields value =>
    rw [Predicate.hasFiniteNumbers, Predicate.numbers, Predicate.memberNumbers_equals]
    rfl

/-- The exact form brings in the point, whatever the tier is. -/
theorem hasFiniteNumbers_withinMeters_iff {field : String} {point : LatLng R} {radius : R}
    (hradius : Scalar.isFinite radius = true) (hpoint : s.context.point = some point)
    (hexact : s.exactField = some field) :
    (Predicate.withinMeters field point radius).hasFiniteNumbers = true ↔
      s.MeasuresFinite radius := by
  unfold MeasuresFinite
  simp only [hpoint, Option.mem_def, Option.some.injEq, forall_eq']
  rw [Predicate.hasFiniteNumbers, Predicate.numbers, hasFiniteNumbers_of_disc hradius,
    if_neg (by simp [hexact])]

variable [MeteredScalar R]

/-- A leaf brings in the point, or on the tier of boxes the sides of the box around it. -/
theorem hasFiniteNumbers_tierLeaf_iff {relation : Relation} {point : LatLng R} {radius : R}
    {q : Predicate R} (hradius : Scalar.isFinite radius = true)
    (hpoint : s.context.point = some point) (hexact : s.exactField = none)
    (h : s.tierLeaf relation point radius = .ok q) :
    q.hasFiniteNumbers = true ↔ s.MeasuresFinite radius := by
  have hdegrees := MeteredScalar.isFinite_degreesOfMeters hradius
  unfold MeasuresFinite
  simp only [hpoint, Option.mem_def, Option.some.injEq, forall_eq']
  obtain ⟨htier, field, -, rfl⟩ | ⟨htier, columns, box, -, hbox, rfl⟩ := tierLeaf_eq_ok h
  · rw [if_neg (by simp [htier])]
    cases relation <;>
      rw [nativeLeaf, Predicate.hasFiniteNumbers, Predicate.numbers,
        hasFiniteNumbers_of_disc hdegrees]
  · rw [if_pos ⟨hexact, htier⟩]
    simp [Predicate.hasFiniteNumbers_boxOverlap, hbox]

/-- A clause brings in numbers that are not finite only where it measures from the point. -/
theorem hasFiniteNumbers_typedClause_iff {given : Option (Boundary R)} {entry : Entry R}
    {c : TypedClause R} (hfinite : entry.hasFiniteRadius = true)
    (h : s.typedClause given entry = .ok c) :
    c.clause.hasFiniteNumbers = true ↔ ∀ radius ∈ entry.radius?, s.MeasuresFinite radius := by
  obtain ⟨q, rfl, hclause⟩ := isClauseOf_of_typedClause h
  cases hclause with
  | leaf hradius hpoint hexact hleaf =>
    rw [hasFiniteNumbers_tierLeaf_iff (Entry.isFinite_of_radius hfinite hradius) hpoint hexact
      hleaf]
    simp [hradius]
  | meters hradius hpoint hexact =>
    rw [hasFiniteNumbers_withinMeters_iff (Entry.isFinite_of_radius hfinite hradius) hpoint hexact]
    simp [hradius]
  | @boundary _ _ _ _ buffer hradius _ hbuffer =>
    have hbuffer : Scalar.isFinite buffer = true := by
      obtain rfl | ⟨relation, rfl⟩ := hbuffer
      · exact MeteredScalar.isFinite_zero
      · exact hfinite
    refine iff_of_true ?_ (by simp [hradius])
    simp [Predicate.hasFiniteNumbers, Predicate.numbers,
      MeteredScalar.isFinite_degreesOfMeters hbuffer]
  | comparison hradius hattribute =>
    exact iff_of_true (hasFiniteNumbers_of_isAttribute hattribute) (by simp [hradius])

/-- The numbers of a predicate are finite if all radii of its contract are measured in finite
numbers. -/
theorem hasFiniteNumbers_predicate_iff {contract : Contract R} {p : Predicate R}
    (hradius : ∀ entry ∈ contract.entries, entry.hasFiniteRadius = true)
    (h : s.predicate contract = .ok p) :
    p.hasFiniteNumbers = true ↔ ∀ radius ∈ contract.radii, s.MeasuresFinite radius := by
  obtain ⟨cs, hcs, hnumbers⟩ := numbers_predicate h
  obtain ⟨hfrom, hto⟩ := exists_of_mapM_eq_ok hcs
  have hall : p.hasFiniteNumbers = true ↔ ∀ c ∈ cs, c.clause.hasFiniteNumbers = true := by
    rw [Predicate.hasFiniteNumbers, hnumbers, List.all_flatMap, List.all_eq_true]
    rfl
  rw [hall]
  constructor
  · intro hfinite radius hmem
    obtain ⟨entry, hentry, hr⟩ := List.mem_filterMap.mp hmem
    obtain ⟨c, hc, hclause⟩ := hto entry hentry
    exact (hasFiniteNumbers_typedClause_iff (hradius entry hentry) hclause).mp (hfinite c hc)
      radius hr
  · intro hfinite c hc
    obtain ⟨entry, hentry, hclause⟩ := hfrom c hc
    exact (hasFiniteNumbers_typedClause_iff (hradius entry hentry) hclause).mpr fun radius hr =>
      hfinite radius (List.mem_filterMap.mpr ⟨entry, hentry, hr⟩)

end ClauseContext

/-! ### Valid queries -/

namespace SpatialQuery

variable {q : SpatialQuery R} {c : Context R} {contract : Contract R}

/-- As a target, the selected point is finite. -/
theorem isFinite_of_target (h : q.violations c = []) (htarget : q.target = .selectedPoint)
    {p : LatLng R} (hp : c.point = some p) : p.isFinite = true := by
  obtain ⟨-, hviolations, -⟩ := violations_eq_nil_iff.mp h
  rw [htarget, Target.violations_selectedPoint_eq_nil_iff] at hviolations
  obtain ⟨⟨p', hp', hfinite, -⟩, -⟩ := hviolations
  obtain rfl := Option.some.inj (hp.symm.trans hp')
  exact hfinite

/-- The radii of a valid query are finite. -/
private theorem hasFiniteRadius_of_mem_entries (h : q.violations c = []) {now : Instant}
    (hcontract : q.compile now c = .ok contract) :
    ∀ entry ∈ contract.entries, entry.hasFiniteRadius = true := by
  obtain ⟨hdistance, supplements, -, hall, hcompile⟩ := exists_compile_of_violations h
  obtain rfl := Except.ok.inj ((hcompile now).symm.trans hcontract)
  refine List.forall_mem_cons.mpr ⟨hdistance, fun entry hentry => ?_⟩
  obtain ⟨s, hs, rfl⟩ := List.mem_map.mp hentry
  exact hall s hs

/-- A contract measures from the point if that is the target or some block does. -/
theorem radii_ne_nil_iff (h : q.violations c = []) {now : Instant}
    (hcontract : q.compile now c = .ok contract) :
    contract.radii ≠ [] ↔ q.target = .selectedPoint ∨ q.Uses .nearPoint := by
  obtain ⟨-, supplements, hresolve, -, hcompile⟩ := exists_compile_of_violations h
  obtain rfl := Except.ok.inj ((hcompile now).symm.trans hcontract)
  obtain ⟨hfrom, hto⟩ := has_entries h now hresolve
  have hradii : (q.contractWith now c supplements).radii ≠ [] ↔
      ∃ entry ∈ (q.contractWith now c supplements).entries, entry.subject = .point := by
    rw [Contract.radii, Ne, List.filterMap_eq_nil_iff]
    simp only [← Entry.isSome_radius?_iff, Option.isSome_iff_ne_none, not_forall, exists_prop]
  rw [hradii]
  constructor
  -- an entry measures from the point because of its origin, the target or a block
  · rintro ⟨entry, hentry, hpoint⟩
    obtain ⟨hhas, hsubject⟩ := hfrom entry hentry
    rw [hpoint] at hsubject
    cases horigin : entry.origin with
    | main =>
      rw [horigin, subjectOf] at hsubject
      cases htarget : q.target with
      | selectedPoint => exact .inl rfl
      | boundary =>
        rw [htarget] at hsubject
        cases hsubject
    | block op =>
      rw [horigin] at hhas hsubject
      cases op with
      | nearPoint => exact .inr hhas
      | _ => cases hsubject
  · rintro (htarget | huses)
    · obtain ⟨entry, hentry, horigin⟩ := hto .main trivial
      refine ⟨entry, hentry, ?_⟩
      rw [(hfrom entry hentry).2, horigin, subjectOf, htarget]
      rfl
    · obtain ⟨entry, hentry, horigin⟩ := hto (.block .nearPoint) huses
      refine ⟨entry, hentry, ?_⟩
      rw [(hfrom entry hentry).2, horigin]
      rfl

/-- Boxes are used only for a query whose target is the selected point. -/
theorem target_of_bbox (h : q.violations c = []) {now : Instant}
    (hcontract : q.compile now c = .ok contract) {s : ClauseContext R} {p : Predicate R}
    (hp : s.predicate contract = .ok p) (htier : s.tier = .bbox) :
    q.target = .selectedPoint := by
  obtain ⟨-, supplements, -, -, hcompile⟩ := exists_compile_of_violations h
  obtain rfl := Except.ok.inj ((hcompile now).symm.trans hcontract)
  obtain ⟨m, bs, main, cs, hentries, hmain, -⟩ := ClauseContext.exists_clauses_of_predicate hp
  obtain rfl := Entry.main.inj (List.cons.inj hentries).1
  have hsome : (Entry.main q.mainClause).radius?.isSome = true := by
    cases ClauseContext.isClauseOf_of_mainWith hmain with
    | leaf hradius | meters hradius => rw [hradius]; rfl
    | boundary _ hnative _ => cases htier.symm.trans hnative
  cases htarget : q.target with
  | selectedPoint => rfl
  | boundary => simp [SpatialQuery.mainClause, Entry.radius?, htarget] at hsome

end SpatialQuery

private theorem forall_mem_const_iff {α : Type} {as : List α} {p : Prop} :
    (∀ a ∈ as, p) ↔ (as ≠ [] → p) := by
  cases as with
  | nil => simp
  | cons a as =>
    exact ⟨fun h _ => h a List.mem_cons_self, fun h _ _ => h (List.cons_ne_nil a as)⟩

namespace Plan

variable [MeteredScalar R] {q : SpatialQuery R} {c : Context R} {contract : Contract R}
  {plan : Plan R} {now : Instant} {settings : Settings}

/-- What the numbers of a plan come from, clause by clause. -/
theorem Realizes.finiteNumbers_iff {s : ClauseContext R} {idField : String}
    (h : plan.Realizes s contract settings idField)
    (hradius : ∀ entry ∈ contract.entries, entry.hasFiniteRadius = true) :
    plan.hasFiniteNumbers = true ↔ (∀ radius ∈ contract.radii, s.MeasuresFinite radius) ∧
      (plan.refinement.isSome = true → contract.radii ≠ [] →
        ∀ p ∈ s.context.point, p.isFinite = true) := by
  rw [hasFiniteNumbers, Bool.and_eq_true,
    ClauseContext.hasFiniteNumbers_predicate_iff hradius h.predicate_eq]
  refine and_congr_right fun _ => ?_
  cases hr : plan.refinement with
  | none => simp
  | some r =>
    obtain ⟨-, field, -, hpredicate⟩ := h.exact_eq hr
    have hiff := ClauseContext.hasFiniteNumbers_predicate_iff hradius hpredicate
    rw [Option.all_some, hiff]
    have hmeasures (radius : R) : (s.exactOn field).MeasuresFinite radius ↔
        ∀ p ∈ s.context.point, p.isFinite = true := by
      simp [ClauseContext.MeasuresFinite, ClauseContext.exactOn]
    simp only [hmeasures, Option.isSome_some, true_imp_iff, forall_mem_const_iff]

/-- The numbers of a plan for a valid query are finite, but for a point that is not the target and
from which a block measures, and for the sides of boxes. -/
theorem hasFiniteNumbers_iff (hvalid : q.violations c = [])
    (hcontract : q.compile now c = .ok contract)
    (hplan : Plan.ofContract contract c settings = .ok plan) :
    plan.hasFiniteNumbers = true ↔
      (q.target = .boundary → q.Uses .nearPoint → ∀ p ∈ c.point, p.isFinite = true) ∧
        (plan.tier = .bbox → ∀ radius ∈ contract.radii, ∀ p ∈ c.point,
          ∀ box ∈ p.surroundings? radius, box.isFinite = true) := by
  have hradius := SpatialQuery.hasFiniteRadius_of_mem_entries hvalid hcontract
  have hne := SpatialQuery.radii_ne_nil_iff hvalid hcontract
  obtain ⟨idField, s, -, hs, hrealizes⟩ := exists_realizes_of_ofContract hplan
  obtain ⟨rfl, hexact, -⟩ := ClauseContext.of_ofContext hs
  have hfinite {p : LatLng R} (hp : p ∈ s.context.point) (htarget : q.target = .selectedPoint) :
      p.isFinite = true :=
    SpatialQuery.isFinite_of_target hvalid htarget hp
  rw [hrealizes.finiteNumbers_iff hradius, hrealizes.tier_eq]
  cases hcase : s.tier with
  | native =>
    have hmeasures (radius : R) : s.MeasuresFinite radius ↔
        ∀ p ∈ s.context.point, p.isFinite = true := by
      simp [ClauseContext.MeasuresFinite, hcase]
    simp only [hmeasures, forall_mem_const_iff, hne, reduceCtorEq, false_imp_iff, and_true]
    constructor
    · exact fun ⟨h, _⟩ _ huses => h (.inr huses)
    · intro h
      -- a point that is the target has been looked at
      have hall (hmeasured : q.target = .selectedPoint ∨ q.Uses .nearPoint) :
          ∀ p ∈ s.context.point, p.isFinite = true := by
        cases htarget : q.target with
        | selectedPoint => exact fun p hp => hfinite hp htarget
        | boundary => exact h htarget (hmeasured.resolve_left (by simp [htarget]))
      exact ⟨hall, fun _ => hall⟩
  | bbox =>
    have htarget :=
      SpatialQuery.target_of_bbox hvalid hcontract hrealizes.predicate_eq hcase
    have hmeasures (radius : R) : s.MeasuresFinite radius ↔
        ∀ p ∈ s.context.point, ∀ box ∈ p.surroundings? radius, box.isFinite = true := by
      simp [ClauseContext.MeasuresFinite, hexact, hcase]
    simp only [hmeasures, htarget, reduceCtorEq, false_imp_iff, true_and, true_imp_iff]
    exact and_iff_left fun _ _ p hp => hfinite hp htarget

end Plan

/-! ### Doubles -/

namespace Double

private theorem exists_parts_metersPerDegree :
    ∃ m e, parts (ofInt 111320) = .finite false m e ∧ (1 : ℚ) ≤ m * 2 ^ e := by
  have hcanonical : Binary64.IsCanonical Binary64.minMantissa 12 := by
    refine ⟨?_, ?_, ?_, ?_⟩ <;> decide
  have hbound : ((111320 : Nat) : ℚ) ≤ Binary64.minMantissa * 2 ^ (12 : Int) := by
    rw [Binary64.minMantissa_eq]
    norm_num
  have hnumeral : ofInt 111320 = ofNumeral (.finite false 111320 0) := by
    simp [ofInt]
  rw [hnumeral]
  exact exists_parts_ofNumeral (by rw [Numeral.scaled, zpow_zero, mul_one]) (by decide)
    hcanonical hbound false

instance metered (sin cos : Float → Float) (atan2 : Float → Float → Float) :
    @MeteredScalar Float (scalar sin cos atan2) :=
  letI := scalar sin cos atan2
  have hzero : isFinite (ofInt 0) = true := isFinite_ofInt (by decide)
  { isFinite_zero := by
      unfold Scalar.zero
      exact hzero
    isFinite_degreesOfMeters := fun hx => by
      obtain ⟨m, e, hparts, hone⟩ := exists_parts_metersPerDegree
      exact isFinite_div hx hparts hone }

end Double

instance : MeteredScalar FlatDouble :=
  Double.metered (fun angle => angle) (fun _ => (1 : Float)) (fun y _ => y)

namespace SpatialQuery

/-- Routes within a boundary that come within a kilometer of the selected point. -/
def shoreQuery : SpatialQuery FlatDouble where
  find := .routes
  condition := .within
  distance := (300 : Float)
  target := .boundary
  blocks := [⟨some "include", some "near_point", none, some (1000 : Float)⟩]

/-- A context with exact tests, a boundary, and a selected point with a latitude. -/
def shoreContext (lat : Float) : Context FlatDouble :=
  { (Context.empty : Context FlatDouble) with
    serviceIdField := some "id"
    spatialReady := true
    geometryField := some "geometry"
    point := some ⟨lat, (0 : Float)⟩
    boundary := some (.wkt "POINT (0 0)") }

/-- The plan of the query, if there is one. -/
def shorePlan? (lat : Float) : Option (Plan FlatDouble) :=
  (shoreQuery.compile ⟨0, 0⟩ (shoreContext lat)).toOption.bind fun contract =>
    (Plan.ofContract contract (shoreContext lat) Settings.default).toOption

/-- A plan that passes a test has been made from a contract. -/
private theorem exists_of_shorePlan? (lat : Float) (test : Plan FlatDouble → Bool)
    (h : (shorePlan? lat).any test = true) :
    ∃ contract plan, shoreQuery.compile ⟨0, 0⟩ (shoreContext lat) = .ok contract ∧
      Plan.ofContract contract (shoreContext lat) Settings.default = .ok plan ∧
      test plan = true := by
  obtain ⟨plan, hplan, htest⟩ := Option.any_eq_true .. |>.mp h
  obtain ⟨contract, hcontract, hplan⟩ := Option.bind_eq_some_iff.mp hplan
  exact ⟨contract, plan, toOption_eq_some_iff.mp hcontract, toOption_eq_some_iff.mp hplan, htest⟩

/-- Around a point on the globe, all numbers of the plan are finite. -/
theorem shore_hasFiniteNumbers :
    shoreQuery.violations (shoreContext 1) = [] ∧ ∃ contract plan,
      shoreQuery.compile ⟨0, 0⟩ (shoreContext 1) = .ok contract ∧
      Plan.ofContract contract (shoreContext 1) Settings.default = .ok plan ∧
      plan.hasFiniteNumbers = true := by
  have hvalid : shoreQuery.violations (shoreContext 1) = [] :=
    List.isEmpty_iff.mp (by decide +kernel)
  obtain ⟨contract, plan, hcontract, hplan, htier⟩ :=
    exists_of_shorePlan? 1 (fun plan => plan.tier = .native) (by decide +kernel)
  refine ⟨hvalid, contract, plan, hcontract, hplan, ?_⟩
  refine (Plan.hasFiniteNumbers_iff hvalid hcontract hplan).mpr ⟨fun _ _ p hp => ?_, fun h => ?_⟩
  · obtain rfl := Option.some.inj hp
    decide +kernel
  · rw [decide_eq_true_eq.mp htier] at h
    cases h

/-- A latitude that is no number is not looked at, and gets into the plan. -/
theorem shore_not_hasFiniteNumbers :
    shoreQuery.violations (shoreContext Double.nan) = [] ∧ ∃ contract plan,
      shoreQuery.compile ⟨0, 0⟩ (shoreContext Double.nan) = .ok contract ∧
      Plan.ofContract contract (shoreContext Double.nan) Settings.default = .ok plan ∧
      plan.hasFiniteNumbers = false := by
  refine ⟨List.isEmpty_iff.mp (by decide +kernel), ?_⟩
  obtain ⟨contract, plan, hcontract, hplan, hnumbers⟩ :=
    exists_of_shorePlan? Double.nan (fun plan => !plan.hasFiniteNumbers)
      (by decide +kernel)
  exact ⟨contract, plan, hcontract, hplan, Bool.not_eq_true' _ |>.mp hnumbers⟩

end SpatialQuery

end TransitQuery
