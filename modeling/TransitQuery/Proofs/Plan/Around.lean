import TransitQuery.Proofs.Plan
import TransitQuery.Proofs.Predicate.Boxes
import TransitQuery.Proofs.Query.Compile

/-!
# Plans around a point

A query whose target is the selected point and which has no blocks asks for one disc. Its plan tests
that disc alone: on the native tier as a distance in degrees, on the tier of boxes as an overlap
and, where the context has a column of GeoJSON, as a distance in meters (`Plan.exists_isAround`). So
what the plan accepts is decided on every row.

`Plan.IsAround` lists what such a plan can be, tier by tier, and `Plan.IsAround.accepts_native` and
`Plan.IsAround.accepts_bbox` say what it accepts in terms of the row: on the native tier the
geometry of the row is near the point in degrees, and on the tier of boxes the four columns overlap
the box around the point and the geometry, if it is looked at, lies within the distance in meters.
Rows without a geometry are not accepted where one is looked at, and an answer is never left open,
since none of the tests fails on a cell that cannot be read.

The module serves the comparison of the tiers, in which one query is planned in contexts that
differ in what they offer.
-/

namespace TransitQuery

variable {R : Type} [Scalar R]

/-- A contract that has nothing but a main clause has the predicate of that clause. -/
theorem ClauseContext.mainWith_of_predicate {s : ClauseContext R} {contract : Contract R}
    {m : MainClause R} {p : Predicate R} (hentries : contract.entries = [.main m])
    (h : s.predicate contract = .ok p) : s.mainWith (s.boundaryOf contract) m = .ok p := by
  obtain ⟨m', bs, main, cs, hentries', hmain, -, hcs, -, hjoin⟩ := exists_clauses_of_predicate h
  rw [hentries] at hentries'
  obtain ⟨hm, hbs⟩ := List.cons.inj hentries'
  obtain rfl := Entry.main.inj hm
  obtain rfl := List.map_eq_nil_iff.mp hbs.symm
  obtain rfl := mapM_nil_eq_ok_iff.mp hcs
  obtain rfl : main = p := Option.some.inj hjoin
  exact hmain

/-- The predicate of a query without blocks is the point clause of its target. -/
theorem SpatialQuery.pointClause_of_predicate {q : SpatialQuery R} {c : Context R} {now : Instant}
    {s : ClauseContext R} {p : Predicate R} (htarget : q.target = .selectedPoint)
    (h : s.predicate (q.contractWith now c []) = .ok p) :
    s.pointClause .main (Relation.ofCondition q.condition) q.distance = .ok p := by
  have hentries : (q.contractWith now c []).entries = [.main q.mainClause] := rfl
  have hmain := ClauseContext.mainWith_of_predicate hentries h
  rw [ClauseContext.mainWith, SpatialQuery.mainClause, htarget] at hmain
  exact hmain

namespace Plan

/-- A plan tests on a tier whether rows lie in a disc, and nothing else. -/
inductive IsAround (plan : Plan R) (c : Context R) (p : LatLng R) (meters : R) : Tier → Prop
  /-- The geometry lies near the point. -/
  | native {relation : Relation} {field : String} (hfield : c.geometryField = some field)
    (hpredicate : plan.request.predicate = ClauseContext.nativeLeaf relation field p meters)
    (hrefinement : plan.refinement = none) : IsAround plan c p meters .native
  /-- The box overlaps the one around the point, and where there is a column of GeoJSON, the
  geometry lies within so many meters. -/
  | bbox {columns : BoxColumns} {box : Box R} (hcolumns : c.bboxFields = some columns)
    (hbox : p.surroundings? meters = some box)
    (hpredicate : plan.request.predicate = .boxOverlap columns box)
    (hrefinement : plan.refinement.map Refinement.predicate =
      c.geojsonField.map (Predicate.withinMeters · p meters)) : IsAround plan c p meters .bbox

namespace IsAround

variable {plan : Plan R} {c : Context R} {p : LatLng R} {meters : R} {tier : Tier}

/-- Nothing of that is left open on a row. -/
theorem isDecided (h : plan.IsAround c p meters tier) (row : Row R) :
    plan.request.predicate.IsDecided row := by
  cases h with
  | @native relation field hfield hpredicate hrefinement =>
    rw [hpredicate]
    cases relation <;> exact ⟨_, rfl⟩
  | bbox hcolumns hbox hpredicate hrefinement =>
    rw [hpredicate]
    exact ⟨_, rfl⟩

/-- On the native tier a row is accepted if its geometry is near enough in degrees. -/
theorem accepts_native (h : plan.IsAround c p meters .native) :
    ∃ field, c.geometryField = some field ∧ ∀ row : Row R,
      plan.accepts row = (row.geometry? field).any (·.isNear p (degreesOfMeters meters)) := by
  cases h with
  | @native relation field hfield hpredicate hrefinement =>
    refine ⟨field, hfield, fun row => ?_⟩
    rw [accepts, hpredicate, hrefinement, Option.all_none, Bool.and_true]
    cases relation <;> rfl

/-- On the tier of boxes it is accepted if its box overlaps and its geometry, where it is looked
at, is near enough in meters. -/
theorem accepts_bbox (h : plan.IsAround c p meters .bbox) :
    ∃ columns box, c.bboxFields = some columns ∧ p.surroundings? meters = some box ∧
      ∀ row : Row R, plan.accepts row = (row.boxOverlaps columns box &&
        c.geojsonField.all fun field => (row.geometry? field).any (·.isWithin p meters)) := by
  cases h with
  | @bbox columns box hcolumns hbox hpredicate hrefinement =>
    refine ⟨columns, box, hcolumns, hbox, fun row => ?_⟩
    have hrefined : (plan.refinement.all fun r => r.predicate.accepts row) =
        (plan.refinement.map Refinement.predicate).all (·.accepts row) := by
      cases plan.refinement <;> rfl
    rw [accepts, hpredicate, hrefined, hrefinement]
    cases c.geojsonField <;> rfl

end IsAround

variable {q : SpatialQuery R} {c : Context R} {contract : Contract R} {plan : Plan R}
  {now : Instant} {settings : Settings}

/-- The plan of a valid query around the selected point that has no blocks. -/
theorem exists_isAround (hvalid : q.violations c = []) (htarget : q.target = .selectedPoint)
    (hblocks : q.blocks = []) (hcontract : q.compile now c = .ok contract)
    (hplan : ofContract contract c settings = .ok plan) :
    ∃ idField p tier, c.serviceIdField = some idField ∧ c.point = some p ∧
      Tier.select c = some tier ∧ plan.request.table = settings.table q.find ∧
      plan.request.idField = idField ∧ plan.IsAround c p q.distance tier := by
  obtain ⟨idField, s, hid, hs, hrealizes⟩ := exists_realizes_of_ofContract hplan
  obtain ⟨-, supplements, hresolve, -, hcompile⟩ :=
    SpatialQuery.exists_compile_of_violations hvalid
  obtain rfl := Except.ok.inj ((hcompile now).symm.trans hcontract)
  have hnone : q.resolveBlocks = .ok [] := by rw [SpatialQuery.resolveBlocks, hblocks]; rfl
  obtain rfl := Except.ok.inj (hnone.symm.trans hresolve)
  obtain ⟨rfl, hexact, htier⟩ := ClauseContext.of_ofContext hs
  have hpredicate := SpatialQuery.pointClause_of_predicate htarget hrealizes.predicate_eq
  have htable : plan.request.table = settings.table q.find := hrealizes.table_eq
  cases hcase : s.tier with
  | native =>
    obtain ⟨p, field, hp, hfield, hnative⟩ :=
      ClauseContext.pointClause_of_native hcase hexact hpredicate
    refine ⟨idField, p, .native, hid, hp, by rw [htier, hcase], htable, hrealizes.idField_eq,
      .native hfield hnative ?_⟩
    have hrefinement := hrealizes.refinement_eq
    rw [refinementOf, hcase, Context.refinementField, if_pos (by simp)] at hrefinement
    exact (Except.ok.inj hrefinement).symm
  | bbox =>
    obtain ⟨p, columns, box, hp, hcolumns, hbox, hoverlap⟩ :=
      ClauseContext.pointClause_of_bbox hcase hexact hpredicate
    refine ⟨idField, p, .bbox, hid, hp, by rw [htier, hcase], htable, hrealizes.idField_eq,
      .bbox hcolumns hbox hoverlap ?_⟩
    have hready : s.context.bboxReady = true := by
      rw [hcase] at htier
      exact Tier.bboxReady_of_select htier
    -- candidates are refined if there is a column of GeoJSON
    have hfield : s.context.refinementField s.tier = s.context.geojsonField := by
      simp [Context.refinementField, hcase, hready, Context.hasPoint, hp]
    cases hgeojson : s.context.geojsonField with
    | none =>
      rw [hgeojson] at hfield
      have hrefinement := hrealizes.refinement_eq
      rw [refinementOf, hfield] at hrefinement
      rw [← Except.ok.inj hrefinement]
      rfl
    | some field =>
      obtain ⟨r, hr, hexact'⟩ := hrealizes.exists_refinement (hfield.trans hgeojson)
      obtain ⟨p', hp', hwithin⟩ := ClauseContext.pointClause_exactOn
        (SpatialQuery.pointClause_of_predicate htarget hexact')
      obtain rfl := Option.some.inj (hp.symm.trans hp')
      rw [hr, Option.map_some, Option.map_some, hwithin]

end Plan

end TransitQuery
