import TransitQuery.Proofs.Predicate.Boxes
import TransitQuery.Proofs.Service.Undisturbed

/-!
# What boxes lose

A call on the tier of boxes lets the engine test boxes and then refines the candidates. The
refinement can only drop rows, so nothing is lost just when the form in boxes accepts a row for
every identifier that the exact form accepts (`Session.reportsAll_iff`). Boxes that cover their
discs are not enough for that: a row in the box of an excluded disc, but outside the disc itself,
is lost.

* `ReportsAll` says that nothing is lost: of every row that satisfies a predicate, the identifier
  is reported. It does not have to be reported because of that row, since two rows can have the
  same identifier.
* `Plan.exists_refinement_of_boxes`: the plan has the form in boxes as its predicate and the exact
  form as its refinement.
* `Session.reportsAll_iff`: on this tier all rows are decided, so a call ends with identifiers, and
  these are the ones of the rows that both forms accept.

The two theorems at the end have the same query, but for the radius that is excluded, and the same
row. With a smaller radius the row is outside of the excluded box and reported; with the greater
one it is in the box, outside of the disc, and lost. The exact form accepts it both times.
-/

namespace TransitQuery

variable {R : Type} [Scalar R]

/-- The identifier of every row that satisfies a predicate is among those reported. -/
def ReportsAll (ids : List String) (column : String) (p : Predicate R) (rows : List (Row R)) :
    Prop :=
  ∀ row ∈ rows, p.accepts row = true → ∀ id ∈ row.id? column, id ∈ ids

/-- On the tier of boxes a predicate has a point clause, and so its context a point. -/
theorem ClauseContext.hasPoint_of_predicate {s : ClauseContext R} {contract : Contract R}
    {p : Predicate R} (htier : s.tier = .bbox) (h : s.predicate contract = .ok p) :
    s.context.hasPoint = true := by
  obtain ⟨m, _, main, _, -, hmain, -⟩ := exists_clauses_of_predicate h
  cases isClauseOf_of_mainWith hmain with
  | leaf _ hpoint | meters _ hpoint =>
    rw [Context.hasPoint, hpoint]
    rfl
  | boundary _ hnative _ => cases htier.symm.trans hnative

/-- A plan on the tier of boxes refines, where rows carry their geometry as GeoJSON. -/
theorem Plan.exists_refinement_of_boxes {contract : Contract R} {c : Context R}
    {settings : Settings} {plan : Plan R} (h : ofContract contract c settings = .ok plan)
    (htier : Tier.select c = some .bbox) {field : String} (hfield : c.geojsonField = some field) :
    ∃ clauses r, ClauseContext.ofContext c = .ok clauses ∧ clauses.context = c ∧
      clauses.tier = .bbox ∧ clauses.exactField = none ∧
      clauses.predicate contract = .ok plan.request.predicate ∧ plan.refinement = some r ∧
      (clauses.exactOn field).predicate contract = .ok r.predicate := by
  obtain ⟨idField, clauses, -, hclauses, hrealizes⟩ := exists_realizes_of_ofContract h
  have hs : clauses = ⟨c, .bbox, none⟩ := by
    rw [ClauseContext.ofContext, htier] at hclauses
    exact (Except.ok.inj hclauses).symm
  subst hs
  have hready := Tier.bboxReady_of_select htier
  have hpoint := ClauseContext.hasPoint_of_predicate rfl hrealizes.predicate_eq
  have hrefine : c.refinementField .bbox = some field := by
    rw [Context.refinementField, hready, hpoint, hfield]
    rfl
  obtain ⟨r, hr, hexact⟩ := hrealizes.exists_refinement hrefine
  exact ⟨_, r, hclauses, rfl, rfl, rfl, hrealizes.predicate_eq, hr, hexact⟩

namespace Session

variable {d : Disturbance}

/-- When nothing is lost on the tier of boxes. A call that is planned and not disturbed reports
identifiers. If boxes cover their discs, all rows are reported that the exact form of the query
accepts, just when each of them shares its identifier with such a row that also passes the clauses
in boxes; and they are, when no row lies in the box of an excluded disc without lying in the
disc. -/
theorem reportsAll_iff [LegibleScalar R] {s : Service R} {now : Instant} {q : SpatialQuery R}
    {c : Context R} {contract : Contract R} {plan : Plan R} (hvalid : q.violations c = [])
    (hcontract : (s.contractFor now q c).1 = .ok contract)
    (hplan : Plan.ofContract contract c s.settings = .ok plan)
    (htier : Tier.select c = some .bbox) {field : String} (hfield : c.geojsonField = some field)
    {s₁ s₂ s₃ : Session R} (hd : d.IsHarmless s₂.service.settings.timeout)
    (hmark₁ : s₁.service.isMarked s.nextToken = false)
    (hmark₃ : s₃.service.isMarked s.nextToken = false) {rows : List (Row R)}
    (hrows : s₂.store.rows? plan.request.table = some rows)
    (hfinite : ∀ row ∈ rows, row.hasFiniteNumbers = true)
    (hcovers : ∀ row ∈ rows, ∀ radius ∈ contract.radii, c.BoxCovers field row radius)
    (resting : Bool) :
    ∃ (clauses : ClauseContext R) (exactForm : Predicate R) (bs : List (TypedClause R))
      (ids : List String), ClauseContext.ofContext c = .ok clauses ∧
      (clauses.exactOn field).predicate contract = .ok exactForm ∧
      clauses.clauses contract = .ok bs ∧
      through resting d s₁ s₂ s₃ (s.start now q c).call = .finished (.ok ids) ∧
      (ReportsAll ids plan.request.idField exactForm rows ↔
        ∀ row ∈ rows, exactForm.accepts row = true → ∀ id ∈ row.id? plan.request.idField,
          ∃ row' ∈ rows, row'.id? plan.request.idField = some id ∧
            exactForm.accepts row' = true ∧ PassesClauses row' bs) ∧
      ((∀ row ∈ rows, ∀ radius ∈ contract.excludedRadii, c.BoxIsSharp field row radius) →
        ReportsAll ids plan.request.idField exactForm rows) := by
  obtain ⟨idField, _, -, -, hrealizes⟩ := Plan.exists_realizes_of_ofContract hplan
  obtain ⟨clauses, r, hclauses, rfl, hbbox, hnone, hpredicate, hr, hexact⟩ :=
    Plan.exists_refinement_of_boxes hplan htier hfield
  obtain ⟨_, _, main, cs, -, -, -, -, hbs, -⟩ :=
    ClauseContext.exists_clauses_of_predicate hpredicate
  -- the predicate of the request is in boxes, that of the refinement is the exact form
  have hboth := fun row hrow =>
    ClauseContext.box_and_exact hbbox hnone hpredicate hexact hbs row (hcovers row hrow)
  have hmem : ∀ id, id ∈ plan.found rows ↔ ∃ row ∈ rows,
      row.id? plan.request.idField = some id ∧ r.predicate.accepts row = true ∧
        PassesClauses row (⟨.included, main⟩ :: cs) := fun id => by
    rw [Plan.mem_found_iff]
    refine exists_congr fun row => and_congr_right fun hrow => ?_
    rw [← (hboth row hrow).2.1, Plan.accepts, hr, Option.all_some, Bool.and_eq_true]
    constructor
    · rintro ⟨⟨hbox, haccepts⟩, hid⟩
      exact ⟨hid, haccepts, hbox⟩
    · rintro ⟨hid, haccepts, hbox⟩
      exact ⟨⟨hbox, haccepts⟩, hid⟩
  refine ⟨clauses, r.predicate, _, plan.found rows, hclauses, hexact, hbs, ?_, ?_, ?_⟩
  · rw [(Service.start_reaches hvalid hcontract hplan).1]
    obtain ⟨-, hend⟩ | ⟨⟨row, hrow, hundecided⟩, -⟩ :=
      through_connecting_eq_finished hrealizes hd hmark₁ hmark₃ hrows hfinite resting
    · exact hend
    · exact absurd (hboth row hrow).1 hundecided
  · exact forall₂_congr fun row hrow => forall_congr' fun haccepts => forall₂_congr fun id hid =>
      hmem id
  · intro hsharp row hrow haccepts id hid
    have hbox := (hboth row hrow).2.2 (hsharp row hrow) haccepts
    exact (hmem id).mpr ⟨row, hrow, hid, haccepts, (hboth row hrow).2.1.mp hbox⟩

/-- A route at a corner, with its box. It is 126 meters from the point `(0, 0)`. -/
def cornerRoutes : List (Row FlatDouble) :=
  let corner : Json FlatDouble := .real (0.0008 : Float)
  [[("geometry", .obj [("type", .str "Point"), ("coordinates", .arr [corner, corner])]),
    ("maxx", corner), ("maxy", corner), ("minx", corner), ("miny", corner),
    ("service_id", .str "corner")]]

/-- A session with `cornerRoutes`. -/
def cornerSession : Session FlatDouble :=
  { ofSettings Settings.default with store := ⟨[("routes", cornerRoutes)]⟩ }

/-- The routes within a kilometer that are farther away than so many meters. -/
def cornerQuery (excluded : Float) : SpatialQuery FlatDouble where
  find := .routes
  condition := .within
  distance := (1000 : Float)
  target := .selectedPoint
  blocks := [⟨some "exclude", some "near_point", none, some excluded⟩]

/-- The point `(0, 0)`, and rows with boxes and geometries. -/
def cornerContext : Context FlatDouble :=
  { Context.empty with
    serviceIdField := some "service_id"
    bboxReady := true
    bboxFields := some BoxColumns.default
    geojsonField := some "geometry"
    point := some ⟨(0 : Float), (0 : Float)⟩ }

/-- Whether the query is planned, boxes cover their discs, the exact form accepts all rows, and the
plan finds just the given identifiers. The box of the excluded disc is to be sharp or not. -/
def cornerFinds (excluded : Float) (sharp : Bool) (ids : List String) : Bool :=
  let query := cornerQuery excluded
  (cornerSession.service.contractFor ⟨0, 0⟩ query cornerContext).1.toOption.any fun contract =>
    (Plan.ofContract contract cornerContext Settings.default).toOption.any fun plan =>
      plan.request.table = "routes" && plan.request.idField = "service_id" &&
        plan.found cornerRoutes = ids && cornerRoutes.all fun row =>
          (contract.radii.all fun radius => cornerContext.BoxCovers "geometry" row radius) &&
            (contract.excludedRadii.all fun radius =>
              cornerContext.BoxIsSharp "geometry" row radius) = sharp &&
            (plan.request.predicate.evaluate row).isOk &&
            plan.refinement.any fun r => r.predicate.accepts row

/-- The check, read as a statement about the plan of the query. -/
private theorem exists_plan_of_cornerFinds {excluded : Float} {sharp : Bool} {ids : List String}
    (h : cornerFinds excluded sharp ids = true) :
    ∃ contract plan r,
      (cornerSession.service.contractFor ⟨0, 0⟩ (cornerQuery excluded) cornerContext).1 =
        .ok contract ∧
      Plan.ofContract contract cornerContext Settings.default = .ok plan ∧
      plan.request.table = "routes" ∧ plan.request.idField = "service_id" ∧
      plan.found cornerRoutes = ids ∧ plan.refinement = some r ∧
      ∀ row ∈ cornerRoutes,
        (∀ radius ∈ contract.radii, cornerContext.BoxCovers "geometry" row radius) ∧
          (sharp = true → ∀ radius ∈ contract.excludedRadii,
            cornerContext.BoxIsSharp "geometry" row radius) ∧
          plan.request.predicate.IsDecided row ∧ r.predicate.accepts row = true := by
  obtain ⟨contract, hcontract, h⟩ := (Option.any_eq_true _ _).mp h
  obtain ⟨plan, hplan, h⟩ := (Option.any_eq_true _ _).mp h
  simp only [Bool.and_eq_true, decide_eq_true_eq, List.all_eq_true] at h
  obtain ⟨⟨⟨htable, hid⟩, hfound⟩, hrows⟩ := h
  obtain ⟨-, hrefines⟩ := hrows _ List.mem_cons_self
  obtain ⟨r, hr, -⟩ := (Option.any_eq_true _ _).mp hrefines
  refine ⟨contract, plan, r, toOption_eq_some_iff.mp hcontract, toOption_eq_some_iff.mp hplan,
    htable, hid, hfound, hr, fun row hrow => ?_⟩
  obtain ⟨⟨⟨hcovers, hsharp⟩, hdecided⟩, hrefines⟩ := hrows row hrow
  refine ⟨hcovers, fun h => ?_, exists_eq_ok_of_isOk hdecided, by simpa [hr] using hrefines⟩
  simpa [h] using hsharp

/-- A route outside the excluded disc and outside its box is reported. -/
theorem reportsAll_corner :
    ∃ ids, through false .none cornerSession cornerSession cornerSession
      (cornerSession.service.start ⟨0, 0⟩ (cornerQuery 50) cornerContext).call =
        .finished (.ok ids) ∧ "corner" ∈ ids := by
  have hfinds : cornerFinds 50 true ["corner"] = true := by decide +kernel
  obtain ⟨contract, plan, r, hcontract, hplan, htable, hid, -, hr, hrow⟩ :=
    exists_plan_of_cornerFinds hfinds
  have hvalid : (cornerQuery 50).violations cornerContext = [] :=
    List.isEmpty_iff.mp (by decide +kernel)
  have hrows : cornerSession.store.rows? plan.request.table = some cornerRoutes := by
    rw [htable]
    rfl
  have hmark : cornerSession.service.isMarked cornerSession.service.nextToken = false := rfl
  obtain ⟨clauses, exactForm, -, ids, hclauses, hexact, -, hids, -, hall⟩ :=
    reportsAll_iff hvalid hcontract hplan rfl rfl (d := .none) trivial hmark hmark hrows
      (by decide +kernel) (fun row h => (hrow row h).1) false
  obtain ⟨clauses', r', hclauses', -, -, -, -, hr', hexact'⟩ :=
    Plan.exists_refinement_of_boxes hplan rfl rfl
  obtain rfl : clauses = clauses' := Except.ok.inj (hclauses.symm.trans hclauses')
  obtain rfl : r = r' := Option.some.inj (hr.symm.trans hr')
  obtain rfl : exactForm = r.predicate := Except.ok.inj (hexact.symm.trans hexact')
  refine ⟨ids, hids, hall (fun row h => (hrow row h).2.1 rfl) _ List.mem_cons_self
    (hrow _ List.mem_cons_self).2.2.2 _ ?_⟩
  rw [hid]
  rfl

/-- If the box of the excluded disc, but not the disc, reaches the route, the route is lost,
although all boxes cover their discs and the exact form accepts the route. -/
theorem not_reportsAll_corner :
    ∃ contract plan clauses exactForm,
      (cornerQuery 100).violations cornerContext = [] ∧
      Tier.select cornerContext = some .bbox ∧
      (cornerSession.service.contractFor ⟨0, 0⟩ (cornerQuery 100) cornerContext).1 =
        .ok contract ∧
      Plan.ofContract contract cornerContext Settings.default = .ok plan ∧
      cornerSession.store.rows? plan.request.table = some cornerRoutes ∧
      (∀ row ∈ cornerRoutes, ∀ radius ∈ contract.radii,
        cornerContext.BoxCovers "geometry" row radius) ∧
      ClauseContext.ofContext cornerContext = .ok clauses ∧
      (clauses.exactOn "geometry").predicate contract = .ok exactForm ∧
      (cornerSession.tryExecute .none ⟨0, 0⟩ (cornerQuery 100) cornerContext).2 = .ok [] ∧
      ¬ ReportsAll [] plan.request.idField exactForm cornerRoutes := by
  have hfinds : cornerFinds 100 false [] = true := by decide +kernel
  obtain ⟨contract, plan, r, hcontract, hplan, htable, hid, hfound, hr, hrow⟩ :=
    exists_plan_of_cornerFinds hfinds
  have hvalid : (cornerQuery 100).violations cornerContext = [] :=
    List.isEmpty_iff.mp (by decide +kernel)
  have hrows : cornerSession.store.rows? plan.request.table = some cornerRoutes := by
    rw [htable]
    rfl
  obtain ⟨clauses, r', hclauses, -, -, -, -, hr', hexact⟩ :=
    Plan.exists_refinement_of_boxes hplan rfl rfl
  obtain rfl : r = r' := Option.some.inj (hr.symm.trans hr')
  refine ⟨contract, plan, clauses, r.predicate, hvalid, rfl, hcontract, hplan, hrows,
    fun row h => (hrow row h).1, hclauses, hexact, ?_, fun hall => ?_⟩
  · rw [← hfound]
    exact tryExecute_eq_found (d := .none) hvalid hcontract hplan trivial rfl hrows
      (by decide +kernel) fun row h => (hrow row h).2.2.1
  · have hcorner := hall _ List.mem_cons_self (hrow _ List.mem_cons_self).2.2.2 "corner"
      (by rw [hid]; rfl)
    cases hcorner

end Session

end TransitQuery
