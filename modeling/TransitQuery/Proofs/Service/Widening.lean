import TransitQuery.Proofs.Predicate.Widening
import TransitQuery.Proofs.Query.Resolve
import TransitQuery.Proofs.Service.Success
import Mathlib.Tactic.FinCases

/-!
# Wider queries find no less

A query around the selected point that is asked again with a greater radius finds all that it found
before, on either tier and with or without refinement, if both calls succeed
(`SpatialQuery.ids_subset_of_le`). Blocks without a radius of their own get wider with the query.
Only an excluded one could take something away; with a radius of its own it stays as it is.

Both calls have to succeed, because a wider disc can let the evaluation of a row go on to a leaf
that cannot be decided, and then the wider call fails. Where they succeed, the plan of the wider
query accepts whatever the other accepts (`SpatialQuery.accepts_of_le`), clause by clause:
`Block.widens_of_resolve` gives the wider entries, `ClauseContext.predicate_widens` the predicates
on each tier and in the exact form.

The rows are those of one table, but the two calls may be made on different services. Each is
assumed to start as if nothing were cached (`Session.StartsAfresh`), which holds for a new service,
and for one that is shared as long as digests tell its queries apart.
-/

namespace TransitQuery

variable {R : Type}

/-- Some block excludes a disc as wide as that of the query. -/
def SpatialQuery.ExcludesOwnDisc (q : SpatialQuery R) : Prop :=
  ∃ b ∈ q.blocks, b.parsedType = .ok .excluded ∧ b.parsedOperator = some (.ok .nearPoint) ∧
    b.distance = none

variable [Scalar R]

/-- What a block resolves to gets wider with the query, unless it excludes a disc as wide as that of
the query. -/
theorem Block.widens_of_resolve {b : Block R} {x y : R} (h : RadiusLE x y)
    (hexcluded : b.parsedType = .ok .excluded → b.parsedOperator = some (.ok .nearPoint) →
      b.distance ≠ none) {s s' : Supplement R} (hs : b.resolve x = .ok s)
    (hs' : b.resolve y = .ok s') : Entry.Widens (.supplement s) (.supplement s') := by
  obtain ⟨htype, hop⟩ := parsed_of_resolve hs
  unfold resolve at hs hs'
  rw [htype, hop] at hs hs'
  generalize s.type = type, s.clause.kind = op at htype hop hs hs'
  obtain rfl := Except.ok.inj hs
  obtain rfl := Except.ok.inj hs'
  cases op with
  | nearPoint =>
    rw [BlockOperator.clause, BlockOperator.clause]
    cases hdistance : b.distance with
    | none => exact .supplement h fun hexcludes => hexcluded (hexcludes ▸ htype) hop hdistance
    | some radius => exact .same _
  | _ => exact .same _

namespace SpatialQuery

variable {q : SpatialQuery R} {c : Context R} {radius : R}

/-- What a query compiles to gets wider with its radius. -/
theorem forall₂_widens (h : RadiusLE q.distance radius) (htarget : q.target = .selectedPoint)
    (hexcluded : ¬q.ExcludesOwnDisc) {supplements supplements' : List (Supplement R)}
    (hresolve : q.resolveBlocks = .ok supplements)
    (hresolve' : resolveBlocks { q with distance := radius } = .ok supplements')
    (now now' : Instant) :
    List.Forall₂ Entry.Widens (q.contractWith now c supplements).entries
      (contractWith { q with distance := radius } now' c supplements').entries := by
  refine .cons ?_ ?_
  · rw [mainClause, mainClause, htarget]
    exact .main h _
  · rw [List.forall₂_map_left_iff, List.forall₂_map_right_iff]
    have hsame : List.Forall₂ (fun b b' => b = b' ∧ b ∈ q.blocks) q.blocks q.blocks :=
      List.forall₂_same.mpr fun b hb => ⟨rfl, hb⟩
    refine forall₂_mapM hsame hresolve hresolve' ?_
    rintro b _ s s' ⟨rfl, hb⟩ hs hs'
    exact Block.widens_of_resolve h
      (fun htype hop hnone => hexcluded ⟨b, hb, htype, hop, hnone⟩) hs hs'

end SpatialQuery

omit [Scalar R] in
/-- Candidates are refined on the tier of boxes only. -/
theorem Context.eq_bbox_of_refinementField {c : Context R} {tier : Tier} {field : String}
    (h : c.refinementField tier = some field) : tier = .bbox := by
  cases tier with
  | bbox => rfl
  | native => simp [refinementField] at h

variable [OrderedScalar R]

namespace Plan

variable {s : ClauseContext R} {contract contract' : Contract R} {plan plan' : Plan R}
  {settings settings' : Settings} {idField idField' : String}

/-- A plan for wider entries accepts no fewer rows. -/
theorem Realizes.accepts_of_widens (h : plan.Realizes s contract settings idField)
    (h' : plan'.Realizes s contract' settings' idField')
    (hfinite : ∀ point ∈ s.context.point, point.isFinite = true)
    (hentries : List.Forall₂ Entry.Widens contract.entries contract'.entries)
    (hboundary : contract'.boundary = contract.boundary) {row : Row R}
    (hdecided : plan'.request.predicate.IsDecided row) (haccepts : plan.accepts row = true) :
    plan'.accepts row = true := by
  have hgiven : ∀ s : ClauseContext R, s.boundaryOf contract' = s.boundaryOf contract := fun s => by
    rw [ClauseContext.boundaryOf, ClauseContext.boundaryOf, hboundary]
  obtain ⟨hrequest, hrefinement⟩ := Bool.and_eq_true_iff.mp haccepts
  refine Bool.and_eq_true_iff.mpr ⟨?_, ?_⟩
  · rw [Predicate.accepts_eq_true_iff] at hrequest ⊢
    exact ClauseContext.predicate_widens hfinite hentries (hgiven s) h.predicate_eq
      h'.predicate_eq row hrequest hdecided
  · -- the exact forms belong together in the same way, and there all is decided
    rw [Option.all_eq_true] at hrefinement ⊢
    intro r' hr'
    obtain ⟨-, field, hfield, hexact'⟩ := h'.exact_eq hr'
    obtain ⟨r, hr, hexact⟩ := h.exists_refinement hfield
    have htier := Context.eq_bbox_of_refinementField hfield
    have hrow := hrefinement r hr
    rw [Predicate.accepts_eq_true_iff] at hrow ⊢
    exact ClauseContext.predicate_widens (s := s.exactOn field) hfinite hentries (hgiven _) hexact
      hexact' row hrow (ClauseContext.isDecided_of_bbox (s := s.exactOn field) htier hexact' row)

end Plan

/-! ### Calls -/

/-- A session starts a call as if nothing were cached. In a crowd whose digests tell queries apart,
all calls start so. -/
def Session.StartsAfresh (s : Session R) (now : Instant) (q : SpatialQuery R) (c : Context R) :
    Prop :=
  (s.service.start now q c).call = (s.service.clearCache.start now q c).call

omit [OrderedScalar R] in
/-- A new session over a store has nothing cached. -/
theorem Session.startsAfresh_of_store (settings : Settings) (store : Store R) (now : Instant)
    (q : SpatialQuery R) (c : Context R) :
    StartsAfresh { ofSettings settings with store } now q c := rfl

omit [OrderedScalar R] in
/-- If it does, a call that succeeds was planned with what its query compiles to. -/
theorem Session.exists_plan_of_startsAfresh {s : Session R} {now : Instant} {q : SpatialQuery R}
    {c : Context R} (hafresh : s.StartsAfresh now q c) {resting : Bool} {d : Disturbance}
    {ids : List String} (h : outcome resting d (s.start resting now q c) = .ok ids) :
    ∃ contract plan rows, q.violations c = [] ∧ q.compile now c = .ok contract ∧
      Plan.ofContract contract c s.service.settings = .ok plan ∧
      s.store.rows? plan.request.table = some rows ∧
      (∀ row ∈ rows, plan.request.predicate.IsDecided row) ∧ ids = plan.answered rows := by
  obtain ⟨contract, plan, rows, hvalid, hcontract, hplan, hrows, hdecided, hids⟩ :=
    exists_plan_of_outcome h
  obtain ⟨-, supplements, -, -, hcompile⟩ := SpatialQuery.exists_compile_of_violations hvalid
  refine ⟨_, plan, rows, hvalid, hcompile now, ?_, hrows, hdecided, hids⟩
  have hclear := Service.contractFor_fst s.service.clearCache now q c
  have hcall := hafresh
  rw [StartsAfresh, (Service.start_reaches hvalid hcontract hplan).1,
    Service.call_start hvalid (hclear.trans (hcompile now)), Service.callFor] at hcall
  have hsettings : s.service.clearCache.settings = s.service.settings := rfl
  rw [hsettings] at hcall
  cases hown : Plan.ofContract (q.contractWith now c supplements) c s.service.settings with
  | error e =>
    rw [hown] at hcall
    cases hcall
  | ok own =>
    rw [hown] at hcall
    obtain ⟨-, rfl⟩ := Call.connecting.inj hcall
    rfl

namespace SpatialQuery

variable {q : SpatialQuery R} {c : Context R} {radius : R} {now now' : Instant}

/-- The plan of the wider query accepts no fewer rows. -/
theorem accepts_of_le (hvalid : q.violations c = [])
    (hvalid' : violations { q with distance := radius } c = [])
    (htarget : q.target = .selectedPoint) (hexcluded : ¬q.ExcludesOwnDisc)
    (hle : q.distance ≤ radius) {supplements supplements' : List (Supplement R)}
    (hresolve : q.resolveBlocks = .ok supplements)
    (hresolve' : resolveBlocks { q with distance := radius } = .ok supplements')
    {s : ClauseContext R} (hs : ClauseContext.ofContext c = .ok s) {plan plan' : Plan R}
    {settings settings' : Settings} {idField idField' : String}
    (h : plan.Realizes s (q.contractWith now c supplements) settings idField)
    (h' : plan'.Realizes s (contractWith { q with distance := radius } now' c supplements')
      settings' idField') {row : Row R} (hdecided : plan'.request.predicate.IsDecided row)
    (haccepts : plan.accepts row = true) : plan'.accepts row = true := by
  have hwider : RadiusLE q.distance radius :=
    ⟨(violations_eq_nil_iff.mp hvalid).1, (violations_eq_nil_iff.mp hvalid').1, hle⟩
  have hfinite : ∀ point ∈ s.context.point, point.isFinite = true := by
    obtain ⟨point, hpoint, hfinite, -⟩ := exists_point_of_target hvalid htarget
    rw [ClauseContext.context_of_ofContext hs, hpoint]
    rintro _ ⟨⟩
    exact hfinite
  exact h.accepts_of_widens h' hfinite
    (forall₂_widens hwider htarget hexcluded hresolve hresolve' now now') rfl hdecided haccepts

/-- A wider query finds no less. Two calls ask the same rows, with queries around the selected
point that differ in their radius alone. If both succeed, whatever may have disturbed them, each
identifier that is reported for the smaller radius is reported for the greater one. That goes for
every context, and so for both tiers and for refined candidates. -/
theorem ids_subset_of_le [LegibleScalar R] (htarget : q.target = .selectedPoint)
    (hexcluded : ¬q.ExcludesOwnDisc) (hle : q.distance ≤ radius) {s s' : Session R}
    (hafresh : s.StartsAfresh now q c)
    (hafresh' : s'.StartsAfresh now' { q with distance := radius } c) {rows : List (Row R)}
    (hrows : s.store.rows? (s.service.settings.table q.find) = some rows)
    (hrows' : s'.store.rows? (s'.service.settings.table q.find) = some rows)
    (hfinite : ∀ row ∈ rows, row.hasFiniteNumbers = true) {resting resting' : Bool}
    {d d' : Disturbance} {ids ids' : List String}
    (hids : Session.outcome resting d (s.start resting now q c) = .ok ids)
    (hids' : Session.outcome resting' d'
      (s'.start resting' now' { q with distance := radius } c) = .ok ids') : ids ⊆ ids' := by
  obtain ⟨contract, plan, rows₁, hvalid, hcontract, hplan, hrows₁, -, rfl⟩ :=
    Session.exists_plan_of_startsAfresh hafresh hids
  obtain ⟨contract', plan', rows₂, hvalid', hcontract', hplan', hrows₂, hdecided, rfl⟩ :=
    Session.exists_plan_of_startsAfresh hafresh' hids'
  obtain ⟨-, supplements, hresolve, -, hcompile⟩ := exists_compile_of_violations hvalid
  obtain ⟨-, supplements', hresolve', -, hcompile'⟩ := exists_compile_of_violations hvalid'
  obtain rfl := Except.ok.inj ((hcompile now).symm.trans hcontract)
  obtain rfl := Except.ok.inj ((hcompile' now').symm.trans hcontract')
  obtain ⟨idField, clauses, hid, hclauses, hrealizes⟩ := Plan.exists_realizes_of_ofContract hplan
  obtain ⟨_, _, hid', hclauses', hrealizes'⟩ := Plan.exists_realizes_of_ofContract hplan'
  obtain rfl := Option.some.inj (hid.symm.trans hid')
  obtain rfl := Except.ok.inj (hclauses.symm.trans hclauses')
  -- both plans ask the same table
  rw [hrealizes.table_eq] at hrows₁
  rw [hrealizes'.table_eq] at hrows₂
  obtain rfl := Option.some.inj (hrows.symm.trans hrows₁)
  obtain rfl := Option.some.inj (hrows'.symm.trans hrows₂)
  rw [hrealizes.answered_eq_found hfinite, hrealizes'.answered_eq_found hfinite]
  intro id hmem
  obtain ⟨row, hrow, haccepts, hid⟩ := Plan.mem_found_iff.mp hmem
  rw [hrealizes.idField_eq, ← hrealizes'.idField_eq] at hid
  exact Plan.mem_found_iff.mpr ⟨row, hrow, accepts_of_le hvalid hvalid' htarget hexcluded hle
    hresolve hresolve' hclauses hrealizes hrealizes' (hdecided row hrow) haccepts, hid⟩

/-- Two wharves, with their boxes. They are 126 and 787 meters from the point `(0, 0)`. -/
def wharves : List (Row FlatDouble) :=
  [("near", (0.0008 : Float)), ("far", (0.005 : Float))].map fun (name, corner) =>
    [("geometry",
        .obj [("type", .str "Point"), ("coordinates", .arr [.real corner, .real corner])]),
      ("maxx", .real corner), ("maxy", .real corner), ("minx", .real corner),
      ("miny", .real corner), ("service_id", .str name)]

/-- A session with `wharves` as its stops. -/
def wharfSession : Session FlatDouble :=
  { Session.ofSettings Settings.default with store := ⟨[("stops", wharves)]⟩ }

/-- The stops within so many meters, which is said twice, but not those within fifty. -/
def wharfQuery (distance : Float) : SpatialQuery FlatDouble where
  find := .stops
  condition := .within
  distance
  target := .selectedPoint
  blocks := [⟨some "include", some "near_point", none, none⟩,
    ⟨some "exclude", some "near_point", none, some (50 : Float)⟩]

/-- The point `(0, 0)`, and rows with boxes and geometries. -/
def wharfContext : Context FlatDouble :=
  { Context.empty with
    serviceIdField := some "service_id"
    bboxReady := true
    bboxFields := some BoxColumns.default
    geojsonField := some "geometry"
    point := some ⟨(0 : Float), (0 : Float)⟩ }

/-- A kilometer finds the near wharf, as three hundred meters do. -/
theorem ids_subset_of_le_wharf :
    Session.outcome false .none (wharfSession.start false ⟨0, 0⟩ (wharfQuery 300) wharfContext) =
        .ok ["near"] ∧
      Session.outcome false .none (wharfSession.start false ⟨0, 0⟩ (wharfQuery 1000) wharfContext) =
        .ok ["near", "far"] ∧
      ["near"] ⊆ ["near", "far"] := by
  have hids : Session.outcome false .none
      (wharfSession.start false ⟨0, 0⟩ (wharfQuery 300) wharfContext) = .ok ["near"] :=
    toOption_eq_some_iff.mp (by decide +kernel)
  have hids' : Session.outcome false .none
      (wharfSession.start false ⟨0, 0⟩ (wharfQuery 1000) wharfContext) = .ok ["near", "far"] :=
    toOption_eq_some_iff.mp (by decide +kernel)
  have hexcluded : ¬(wharfQuery 300).ExcludesOwnDisc := by
    rintro ⟨b, hb, htype, -, hnone⟩
    fin_cases hb
    · cases htype
    · cases hnone
  have hle : (wharfQuery 300).distance ≤ (wharfQuery 1000).distance := by decide +kernel
  have hfinite : ∀ row ∈ wharves, row.hasFiniteNumbers = true := by decide +kernel
  exact ⟨hids, hids', ids_subset_of_le rfl hexcluded hle (Session.startsAfresh_of_store ..)
    (Session.startsAfresh_of_store ..) rfl rfl hfinite hids hids'⟩

/-- If the excluded disc gets wider with the query, the near wharf is lost. -/
example :
    let query (distance : Float) : SpatialQuery FlatDouble :=
      { wharfQuery distance with
        blocks := [⟨some "also-include", some "near_point", none, some (1000 : Float)⟩,
          ⟨some "exclude", some "near_point", none, none⟩] }
    let call (distance : Float) :=
      Session.outcome false .none (wharfSession.start false ⟨0, 0⟩ (query distance) wharfContext)
    (call 50).toOption = some ["near", "far"] ∧ (call 300).toOption = some ["far"] := by
  decide +kernel

end SpatialQuery

end TransitQuery
