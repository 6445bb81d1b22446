import TransitQuery.Proofs.Plan.Around
import TransitQuery.Proofs.Plan.Feasible
import TransitQuery.Proofs.Predicate.Enclosed
import TransitQuery.Proofs.Service.Undisturbed

/-!
# What one tier finds of the other

A query that measures from the selected point, tests no boundary and excludes no disc can be asked
on both tiers. Over features that are loaded with their boxes, every identifier that the native tier
reports is reported by the tier of boxes, too, if candidates are not refined
(`SpatialQuery.native_subset_bbox`). A store tells rows apart by their texts. An exact number
without decimals is written like a missing value, so for calls no identifier may be one
(`Row.HasLegibleId`); none is where numbers are legible.

The statement has two levels. What the native plan is meant to find is among what the plan with
boxes is meant to find, for any rows of such features. For two calls in sessions over one store it
also matters how the store answers: it drops rows whose texts have occurred before, and so could
drop one whose identifier is written like another one. This is where legible identifiers are needed
(`Plan.IsPlain.mem_answered`), and `Row.hasLegibleId_iff` says which exact numbers are.

* `SpatialQuery.SuitsBoxes`: the condition on the query.
* `BoxesFeatures`: the condition on the features; in particular no geometry is given as a text.
* `Plan.exists_onBoxes`: such a query is planned on both tiers, and on rows that boxes
  enclose the plan with boxes accepts what the native one does.

The buoys at the end show both sides: a point in GeoJSON is found on both tiers, the same point as
a text only on the native one, because loading does not put a text into a box.
-/

namespace TransitQuery

/-! ### Dropping what has occurred before -/

section

variable {α : Type} {r : α → α → Bool}

private theorem mem_of_mem_eraseDupsBy {as : List α} {a : α} (h : a ∈ as.eraseDupsBy r) :
    a ∈ as := by
  match as with
  | [] => cases h
  | b :: rest =>
    rw [List.eraseDupsBy_cons] at h
    obtain rfl | h := List.mem_cons.mp h
    · exact List.mem_cons_self
    · exact List.mem_cons_of_mem b (List.mem_of_mem_filter (mem_of_mem_eraseDupsBy h))
termination_by as.length
decreasing_by
  exact Nat.lt_succ_of_le (List.length_filter_le _ _)

/-- Of each member that is dropped, a like one is left. -/
theorem exists_mem_eraseDupsBy (hrefl : ∀ a, r a a = true) {as : List α} {a : α} (h : a ∈ as) :
    ∃ b ∈ as.eraseDupsBy r, r a b = true := by
  match as with
  | [] => cases h
  | b :: rest =>
    rw [List.eraseDupsBy_cons]
    obtain rfl | h := List.mem_cons.mp h
    · exact ⟨a, List.mem_cons_self, hrefl a⟩
    by_cases hb : r a b = true
    · exact ⟨b, List.mem_cons_self, hb⟩
    · have hkept : a ∈ rest.filter fun c => r c b = false :=
        List.mem_filter.mpr ⟨h, by simpa using hb⟩
      obtain ⟨c, hc, hac⟩ := exists_mem_eraseDupsBy hrefl hkept
      exact ⟨c, List.mem_cons_of_mem b hc, hac⟩
termination_by as.length
decreasing_by
  exact Nat.lt_succ_of_le (List.length_filter_le _ _)

end

variable {R : Type} [Scalar R]

namespace Row

private theorem mem_of_mem_distinct {rows : List (Row R)} {row : Row R} (h : row ∈ distinct rows) :
    row ∈ rows := by
  obtain ⟨pair, hpair, rfl⟩ := List.mem_map.mp h
  obtain ⟨row', hrow', rfl⟩ := List.mem_map.mp (mem_of_mem_eraseDupsBy hpair)
  exact hrow'

/-- Of each row, one with the same text is left. -/
private theorem exists_mem_distinct {rows : List (Row R)} {row : Row R} (h : row ∈ rows) :
    ∃ row' ∈ distinct rows, row.text = row'.text := by
  obtain ⟨pair, hpair, htext⟩ := exists_mem_eraseDupsBy
    (r := fun a b : List Char × Row R => a.1 == b.1) (fun a => beq_self_eq_true a.1)
    (List.mem_map_of_mem (f := fun row : Row R => (row.text, row)) h)
  obtain ⟨row', -, rfl⟩ := List.mem_map.mp (mem_of_mem_eraseDupsBy hpair)
  exact ⟨row', List.mem_map_of_mem hpair, eq_of_beq htext⟩

/-- Only a missing identifier is written like one. -/
def HasLegibleId (idField : String) (row : Row R) : Prop :=
  (row.read idField).compactChars = "null".toList → row.read idField = .null

/-- Identifiers are read off the texts of cells. -/
theorem idText?_eq_of_compactChars_eq {v w : Json R}
    (hv : v.compactChars = "null".toList → v = .null)
    (hw : w.compactChars = "null".toList → w = .null) (h : v.compactChars = w.compactChars) :
    idText? v = idText? w := by
  have hword : ∀ {v : Json R}, v.isWord = true → (v.compactChars = "null".toList → v = .null) →
      idText? v = if v.compactChars = "null".toList then none else some v.compact := by
    intro v hv hlegible
    split
    · rename_i hnull
      rw [hlegible hnull]
      rfl
    · rename_i hnull
      cases v with
      | null => exact absurd rfl hnull
      | bool b => rfl
      | int i => rfl
      | real x => rfl
      | _ => cases hv
  -- the first character tells strings and containers from words
  have hopen : v.opening? = w.opening? :=
    Json.opening?_eq_of_compactChars_append_eq (congrArg (· ++ []) h)
  cases v with
  | str a =>
    cases w with
    | str b =>
      obtain ⟨hab, -⟩ := Json.quoted_append_inj (congrArg (· ++ []) h)
      rw [String.toList_inj.mp hab]
    | _ => cases hopen
  | arr items =>
    cases w with
    | arr items' => rfl
    | _ => cases hopen
  | obj members =>
    cases w with
    | obj members' => rfl
    | _ => cases hopen
  | null | bool _ | int _ | real _ =>
    rw [hword rfl hv, hword (Json.isWord_iff.mpr hopen.symm) hw, Json.compact, Json.compact, h]

/-- Rows whose identifiers are written alike have the same identifier. -/
theorem id?_eq_of_text_eq {idField : String} {row row' : Row R} (h : row.HasLegibleId idField)
    (h' : row'.HasLegibleId idField)
    (htext : (row.project [idField]).text = (row'.project [idField]).text) :
    row.id? idField = row'.id? idField := by
  have hproject : ∀ row : Row R, row.project [idField] = [(idField, row.read idField)] :=
    fun _ => rfl
  have hcells : (row.read idField).compactChars = (row'.read idField).compactChars := by
    simpa [text, hproject, Json.compactChars, Json.compactMembers] using htext
  rw [id?_eq_read, id?_eq_read, idText?_eq_of_compactChars_eq h h' hcells]

/-- An identifier is legible if it is no number, or one that has digits. -/
theorem hasLegibleId_of_toNumeral {row : Row R} {idField : String}
    (h : ∀ x, row.read idField = .real x → ∃ negative digits exponent,
      Scalar.toNumeral .toEven x = .finite negative digits exponent) :
    row.HasLegibleId idField := by
  intro hnull
  -- numbers are written without letters
  have hletter : ¬Numeral.IsNumberChar 'n' := by simp [Numeral.IsNumberChar]
  have hmem : 'n' ∈ (row.read idField).compactChars := by
    rw [hnull]
    decide
  cases hv : row.read idField with
  | null => rfl
  | bool b =>
    rw [hv] at hnull
    cases b <;> cases (List.cons.inj hnull).1
  | int i =>
    rw [hv] at hmem
    obtain hsign | hdigit := Json.mem_integerChars hmem
    · cases hsign
    · exact absurd (.inl hdigit) hletter
  | real x =>
    obtain ⟨negative, digits, exponent, hx⟩ := h x hv
    rw [hv] at hmem
    have hchars : 'n' ∈ (Numeral.finite negative digits exponent).json := hx ▸ hmem
    exact absurd ((Json.json_finite_shape negative digits exponent).1 _ hchars) hletter
  | str s | arr items | obj members =>
    rw [hv, Json.compactChars] at hnull
    cases (List.cons.inj hnull).1

/-- Where numbers are legible, identifiers are. -/
theorem hasLegibleId_of_legible [LegibleScalar R] {row : Row R}
    (h : row.hasFiniteNumbers = true) (idField : String) : row.HasLegibleId idField := by
  refine hasLegibleId_of_toNumeral fun x hx => LegibleScalar.exists_toNumeral ?_
  have hfinite := hasFiniteNumbers_read h idField
  rwa [hx] at hfinite

/-- An exact number is a legible identifier just if it is a decimal. -/
theorem hasLegibleId_iff {row : Row Exact} {idField : String} :
    row.HasLegibleId idField ↔
      ∀ x, row.read idField = .real x → ∃ n : Numeral, n.toReal? = some x.toReal := by
  refine ⟨fun h x hx => ?_, fun h => hasLegibleId_of_toNumeral fun x hx =>
    (Exact.exists_toNumeral_iff x).mpr (h x hx)⟩
  by_contra hnone
  have hnull : (row.read idField).compactChars = "null".toList := by
    rw [hx, Json.compactChars, Json.leafChars, Json.realChars, Exact.toNumeral_eq_nan hnone]
    rfl
  rw [h hnull] at hx
  cases hx

end Row

/-! ### Plans without refinement -/

namespace Plan

/-- A plan that asks a table for identifiers and refines nothing. -/
structure IsPlain (plan : Plan R) (table idField : String) : Prop where
  table_eq : plan.request.table = table
  idField_eq : plan.request.idField = idField
  columns_eq : plan.request.columns = [idField]
  refinement_eq : plan.refinement = none

variable {plan : Plan R} {rows : List (Row R)} {table idField id : String}

/-- Where candidates are not refined, plans are plain. -/
theorem Realizes.isPlain {s : ClauseContext R} {contract : Contract R} {settings : Settings}
    (h : plan.Realizes s contract settings idField)
    (hfield : s.context.refinementField s.tier = none) :
    plan.IsPlain (settings.table contract.find) idField := by
  have hrefinement := h.refinement_eq
  rw [refinementOf, hfield] at hrefinement
  have hnone : plan.refinement = none := (Except.ok.inj hrefinement).symm
  refine ⟨?_, h.idField_eq, ?_, hnone⟩ <;> rw [h.request_eq]
  · rfl
  · rw [hnone]
    rfl

/-- Where candidates are not refined, a predicate is all that a plan takes. -/
theorem exists_isPlain_of_predicate {s : ClauseContext R} {contract : Contract R}
    {settings : Settings} {p : Predicate R} (hid : s.context.serviceIdField = some idField)
    (hs : ClauseContext.ofContext s.context = .ok s)
    (hfield : s.context.refinementField s.tier = none) (hp : s.predicate contract = .ok p) :
    ∃ plan, ofContract contract s.context settings = .ok plan ∧
      plan.IsPlain (settings.table contract.find) idField ∧ plan.request.predicate = p := by
  obtain ⟨plan, hplan⟩ : ∃ plan, ofContract contract s.context settings = .ok plan := by
    rw [ofContract, hid, hs]
    dsimp only [Except.bind]
    rw [ofClauses, hp, refinementOf, hfield]
    exact ⟨_, rfl⟩
  obtain ⟨idField', s', hid', hs', hrealizes⟩ := exists_realizes_of_ofContract hplan
  obtain rfl := Except.ok.inj (hs.symm.trans hs')
  obtain rfl := Option.some.inj (hid.symm.trans hid')
  exact ⟨plan, hplan, hrealizes.isPlain hfield,
    Except.ok.inj (hrealizes.predicate_eq.symm.trans hp)⟩

private theorem IsPlain.accepts_eq (h : plan.IsPlain table idField) :
    plan.accepts = plan.request.predicate.accepts := by
  funext row
  rw [accepts, h.refinement_eq, Option.all_none, Bool.and_true]

/-- A plain plan ends with nothing but what it is meant to find, and with all of it if identifiers
are legible. -/
theorem IsPlain.mem_answered (h : plan.IsPlain table idField) :
    (id ∈ plan.answered rows → id ∈ plan.found rows) ∧
      ((∀ row ∈ rows, row.HasLegibleId idField) → id ∈ plan.found rows →
        id ∈ plan.answered rows) := by
  have hanswered : id ∈ plan.answered rows ↔
      ∃ row ∈ Row.distinct ((rows.filter plan.request.predicate.accepts).map
        (Row.project [idField])), row.id? idField = some id := by
    rw [answered, reported, h.refinement_eq, h.columns_eq, h.idField_eq]
    dsimp only
    rw [Row.distinctIds, List.mem_eraseDups, List.mem_filterMap]
  rw [hanswered, mem_found_iff, h.idField_eq]
  constructor
  · rintro ⟨row, hrow, hid⟩
    obtain ⟨full, hfull, rfl⟩ := List.mem_map.mp (Row.mem_of_mem_distinct hrow)
    obtain ⟨hfull, hkept⟩ := List.mem_filter.mp hfull
    rw [Row.id?_project List.mem_cons_self] at hid
    exact ⟨full, hfull, h.accepts_eq ▸ hkept, hid⟩
  · rintro hlegible ⟨full, hfull, hkept, hid⟩
    rw [h.accepts_eq] at hkept
    -- what is left of the row has its text, and so its identifier
    obtain ⟨row, hrow, htext⟩ := Row.exists_mem_distinct
      (List.mem_map_of_mem (f := Row.project [idField])
        (List.mem_filter.mpr ⟨hfull, hkept⟩))
    obtain ⟨full', hfull', rfl⟩ := List.mem_map.mp (Row.mem_of_mem_distinct hrow)
    refine ⟨_, hrow, ?_⟩
    rw [Row.id?_project List.mem_cons_self, ← hid]
    exact (Row.id?_eq_of_text_eq (hlegible full hfull)
      (hlegible full' (List.mem_of_mem_filter hfull')) htext).symm

/-- Over a single row, a plain plan ends with the identifier of that row, or with nothing. -/
theorem IsPlain.answered_singleton (h : plan.IsPlain table idField) {row : Row R}
    (hid : row.id? idField = some id) :
    plan.answered [row] = if plan.accepts row then [id] else [] := by
  rw [answered, reported, h.refinement_eq, h.columns_eq, h.idField_eq, h.accepts_eq,
    List.filter_singleton]
  cases plan.request.predicate.accepts row with
  | true =>
    have hdistinct : Row.distinct [row.project [idField]] = [row.project [idField]] := rfl
    have hids : Row.distinctIds idField [row.project [idField]] = [id] := by
      rw [Row.distinctIds, List.filterMap_cons, Row.id?_project List.mem_cons_self, hid]
      rfl
    exact hids
  | false => rfl

end Plan

/-- In a new session over a store, a call ends with what its plan ends with. -/
theorem Session.tryExecute_ofSettings_eq_answered {q : SpatialQuery R} {c : Context R}
    {contract : Contract R} {plan : Plan R} {store : Store R} {rows : List (Row R)}
    {settings : Settings} {now : Instant} (hvalid : q.violations c = [])
    (hcontract : q.compile now c = .ok contract)
    (hplan : Plan.ofContract contract c settings = .ok plan)
    (hrows : store.rows? plan.request.table = some rows)
    (hdecided : ∀ row ∈ rows, plan.request.predicate.IsDecided row) :
    (tryExecute { ofSettings settings with store } .none now q c).2 = .ok (plan.answered rows) := by
  have hcompiled : ((Service.ofSettings settings).contractFor now q c).1 = .ok contract := by
    rw [Service.contractFor_fst]
    exact hcontract
  exact outcome_start_eq_answered (s := { ofSettings settings with store }) (d := .none) hvalid
    hcompiled hplan trivial rfl hrows hdecided false

/-! ### One query on both tiers -/

namespace SpatialQuery

/-- The query measures from the selected point, tests no boundary and excludes no disc. -/
structure SuitsBoxes (q : SpatialQuery R) : Prop where
  target_eq : q.target = .selectedPoint
  no_boundary : ∀ b ∈ q.blocks, ∀ op, b.parsedOperator = some (.ok op) → op.subject ≠ .boundary
  no_excluded_disc : ∀ b ∈ q.blocks, b.parsedType = .ok .excluded →
    b.parsedOperator ≠ some (.ok .nearPoint)

variable {q : SpatialQuery R} {c c' : Context R}

/-- Violations of blocks depend on the context only by whether it has a point. -/
private theorem blockViolations_congr (h : c'.hasPoint = c.hasPoint) (n : Nat)
    (blocks : List (Block R)) :
    blockViolations c' n blocks = blockViolations c n blocks := by
  induction blocks generalizing n with
  | nil => rfl
  | cons b rest ih =>
    rw [blockViolations, blockViolations, ih, Block.violations, Block.violations,
      Block.operatorViolations, Block.operatorViolations, h]

/-- A query that is valid on the native tier is valid on the tier of boxes. -/
theorem violations_onBoxes (hvalid : q.violations c = []) (htarget : q.target = .selectedPoint)
    (h : c.FallsBackTo c') : q.violations c' = [] := by
  obtain ⟨hradius, hviolations, hblocks⟩ := violations_eq_nil_iff.mp hvalid
  rw [htarget, Target.violations_selectedPoint_eq_nil_iff] at hviolations
  have hhas : c'.hasPoint = c.hasPoint := by rw [Context.hasPoint, Context.hasPoint, h.point_eq]
  refine violations_eq_nil_iff.mpr ⟨hradius, ?_, ?_⟩
  · rw [htarget, Target.violations_selectedPoint_eq_nil_iff, h.point_eq]
    exact ⟨hviolations.1, .inr (Tier.bboxReady_of_select h.bbox)⟩
  · rw [blockViolations_congr hhas]
    exact hblocks

/-- The entries of such a query test no boundary and exclude no disc. -/
theorem SuitsBoxes.entries (hsuits : q.SuitsBoxes) {supplements : List (Supplement R)}
    (hresolve : q.resolveBlocks = .ok supplements) (now : Instant) (c : Context R) :
    ∀ entry ∈ (q.contractWith now c supplements).entries,
      entry.subject ≠ .boundary ∧ (entry.type = .excluded → entry.subject ≠ .point) := by
  refine List.forall_mem_cons.mpr ⟨?_, fun entry hentry => ?_⟩
  · rw [Entry.subject, mainClause, hsuits.target_eq]
    exact ⟨by simp [Target.subject], fun htype => by cases htype⟩
  · obtain ⟨s, hs, rfl⟩ := List.mem_map.mp hentry
    obtain ⟨b, hb, hbs⟩ := (exists_of_mapM_eq_ok hresolve).1 s hs
    obtain ⟨htype, hop⟩ := Block.parsed_of_resolve hbs
    refine ⟨hsuits.no_boundary b hb _ hop, fun hexcluded hpoint => ?_⟩
    have hkind : s.clause.kind = .nearPoint := by
      rw [Entry.subject] at hpoint
      cases hcase : s.clause.kind <;> rw [hcase] at hpoint <;> first | rfl | cases hpoint
    rw [Entry.type] at hexcluded
    rw [hexcluded] at htype
    rw [hkind] at hop
    exact hsuits.no_excluded_disc b hb htype hop

end SpatialQuery

namespace Plan

variable {q : SpatialQuery R} {c c' : Context R} {contract : Contract R} {plan : Plan R}
  {now : Instant} {settings : Settings}

/-- A query that is planned on the native tier is planned on the tier of boxes, where its plan
accepts at least as many of the rows that boxes enclose. -/
theorem exists_onBoxes (hvalid : q.violations c = []) (hsuits : q.SuitsBoxes)
    (h : c.FallsBackTo c') (hboxes : ∃ columns, c'.bboxFields = some columns)
    (hunrefined : c'.geojsonField = none) (hcontract : q.compile now c = .ok contract)
    (hplan : ofContract contract c settings = .ok plan) :
    ∃ contract' plan' idField, q.compile now c' = .ok contract' ∧
      ofContract contract' c' settings = .ok plan' ∧
      plan.IsPlain (settings.table q.find) idField ∧
      plan'.IsPlain (settings.table q.find) idField ∧
      ∀ row : Row R, c.Encloses c' row →
        plan.request.predicate.IsDecided row ∧ plan'.request.predicate.IsDecided row ∧
          (plan.accepts row = true → plan'.accepts row = true) := by
  obtain ⟨-, supplements, hresolve, -, hcompile⟩ :=
    SpatialQuery.exists_compile_of_violations hvalid
  obtain rfl := Except.ok.inj ((hcompile now).symm.trans hcontract)
  obtain ⟨-, supplements', hresolve', -, hcompile'⟩ :=
    SpatialQuery.exists_compile_of_violations
      (SpatialQuery.violations_onBoxes hvalid hsuits.target_eq h)
  obtain rfl := Except.ok.inj (hresolve.symm.trans hresolve')
  obtain ⟨idField, s, hid, hs, hrealizes⟩ := exists_realizes_of_ofContract hplan
  have hnative : s = ⟨c, .native, none⟩ := by
    rw [ClauseContext.ofContext, h.native] at hs
    exact (Except.ok.inj hs).symm
  subst hnative
  have hpolar : ∀ p ∈ c.point, p.isPolar = false := by
    obtain ⟨p, hp, -, hpolar⟩ := SpatialQuery.exists_point_of_target hvalid hsuits.target_eq
    intro p' hp'
    obtain rfl := Option.some.inj (hp.symm.trans hp')
    exact hpolar
  -- the two contracts have the same entries
  have hsame : (q.contractWith now c' supplements).entries =
      (q.contractWith now c supplements).entries := rfl
  have hentries := hsuits.entries hresolve now c
  obtain ⟨p', hp', hrows⟩ := ClauseContext.exists_predicate_onBoxes h hboxes hsame
    (by simp [Contract.isCompatible, SpatialQuery.contractWith])
    (fun entry hentry => (hentries entry hentry).1)
    (fun entry hentry => (hentries entry hentry).2) hpolar hrealizes.predicate_eq
  have hfield : c'.refinementField .bbox = none := by
    unfold Context.refinementField
    split
    · rfl
    · exact hunrefined
  have hclauses : ClauseContext.ofContext c' = .ok ⟨c', .bbox, none⟩ := by
    rw [ClauseContext.ofContext, h.bbox]
  obtain ⟨plan', hplan', hplain', rfl⟩ := exists_isPlain_of_predicate
    (h.serviceIdField_eq.trans hid) hclauses hfield hp'
  have hplain := hrealizes.isPlain rfl
  refine ⟨_, plan', idField, hcompile' now, hplan', hplain, hplain', fun row hrow => ?_⟩
  rw [hplain.accepts_eq, hplain'.accepts_eq]
  exact hrows row hrow

end Plan

/-! ### Features on both tiers -/

/-- The columns of a collection are different and no properties, and boxes represent its
features. -/
structure BoxesFeatures (columns : BoxColumns) (column : String) (features : List (Json R)) :
    Prop where
  nodup : (column :: columns.names).Nodup
  properties : ∀ feature ∈ features, ∀ name ∈ column :: columns.names,
    (Feature.properties feature).cell? name = none
  boxed : ∀ feature ∈ features, Feature.IsBoxed feature

/-- What the native tier finds, the tier of boxes finds, over exact numbers. On the row of a feature
the box around a point holds wherever a native leaf with the same radius does. A query on both
tiers is planned on both, and its plan for boxes is meant to find all that the native one is; calls
end with that, if identifiers are legible. -/
theorem SpatialQuery.native_subset_bbox {columns : BoxColumns} {column : String}
    {collection : Json Exact} {features : List (Json Exact)}
    (hcollection : (collection.member? "features").bind Json.items? = some features)
    (hfeatures : BoxesFeatures columns column features) :
    (∀ feature ∈ features, ∀ p : LatLng Exact, p.isPolar = false → ∀ relation meters,
      ∃ box, p.surroundings? meters = some box ∧
        ((ClauseContext.nativeLeaf relation column p meters).evaluate
            (Row.ofFeature columns column feature) = .ok true →
          (Predicate.boxOverlap columns box).evaluate (Row.ofFeature columns column feature) =
            .ok true)) ∧
      ∀ (q : SpatialQuery Exact) (c c' : Context Exact) (settings : Settings) (now : Instant)
        (contract : Contract Exact) (plan : Plan Exact) (store : Store Exact),
        q.violations c = [] → q.SuitsBoxes → c.FallsBackTo c' →
        c.geometryField = some column → c'.bboxFields = some columns → c'.geojsonField = none →
        q.compile now c = .ok contract → Plan.ofContract contract c settings = .ok plan →
        Store.empty.load (settings.table q.find) columns column collection = .ok store →
        ∃ contract' plan', q.compile now c' = .ok contract' ∧
          Plan.ofContract contract' c' settings = .ok plan' ∧
          plan.found (features.map (Row.ofFeature columns column)) ⊆
            plan'.found (features.map (Row.ofFeature columns column)) ∧
          ∃ ids ids', (Session.tryExecute { Session.ofSettings settings with store }
              .none now q c).2 = .ok ids ∧
            (Session.tryExecute { Session.ofSettings settings with store }
              .none now q c').2 = .ok ids' ∧
            ((∀ feature ∈ features,
              (Row.ofFeature columns column feature).HasLegibleId plan.request.idField) →
                ids ⊆ ids') := by
  refine ⟨fun feature hfeature p hpolar relation meters => ?_, ?_⟩
  · obtain ⟨box, hbox⟩ : ∃ box, p.surroundings? meters = some box :=
      LatLng.exists_surroundings_iff.mpr hpolar
    exact ⟨box, hbox, Row.evaluate_boxOverlap_of_nativeLeaf hfeatures.nodup
      (hfeatures.properties feature hfeature) (hfeatures.boxed feature hfeature) hbox⟩
  intro q c c' settings now contract plan store hvalid hsuits h hcolumn hcolumns hunrefined
    hcontract hplan hload
  have hrows := Store.rows?_of_load hcollection rfl hload
  obtain ⟨contract', plan', idField, hcontract', hplan', hplain, hplain', hall⟩ :=
    Plan.exists_onBoxes hvalid hsuits h ⟨columns, hcolumns⟩ hunrefined hcontract hplan
  -- on the rows of the features, the plan for boxes accepts all that the native one does
  have hencloses : ∀ row ∈ features.map (Row.ofFeature columns column), c.Encloses c' row := by
    intro row hrow p hp column' hcolumn' columns' hcolumns' relation meters box hbox
    obtain ⟨feature, hfeature, rfl⟩ := List.mem_map.mp hrow
    obtain rfl := Option.some.inj (hcolumn.symm.trans hcolumn')
    obtain rfl := Option.some.inj (hcolumns.symm.trans hcolumns')
    exact Row.evaluate_boxOverlap_of_nativeLeaf hfeatures.nodup
      (hfeatures.properties feature hfeature) (hfeatures.boxed feature hfeature) hbox
  have hfound : plan.found (features.map (Row.ofFeature columns column)) ⊆
      plan'.found (features.map (Row.ofFeature columns column)) := by
    intro id hid
    obtain ⟨row, hrow, haccepts, hid⟩ := Plan.mem_found_iff.mp hid
    rw [hplain.idField_eq, ← hplain'.idField_eq] at hid
    exact Plan.mem_found_iff.mpr
      ⟨row, hrow, (hall row (hencloses row hrow)).2.2 haccepts, hid⟩
  have hcall := Session.tryExecute_ofSettings_eq_answered hvalid hcontract hplan
    (hplain.table_eq ▸ hrows) fun row hrow => (hall row (hencloses row hrow)).1
  have hcall' := Session.tryExecute_ofSettings_eq_answered
    (SpatialQuery.violations_onBoxes hvalid hsuits.target_eq h) hcontract' hplan'
    (hplain'.table_eq ▸ hrows) fun row hrow => (hall row (hencloses row hrow)).2.1
  refine ⟨contract', plan', hcontract', hplan', hfound, _, _, hcall, hcall',
    fun hlegible id hid => ?_⟩
  rw [hplain.idField_eq] at hlegible
  exact hplain'.mem_answered.2 (List.forall_mem_map.mpr hlegible)
    (hfound (hplain.mem_answered.1 hid))

/-! ### A buoy at the selected point -/

/-- A buoy with the given geometry. -/
def buoy (geometry : Json Exact) : Json Exact :=
  .obj [("geometry", geometry), ("properties", .obj [("id", .str "buoy")])]

/-- The collection of that buoy. -/
def buoys (geometry : Json Exact) : Json Exact :=
  .obj [("features", .arr [buoy geometry])]

/-- Routes within 300 meters of the selected point. -/
noncomputable def buoyQuery : SpatialQuery Exact where
  find := .routes
  condition := .within
  distance := ⟨300⟩
  target := .selectedPoint
  blocks := []

/-- The origin as the selected point, on rows with boxes and perhaps on the native tier. -/
noncomputable def buoyContext (spatialReady : Bool) : Context Exact :=
  { (Context.empty : Context Exact) with
    serviceIdField := some "id"
    spatialReady
    geometryField := some "geometry"
    bboxReady := true
    bboxFields := some BoxColumns.default
    point := some LatLng.origin }

/-- The row of the buoy. -/
noncomputable def buoyRow (geometry : Json Exact) : Row Exact :=
  Row.ofFeature BoxColumns.default "geometry" (buoy geometry)

/-- The identifier of the buoy is a text. -/
private theorem read_buoyRow (g : Json Exact) : (buoyRow g).read "id" = .str "buoy" := by
  rw [Row.read, buoyRow, Row.cell?_ofFeature_of_ne (by decide) (by decide)]
  rfl

private theorem id?_buoyRow (g : Json Exact) : (buoyRow g).id? "id" = some "buoy" := by
  rw [Row.id?_eq_read, read_buoyRow]
  rfl

private theorem hasLegibleId_buoyRow (g : Json Exact) : (buoyRow g).HasLegibleId "id" := by
  rw [Row.HasLegibleId, read_buoyRow]
  exact fun h => absurd (List.cons.inj h).1 (by decide)

/-- The session in which the buoy is loaded. -/
noncomputable def buoySession (store : Store Exact) : Session Exact :=
  { Session.ofSettings Settings.default with store }

private theorem violations_buoyQuery (spatialReady : Bool) :
    buoyQuery.violations (buoyContext spatialReady) = [] := by
  have hradius : isRadius buoyQuery.distance = true := by
    have hnonneg : ¬buoyQuery.distance < Scalar.zero := by
      rw [Exact.lt_def, Exact.toReal_zero]
      norm_num [buoyQuery]
    simpa [isRadius] using ⟨rfl, hnonneg⟩
  have hpoint : pointViolations (buoyContext spatialReady) = [] := by
    have hpolar : pointViolations (buoyContext spatialReady) =
        violationIf LatLng.origin.isPolar (.polarPoint LatLng.origin.lat) := rfl
    rw [hpolar, LatLng.isPolar_origin]
    rfl
  have htier : violationIf (!(buoyContext spatialReady).spatialReady &&
      !(buoyContext spatialReady).bboxReady) (.noSpatialTier : Violation Exact) = [] := by
    cases spatialReady <;> rfl
  have htarget : buoyQuery.target = .selectedPoint := rfl
  rw [SpatialQuery.violations, hradius, htarget, Target.violations, hpoint, htier]
  rfl

private theorem fallsBackTo_buoyContext : (buoyContext true).FallsBackTo (buoyContext false) :=
  ⟨rfl, rfl, rfl, rfl, rfl, rfl⟩

private theorem suitsBoxes_buoyQuery : buoyQuery.SuitsBoxes where
  target_eq := rfl
  no_boundary := by
    intro b hb
    cases hb
  no_excluded_disc := by
    intro b hb
    cases hb

/-- The query is planned on the native tier. -/
theorem exists_buoy_plan : ∃ contract plan,
    buoyQuery.compile ⟨0, 0⟩ (buoyContext true) = .ok contract ∧
      Plan.ofContract contract (buoyContext true) Settings.default = .ok plan := by
  obtain ⟨-, supplements, hresolve, -, hcompile⟩ :=
    SpatialQuery.exists_compile_of_violations (violations_buoyQuery true)
  obtain rfl := Except.ok.inj hresolve
  exact ⟨_, _, hcompile _, rfl⟩

/-- The buoy is loaded into a table of its own. -/
theorem exists_buoy_load (g : Json Exact) : ∃ store,
    Store.empty.load "routes" BoxColumns.default "geometry" (buoys g) = .ok store ∧
      store.rows? "routes" = some [Row.ofFeature BoxColumns.default "geometry" (buoy g)] :=
  ⟨_, rfl, rfl⟩

/-- The origin is near itself. -/
theorem isNear_origin :
    (Geometry.point LatLng.origin.position).isNear LatLng.origin (degreesOfMeters ⟨300⟩) =
      true := by
  have hdegrees : (Geometry.point LatLng.origin.position).degrees? LatLng.origin.position =
      some (LatLng.origin.position.distance LatLng.origin.position) := rfl
  have hnonneg : (Scalar.zero : Exact) ≤ degreesOfMeters ⟨300⟩ := by
    rw [Exact.le_def, Exact.toReal_zero, degreesOfMeters, metersPerDegree, Exact.toReal_div,
      Exact.toReal_ofInt]
    norm_num
  rw [Geometry.isNear, hdegrees, Position.distance_self, Option.any_some, decide_eq_true hnonneg]

/-- The geometry of the buoy is the origin, if it is given as a value. -/
private theorem geometry?_buoyRow_toGeoJson :
    Row.geometry? (buoyRow LatLng.origin.toGeoJson) "geometry" =
      some (.point LatLng.origin.position) := by
  have hcell : Row.geometry? (buoyRow LatLng.origin.toGeoJson) "geometry" =
      (Geometry.ofGeoJson (R := Exact) LatLng.origin.toGeoJson).toOption := by
    rw [buoyRow, Row.geometry?_ofFeature rfl]
    rfl
  rw [hcell, Geometry.ofGeoJson_toGeoJson]
  rfl

private theorem geometry?_buoyRow_str :
    Row.geometry? (buoyRow (.str "POINT (0 0)")) "geometry" =
      some (.point LatLng.origin.position) := by
  have hcell : Row.geometry? (buoyRow (.str "POINT (0 0)")) "geometry" =
      some (.point ⟨Scalar.ofNumeral (.finite false 0 0), Scalar.ofNumeral (.finite false 0 0)⟩) :=
    rfl
  have hzero : (Scalar.ofNumeral (.finite false 0 0) : Exact) = ⟨0⟩ := by
    ext
    simp [Numeral.toReal?]
  rw [hcell, hzero]
  rfl

/-- The box of the first one represents it. -/
private theorem boxesFeatures_buoy : BoxesFeatures BoxColumns.default "geometry"
    [buoy LatLng.origin.toGeoJson] where
  nodup := by decide
  properties := by
    intro feature hfeature name hname
    rw [List.mem_singleton.mp hfeature]
    fin_cases hname <;> rfl
  boxed := by
    intro feature hfeature
    rw [List.mem_singleton.mp hfeature]
    have hvalue : Feature.geometryValue? (buoy LatLng.origin.toGeoJson) =
        some LatLng.origin.toGeoJson := rfl
    refine ⟨fun text h => ?_, fun g hg => ?_⟩
    · rw [hvalue] at h
      cases h
    · have hpoint : Feature.geometry? (buoy LatLng.origin.toGeoJson) =
          (Geometry.ofGeoJson (R := Exact) LatLng.origin.toGeoJson).toOption := rfl
      rw [hpoint, Geometry.ofGeoJson_toGeoJson] at hg
      obtain rfl := Option.some.inj hg
      trivial

/-- The native plan accepts the buoy if its geometry lies near the origin. -/
theorem accepts_buoyRow {contract : Contract Exact} {plan : Plan Exact}
    (hcontract : buoyQuery.compile ⟨0, 0⟩ (buoyContext true) = .ok contract)
    (hplan : Plan.ofContract contract (buoyContext true) Settings.default = .ok plan)
    {g : Json Exact}
    (hg : Row.geometry? (buoyRow g) "geometry" = some (.point LatLng.origin.position)) :
    plan.request.idField = "id" ∧ plan.accepts (buoyRow g) = true := by
  obtain ⟨_, _, _, hid, hp, htier, -, hidField, haround⟩ :=
    Plan.exists_isAround (violations_buoyQuery true) rfl rfl hcontract hplan
  obtain rfl := Option.some.inj hid
  obtain rfl := Option.some.inj hp
  obtain rfl := Option.some.inj htier
  obtain ⟨field, hfield, haccepts⟩ := haround.accepts_native
  obtain rfl := Option.some.inj hfield
  refine ⟨hidField, ?_⟩
  rw [haccepts, hg]
  exact isNear_origin

/-- Both tiers find the buoy, where its geometry is a point in GeoJSON. -/
theorem native_subset_bbox_buoy :
    BoxesFeatures BoxColumns.default "geometry" [buoy LatLng.origin.toGeoJson] ∧
      buoyQuery.violations (buoyContext true) = [] ∧ buoyQuery.SuitsBoxes ∧
      (buoyContext true).FallsBackTo (buoyContext false) ∧
      ∃ contract plan contract' plan' store ids ids',
        buoyQuery.compile ⟨0, 0⟩ (buoyContext true) = .ok contract ∧
        Plan.ofContract contract (buoyContext true) Settings.default = .ok plan ∧
        Store.empty.load "routes" BoxColumns.default "geometry"
          (buoys LatLng.origin.toGeoJson) = .ok store ∧
        buoyQuery.compile ⟨0, 0⟩ (buoyContext false) = .ok contract' ∧
        Plan.ofContract contract' (buoyContext false) Settings.default = .ok plan' ∧
        "buoy" ∈ plan.found [buoyRow LatLng.origin.toGeoJson] ∧
        plan.found [buoyRow LatLng.origin.toGeoJson] ⊆
          plan'.found [buoyRow LatLng.origin.toGeoJson] ∧
        ((buoySession store).tryExecute .none ⟨0, 0⟩ buoyQuery (buoyContext true)).2 = .ok ids ∧
        ((buoySession store).tryExecute .none ⟨0, 0⟩ buoyQuery (buoyContext false)).2 =
          .ok ids' ∧
        ids ⊆ ids' := by
  obtain ⟨contract, plan, hcontract, hplan⟩ := exists_buoy_plan
  obtain ⟨store, hload, -⟩ := exists_buoy_load LatLng.origin.toGeoJson
  have hcollection : ((buoys LatLng.origin.toGeoJson).member? "features").bind Json.items? =
      some [buoy LatLng.origin.toGeoJson] := rfl
  obtain ⟨-, hcalls⟩ := SpatialQuery.native_subset_bbox hcollection boxesFeatures_buoy
  obtain ⟨contract', plan', hcontract', hplan', hfound, ids, ids', hids, hids', hsubset⟩ :=
    hcalls buoyQuery _ _ Settings.default ⟨0, 0⟩ contract plan store (violations_buoyQuery true)
      suitsBoxes_buoyQuery fallsBackTo_buoyContext rfl rfl rfl hcontract hplan hload
  obtain ⟨hidField, haccepts⟩ := accepts_buoyRow hcontract hplan geometry?_buoyRow_toGeoJson
  refine ⟨boxesFeatures_buoy, violations_buoyQuery true, suitsBoxes_buoyQuery,
    fallsBackTo_buoyContext, contract, plan, contract', plan', store, ids, ids', hcontract, hplan,
    hload, hcontract', hplan', ?_, hfound, hids, hids', hsubset ?_⟩
  · refine Plan.mem_found_iff.mpr ⟨_, List.mem_singleton_self _, haccepts, ?_⟩
    rw [hidField]
    exact id?_buoyRow _
  · intro feature hfeature
    rw [List.mem_singleton.mp hfeature, hidField]
    exact hasLegibleId_buoyRow _

/-- How a call over a buoy ends. -/
theorem tryExecute_buoySession {spatialReady : Bool} {contract : Contract Exact}
    {plan : Plan Exact} {store : Store Exact} {g : Json Exact} {idField : String}
    (hcontract : buoyQuery.compile ⟨0, 0⟩ (buoyContext spatialReady) = .ok contract)
    (hplan : Plan.ofContract contract (buoyContext spatialReady) Settings.default = .ok plan)
    (hplain : plan.IsPlain "routes" idField) (hrows : store.rows? "routes" = some [buoyRow g]) :
    ((buoySession store).tryExecute .none ⟨0, 0⟩ buoyQuery (buoyContext spatialReady)).2 =
      .ok (if plan.accepts (buoyRow g) then ["buoy"] else []) := by
  obtain ⟨_, _, _, hid, -, -, -, hidField, haround⟩ :=
    Plan.exists_isAround (violations_buoyQuery spatialReady) rfl rfl hcontract hplan
  obtain rfl := Option.some.inj hid
  obtain rfl := hplain.idField_eq.symm.trans hidField
  rw [← hplain.answered_singleton (id?_buoyRow g)]
  exact Session.tryExecute_ofSettings_eq_answered (violations_buoyQuery spatialReady) hcontract
    hplan (hplain.table_eq ▸ hrows) fun row _ => haround.isDecided row

/-- Only the native tier finds the buoy, where its geometry is a point in Well-Known Text. -/
theorem not_native_subset_bbox_buoy :
    (∀ name ∈ "geometry" :: BoxColumns.default.names,
        (Feature.properties (buoy (.str "POINT (0 0)"))).cell? name = none) ∧
      (∀ g ∈ Feature.geometry? (buoy (.str "POINT (0 0)")),
        g.Consists (fun _ => True) Polygon.HoldsHoles) ∧
      LatLng.origin.isPolar = false ∧
      buoyQuery.violations (buoyContext true) = [] ∧ buoyQuery.SuitsBoxes ∧
      (buoyContext true).FallsBackTo (buoyContext false) ∧
      (ClauseContext.nativeLeaf .within "geometry" LatLng.origin ⟨300⟩).evaluate
        (buoyRow (.str "POINT (0 0)")) = .ok true ∧
      (∃ box, LatLng.origin.surroundings? (⟨300⟩ : Exact) = some box ∧
        (Predicate.boxOverlap BoxColumns.default box).evaluate (buoyRow (.str "POINT (0 0)")) =
          .ok false) ∧
      ∃ contract plan contract' plan' store,
        buoyQuery.compile ⟨0, 0⟩ (buoyContext true) = .ok contract ∧
        Plan.ofContract contract (buoyContext true) Settings.default = .ok plan ∧
        Store.empty.load "routes" BoxColumns.default "geometry" (buoys (.str "POINT (0 0)")) =
          .ok store ∧
        buoyQuery.compile ⟨0, 0⟩ (buoyContext false) = .ok contract' ∧
        Plan.ofContract contract' (buoyContext false) Settings.default = .ok plan' ∧
        ((buoySession store).tryExecute .none ⟨0, 0⟩ buoyQuery (buoyContext true)).2 =
          .ok ["buoy"] ∧
        ((buoySession store).tryExecute .none ⟨0, 0⟩ buoyQuery (buoyContext false)).2 = .ok [] := by
  have hnear : (Row.geometry? (buoyRow (.str "POINT (0 0)")) "geometry").any
      (·.isNear LatLng.origin (degreesOfMeters ⟨300⟩)) = true := by
    rw [geometry?_buoyRow_str]
    exact isNear_origin
  -- text is not put into a box when it is loaded
  have hmiss : ∀ box, (buoyRow (.str "POINT (0 0)")).boxOverlaps BoxColumns.default box = false :=
    fun _ => rfl
  have hholes : ∀ g ∈ Feature.geometry? (buoy (.str "POINT (0 0)")),
      g.Consists (fun _ => True) Polygon.HoldsHoles := by
    intro g hg
    obtain rfl := Option.some.inj ((Row.geometry?_ofFeature rfl).symm.trans
      geometry?_buoyRow_str |>.symm.trans hg)
    trivial
  obtain ⟨box, hbox⟩ := LatLng.exists_surroundings_origin ⟨300⟩
  obtain ⟨contract, plan, hcontract, hplan⟩ := exists_buoy_plan
  obtain ⟨contract', plan', idField, hcontract', hplan', hplain, hplain', -⟩ :=
    Plan.exists_onBoxes (violations_buoyQuery true) suitsBoxes_buoyQuery fallsBackTo_buoyContext
      ⟨_, rfl⟩ rfl hcontract hplan
  obtain ⟨store, hload, hrows⟩ := exists_buoy_load (.str "POINT (0 0)")
  obtain ⟨-, haccepts⟩ := accepts_buoyRow hcontract hplan geometry?_buoyRow_str
  have haccepts' : plan'.accepts (buoyRow (.str "POINT (0 0)")) = false := by
    obtain ⟨_, _, _, -, -, htier, -, -, haround⟩ :=
      Plan.exists_isAround (violations_buoyQuery false) rfl rfl hcontract' hplan'
    obtain rfl := Option.some.inj htier
    obtain ⟨columns, box, hcolumns, -, haccepts⟩ := haround.accepts_bbox
    obtain rfl := Option.some.inj hcolumns
    rw [haccepts, hmiss, Bool.false_and]
  refine ⟨?_, hholes, LatLng.isPolar_origin, violations_buoyQuery true, suitsBoxes_buoyQuery,
    fallsBackTo_buoyContext, congrArg Except.ok hnear, ⟨box, hbox, congrArg Except.ok (hmiss box)⟩,
    contract, plan, contract', plan', store, hcontract, hplan, hload, hcontract', hplan', ?_, ?_⟩
  · intro name hname
    fin_cases hname <;> rfl
  · rw [tryExecute_buoySession hcontract hplan hplain hrows, haccepts]
    rfl
  · rw [tryExecute_buoySession hcontract' hplan' hplain' hrows, haccepts']
    rfl

end TransitQuery
