import TransitQuery.Proofs.Plan
import TransitQuery.Proofs.Predicate.Obstacles
import TransitQuery.Proofs.Query.Compile
import TransitQuery.Proofs.Scalar.Legible

/-!
# Which valid queries can be planned

Validation asks for less than planning. It does not look at the columns of a context, and it asks
for spatial tests without asking for a geometry column. `SpatialQuery.IsPlannable` is what a valid
query needs besides: a tier that can test what the query is about, the columns of its attributes,
and a boundary that can be written.

A valid query that is not plannable fails by something that its context lacks
(`SpatialQuery.Obstacle`), and by nothing that validation has ruled out
(`SpatialQuery.planned_iff_isPlannable`).

The conditions of `SpatialQuery.IsPlannable` are stated about the query and the context alone, and
are decidable. They follow the clauses of the query, each with the place that it comes from
(`ClauseOrigin`) and what it is about (`Subject`), and say that the context serves the subject on
the tier that is selected.

* `SpatialQuery.has_entries`: the clauses of the compiled query are those that the query has.
* `SpatialQuery.reads_of_mem_entries`: validation has seen to the point, the boundary and the text
  that they read.
* `SpatialQuery.predicate_cases`: so each of them is built if the context serves it, and the first
  that is not served tells the error.
* `Plan.ofClauses_cases`: beyond its predicate, nothing of a plan can fail.

So the first obstacle in the order of the clauses is the error that is reported, and the same
obstacle keeps the query from being plannable. The example at the end has a block that is about
modes, in a context with and without a column for them.
-/

namespace TransitQuery

variable {R : Type}

/-- The errors that validation rules out: a missing point, one at a pole, and an ill-formed
contract. -/
def BuildError.IsRuledOut : BuildError R → Prop
  | missingPoint _ | polarPoint _ => True
  | incompatibleVersion _ | startsWithoutMain | secondMain _ | noEntries => True
  | _ => False

/-- The native tier is selected only with a geometry column. -/
theorem ClauseContext.hasGeometry_of_select {c : Context R} {tier : Tier}
    (h : Tier.select c = some tier) : (⟨c, tier, none⟩ : ClauseContext R).HasGeometry := by
  rintro rfl
  unfold Tier.select at h
  split at h
  · rename_i hready
    exact (Bool.and_eq_true_iff.mp hready).2
  · split at h <;> cases h

namespace SpatialQuery

/-- A block of the query has an operator. -/
def Uses (q : SpatialQuery R) (op : BlockOperator) : Prop :=
  ∃ b ∈ q.blocks, b.parsedOperator = some (.ok op)

/-- A clause of the query comes from there. -/
def Has (q : SpatialQuery R) : ClauseOrigin → Prop
  | .main => True
  | .block op => q.Uses op

/-- What the clause from there is about. -/
def subjectOf (q : SpatialQuery R) : ClauseOrigin → Subject
  | .main => q.target.subject
  | .block op => op.subject

variable [Scalar R]

/-- What a valid query needs besides to be planned. -/
structure IsPlannable (q : SpatialQuery R) (c : Context R) : Prop where
  /-- There is a tier. -/
  isSome_select : (Tier.select c).isSome = true
  /-- Boxes need columns, and do not go with boundaries. -/
  of_bbox : Tier.select c = some .bbox → c.bboxFields.isSome = true ∧
    q.target = .selectedPoint ∧ ¬q.Uses .touchesBoundary ∧ ¬q.Uses .insideBoundary
  /-- Attributes need columns. -/
  of_operator : q.Uses .operator → c.operatorFields ≠ []
  of_mode : q.Uses .mode → c.modeField.isSome = true
  /-- A boundary that is tested can be written. -/
  of_boundary : q.target = .boundary ∨ q.Uses .touchesBoundary ∨ q.Uses .insideBoundary →
    ∃ shape wkt, c.boundary = some shape ∧ shape.toWkt = .ok wkt

instance (q : SpatialQuery R) (op : BlockOperator) : Decidable (q.Uses op) :=
  inferInstanceAs (Decidable (∃ b ∈ q.blocks, b.parsedOperator = some (.ok op)))

/-- A boundary that can be written, spelt out. -/
private theorem any_toWkt_iff {boundary : Option (Boundary R)} :
    (boundary.any fun shape => shape.toWkt.isOk) = true ↔
      ∃ shape wkt, boundary = some shape ∧ shape.toWkt = .ok wkt := by
  rw [Option.any_eq_true]
  constructor
  · rintro ⟨shape, hshape, h⟩
    obtain ⟨wkt, hwkt⟩ := exists_eq_ok_of_isOk h
    exact ⟨shape, wkt, hshape, hwkt⟩
  · rintro ⟨shape, wkt, hshape, hwkt⟩
    exact ⟨shape, hshape, by rw [hwkt]; rfl⟩

instance (q : SpatialQuery R) (c : Context R) : Decidable (q.IsPlannable c) :=
  decidable_of_iff
    ((Tier.select c).isSome = true ∧
      (Tier.select c = some .bbox → c.bboxFields.isSome = true ∧
        q.target = .selectedPoint ∧ ¬q.Uses .touchesBoundary ∧ ¬q.Uses .insideBoundary) ∧
      (q.Uses .operator → c.operatorFields ≠ []) ∧ (q.Uses .mode → c.modeField.isSome = true) ∧
      (q.target = .boundary ∨ q.Uses .touchesBoundary ∨ q.Uses .insideBoundary →
        (c.boundary.any fun shape => shape.toWkt.isOk) = true))
    ⟨fun ⟨hsome, hbbox, hoperator, hmode, hboundary⟩ =>
        ⟨hsome, hbbox, hoperator, hmode, fun h => any_toWkt_iff.mp (hboundary h)⟩,
      fun ⟨hsome, hbbox, hoperator, hmode, hboundary⟩ =>
        ⟨hsome, hbbox, hoperator, hmode, fun h => any_toWkt_iff.mpr (hboundary h)⟩⟩

/-- An error that tells what the context lacks for a clause of the query. -/
inductive Obstacle (q : SpatialQuery R) (c : Context R) : BuildError R → Prop
  | noTier (h : Tier.select c = none) : Obstacle q c .noTier
  | lacks {tier : Tier} {origin : ClauseOrigin} {e : BuildError R}
    (htier : Tier.select c = some tier) (horigin : q.Has origin)
    (h : c.Lacks tier origin (q.subjectOf origin) e) : Obstacle q c e

/-- So a query is plannable if its context serves on its tier all that the query is about. -/
theorem isPlannable_iff {q : SpatialQuery R} {c : Context R} :
    q.IsPlannable c ↔ ∃ tier, Tier.select c = some tier ∧
      ∀ origin, q.Has origin → c.Serves tier (q.subjectOf origin) := by
  constructor
  · rintro ⟨hsome, hbbox, hoperator, hmode, hboundary⟩
    obtain ⟨tier, htier⟩ := Option.isSome_iff_exists.mp hsome
    have hpoint : c.Serves tier .point := by
      cases tier with
      | native => exact .inl rfl
      | bbox => exact .inr (hbbox htier).1
    have hserves : (q.target = .boundary ∨ q.Uses .touchesBoundary ∨ q.Uses .insideBoundary) →
        c.Serves tier .boundary := by
      intro h
      refine ⟨?_, hboundary h⟩
      cases tier with
      | native => rfl
      | bbox =>
        obtain ⟨-, htarget, htouches, hinside⟩ := hbbox htier
        simp [htarget, htouches, hinside] at h
    refine ⟨tier, htier, fun origin horigin => ?_⟩
    cases origin with
    | main =>
      unfold subjectOf
      cases htarget : q.target with
      | selectedPoint => exact hpoint
      | boundary => exact hserves (.inl htarget)
    | block op =>
      cases op with
      | nearPoint => exact hpoint
      | touchesBoundary => exact hserves (.inr (.inl horigin))
      | insideBoundary => exact hserves (.inr (.inr horigin))
      | operator => exact hoperator horigin
      | mode => exact hmode horigin
  · rintro ⟨tier, htier, hserves⟩
    have hmain := hserves .main trivial
    have hblock : ∀ op, q.Uses op → c.Serves tier op.subject := fun op => hserves (.block op)
    refine ⟨by rw [htier]; rfl, fun hbbox => ?_, hblock .operator, hblock .mode, ?_⟩
    · obtain rfl := Option.some.inj (htier.symm.trans hbbox)
      -- with boxes, no boundary is served
      have hnone : ¬c.Serves .bbox .boundary := by simp [Context.Serves]
      unfold subjectOf at hmain
      cases htarget : q.target with
      | selectedPoint =>
        rw [htarget] at hmain
        exact ⟨hmain.resolve_left (by simp), rfl, fun h => hnone (hblock _ h),
          fun h => hnone (hblock _ h)⟩
      | boundary =>
        rw [htarget] at hmain
        exact absurd hmain hnone
    · rintro (htarget | htouches | hinside)
      · unfold subjectOf at hmain
        rw [htarget] at hmain
        exact hmain.2
      · exact (hblock _ htouches).2
      · exact (hblock _ hinside).2

end SpatialQuery

/-! ### What validation promises -/

/-- What a block resolves to has its type and its operator. -/
theorem Block.parsed_of_resolve {b : Block R} {inherited : R} {s : Supplement R}
    (h : b.resolve inherited = .ok s) :
    b.parsedType = .ok s.type ∧ b.parsedOperator = some (.ok s.clause.kind) := by
  unfold resolve at h
  split at h
  · cases h
  rename_i type htype
  split at h
  · cases h
  · cases h
  · rename_i op hop
    cases h
    refine ⟨htype, hop.trans ?_⟩
    cases op <;> rfl

variable [Scalar R]

/-- A block without violations gives its operator what that reads. -/
theorem Block.of_resolve {c : Context R} {n : Nat} {b : Block R} {inherited : R}
    {s : Supplement R} (h : b.violations c n = []) (hs : b.resolve inherited = .ok s) :
    b.parsedOperator = some (.ok s.clause.kind) ∧
      (s.clause.kind.subject = .point → c.hasPoint = true) ∧
      ∀ value, s.clause.text? = some value → Text.isBlankString value = false := by
  obtain ⟨-, hop⟩ := List.append_eq_nil_iff.mp h
  unfold operatorViolations at hop
  unfold resolve at hs
  split at hs
  · cases hs
  split at hs
  · cases hs
  · cases hs
  rename_i op hparsed
  cases hs
  have hkind : (op.clause inherited b).kind = op := by cases op <;> rfl
  rw [hparsed] at hop
  dsimp only
  rw [hkind]
  refine ⟨hparsed, fun hpoint => ?_, fun value hvalue => ?_⟩
  · cases op with
    | nearPoint =>
      obtain ⟨hpresent, -⟩ := List.append_eq_nil_iff.mp hop
      simpa using of_violationIf_eq_nil hpresent
    | _ => cases hpoint
  · cases op with
    | operator =>
      cases hvalue
      simpa [BlockOperator.isAttribute] using of_violationIf_eq_nil hop
    | mode =>
      cases hvalue
      simpa [BlockOperator.isAttribute] using of_violationIf_eq_nil hop
    | _ => cases hvalue

/-- Blocks have no violations if each of them has none. -/
theorem exists_violations_of_mem {c : Context R} {n : Nat} {blocks : List (Block R)}
    (h : blockViolations c n blocks = []) : ∀ b ∈ blocks, ∃ k, b.violations c k = [] := by
  induction blocks generalizing n with
  | nil => simp
  | cons b rest ih =>
    obtain ⟨hb, hrest⟩ := List.append_eq_nil_iff.mp h
    exact List.forall_mem_cons.mpr ⟨⟨n, hb⟩, ih hrest⟩

namespace SpatialQuery

variable {q : SpatialQuery R} {c : Context R}

/-- As a target, the selected point is there and away from the poles. -/
theorem exists_point_of_target (h : q.violations c = []) (htarget : q.target = .selectedPoint) :
    ∃ p, c.point = some p ∧ p.isFinite = true ∧ p.isPolar = false := by
  obtain ⟨-, hviolations, -⟩ := violations_eq_nil_iff.mp h
  rw [htarget, Target.violations_selectedPoint_eq_nil_iff] at hviolations
  exact hviolations.1

/-- The clauses of a compiled query are those that the query has. -/
theorem has_entries (h : q.violations c = []) (now : Instant) {supplements : List (Supplement R)}
    (hresolve : q.resolveBlocks = .ok supplements) :
    (∀ entry ∈ (q.contractWith now c supplements).entries,
        q.Has entry.origin ∧ entry.subject = q.subjectOf entry.origin) ∧
      ∀ origin, q.Has origin →
        ∃ entry ∈ (q.contractWith now c supplements).entries, entry.origin = origin := by
  obtain ⟨hfrom, hto⟩ := exists_of_mapM_eq_ok hresolve
  have hvalid := exists_violations_of_mem (violations_eq_nil_iff.mp h).2.2
  constructor
  · intro entry hentry
    rcases List.mem_cons.mp hentry with rfl | hentry
    · exact ⟨trivial, rfl⟩
    · obtain ⟨s, hs, rfl⟩ := List.mem_map.mp hentry
      obtain ⟨b, hb, hbs⟩ := hfrom s hs
      obtain ⟨k, hk⟩ := hvalid b hb
      exact ⟨⟨b, hb, (Block.of_resolve hk hbs).1⟩, rfl⟩
  · intro origin horigin
    cases origin with
    | main => exact ⟨_, List.mem_cons_self, rfl⟩
    | block op =>
      obtain ⟨b, hb, hop⟩ := horigin
      obtain ⟨s, hs, hbs⟩ := hto b hb
      obtain ⟨k, hk⟩ := hvalid b hb
      obtain rfl : s.clause.kind = op := by
        simpa using (Block.of_resolve hk hbs).1.symm.trans hop
      exact ⟨.supplement s, List.mem_cons_of_mem _ (List.mem_map_of_mem hs), rfl⟩

/-- All that the clauses of a compiled query read is there. The point of a block has been checked
for a pole only if it is the target, too. -/
theorem reads_of_mem_entries (h : q.violations c = []) {tier : Tier} {now : Instant}
    {supplements : List (Supplement R)} (hresolve : q.resolveBlocks = .ok supplements)
    {entry : Entry R} (hentry : entry ∈ (q.contractWith now c supplements).entries)
    (htarget : tier = .bbox → entry.origin = .main ∨ q.target = .selectedPoint) :
    (⟨c, tier, none⟩ : ClauseContext R).Reads entry := by
  rcases List.mem_cons.mp hentry with rfl | hentry
  · refine ⟨fun hpoint => ?_, fun b value hb => (by cases hb)⟩
    -- The main clause tests the point only if the point is the target.
    have hselected : q.target = .selectedPoint := by
      cases htarget : q.target with
      | selectedPoint => rfl
      | boundary =>
        simp only [Entry.subject, mainClause, htarget] at hpoint
        cases hpoint
    obtain ⟨p, hp, -, hpolar⟩ := exists_point_of_target h hselected
    exact ⟨p, hp, fun _ => hpolar⟩
  · obtain ⟨s, hs, rfl⟩ := List.mem_map.mp hentry
    obtain ⟨b, hb, hbs⟩ := (exists_of_mapM_eq_ok hresolve).1 s hs
    obtain ⟨k, hk⟩ := exists_violations_of_mem (violations_eq_nil_iff.mp h).2.2 b hb
    obtain ⟨-, hpresent, htext⟩ := Block.of_resolve hk hbs
    refine ⟨fun hpoint => ?_, fun b' value hb' hvalue => ?_⟩
    · obtain ⟨p, hp⟩ := Option.isSome_iff_exists.mp (hpresent hpoint)
      refine ⟨p, hp, fun hbbox => ?_⟩
      have hselected : q.target = .selectedPoint :=
        (htarget hbbox).resolve_left (by simp [Entry.origin])
      obtain ⟨p', hp', -, hpolar⟩ := exists_point_of_target h hselected
      obtain rfl := Option.some.inj (hp.symm.trans hp')
      exact hpolar
    · obtain rfl := Entry.supplement.inj hb'
      exact htext value hvalue

/-- The clauses of a valid query are built if its context serves it. If not, the first that is not
built meets an obstacle. -/
theorem mapM_typedClause_cases (h : q.violations c = []) {tier : Tier}
    (htier : Tier.select c = some tier) {now : Instant} {supplements : List (Supplement R)}
    (hresolve : q.resolveBlocks = .ok supplements) :
    ((∀ origin, q.Has origin → c.Serves tier (q.subjectOf origin)) ∧
      ∃ cs, (q.contractWith now c supplements).entries.mapM
        ((⟨c, tier, none⟩ : ClauseContext R).typedClause c.boundary) = .ok cs) ∨
    ∃ e, q.Obstacle c e ∧ (q.contractWith now c supplements).entries.mapM
      ((⟨c, tier, none⟩ : ClauseContext R).typedClause c.boundary) = .error e := by
  set contract := q.contractWith now c supplements
  set s : ClauseContext R := ⟨c, tier, none⟩
  obtain ⟨hhas, hentries⟩ := has_entries h now hresolve
  -- Each entry is either served and gives a clause, or lacks something that is an obstacle.
  have hsettles : ∀ entry ∈ contract.entries,
      (tier = .bbox → entry.origin = .main ∨ q.target = .selectedPoint) →
        c.Settles tier entry.origin (q.subjectOf entry.origin)
          (s.typedClause c.boundary entry) := by
    intro entry hentry htarget
    rw [← (hhas entry hentry).2]
    exact ClauseContext.settles_typedClause rfl (ClauseContext.hasGeometry_of_select htier)
      (reads_of_mem_entries h hresolve hentry htarget)
  have hobstacle : ∀ entry ∈ contract.entries, ∀ e,
      c.Lacks tier entry.origin (q.subjectOf entry.origin) e → q.Obstacle c e :=
    fun entry hentry e hlacks => .lacks htier (hhas entry hentry).1 hlacks
  -- The main clause goes first: with boxes only, what the blocks need is known to be there once
  -- the target is the point.
  rcases hsettles _ List.mem_cons_self fun _ => .inl rfl with ⟨hmain, -⟩ | ⟨e, hlacks, he⟩
  · -- the target is served, and with boxes it is the point then
    have htarget : tier = .bbox → q.target = .selectedPoint := by
      rintro rfl
      cases htarget : q.target with
      | selectedPoint => rfl
      | boundary =>
        simp only [Entry.origin, subjectOf, htarget] at hmain
        cases hmain.1
    replace hsettles := fun entry hentry => hsettles entry hentry fun hbbox => .inr (htarget hbbox)
    cases hresult : contract.entries.mapM (s.typedClause c.boundary) with
    | ok cs =>
      refine .inl ⟨fun origin horigin => ?_, cs, rfl⟩
      obtain ⟨entry, hentry, rfl⟩ := hentries origin horigin
      obtain ⟨t, ht⟩ := exists_mapM_eq_ok_iff.mp ⟨cs, hresult⟩ entry hentry
      rcases hsettles entry hentry with ⟨hserves, -⟩ | ⟨e, -, he⟩
      · exact hserves
      · cases ht.symm.trans he
    | error e =>
      obtain ⟨before, entry, after, hsplit, -, herror⟩ := exists_split_of_mapM_eq_error hresult
      have hentry : entry ∈ contract.entries := by simp [hsplit]
      rcases hsettles entry hentry with ⟨-, t, ht⟩ | ⟨e', hlacks, he⟩
      · cases herror.symm.trans ht
      · obtain rfl := Except.error.inj (herror.symm.trans he)
        exact .inr ⟨e, hobstacle entry hentry e hlacks, rfl⟩
  · refine .inr ⟨e, hobstacle _ List.mem_cons_self e hlacks, ?_⟩
    change (Entry.main q.mainClause :: _).mapM _ = _
    rw [List.mapM_cons, he]
    rfl

/-- The predicate of a valid query is built if its context serves it, and fails by an obstacle if
not. -/
theorem predicate_cases (h : q.violations c = []) {tier : Tier} (htier : Tier.select c = some tier)
    {now : Instant} {supplements : List (Supplement R)}
    (hresolve : q.resolveBlocks = .ok supplements) :
    ((∀ origin, q.Has origin → c.Serves tier (q.subjectOf origin)) ∧
      ∃ p, (⟨c, tier, none⟩ : ClauseContext R).predicate (q.contractWith now c supplements) =
        .ok p) ∨
    ∃ e, q.Obstacle c e ∧
      (⟨c, tier, none⟩ : ClauseContext R).predicate (q.contractWith now c supplements) =
        .error e := by
  have hgiven : (c.boundary <|> c.boundary) = c.boundary := by cases c.boundary <;> rfl
  have hclauses : (⟨c, tier, none⟩ : ClauseContext R).clauses (q.contractWith now c supplements) =
      (q.contractWith now c supplements).entries.mapM
        ((⟨c, tier, none⟩ : ClauseContext R).typedClause c.boundary) :=
    congrArg (fun given => List.mapM (ClauseContext.typedClause _ given) _) hgiven
  rw [ClauseContext.predicate_eq_map_clauses (by simp [Contract.isCompatible, contractWith]) rfl,
    hclauses]
  rcases mapM_typedClause_cases h htier hresolve with ⟨hserves, cs, hcs⟩ | ⟨e, hobstacle, he⟩
  · exact .inl ⟨hserves, _, by rw [hcs]; rfl⟩
  · exact .inr ⟨e, hobstacle, by rw [he]; rfl⟩

end SpatialQuery

/-! ### Plans -/

namespace Plan

/-- Planning adds nothing by which it could fail to building the predicate. -/
theorem ofClauses_cases (s : ClauseContext R) (contract : Contract R) (settings : Settings)
    (idField : String) :
    ((∃ p, s.predicate contract = .ok p) ∧
      ∃ plan, ofClauses s contract settings idField = .ok plan) ∨
    ∃ e, s.predicate contract = .error e ∧ ofClauses s contract settings idField = .error e := by
  unfold ofClauses
  cases hp : s.predicate contract with
  | error e => exact .inr ⟨e, rfl, rfl⟩
  | ok p =>
    refine .inl ⟨⟨p, rfl⟩, ?_⟩
    unfold refinementOf
    cases s.context.refinementField s.tier with
    | none => exact ⟨_, rfl⟩
    | some field =>
      obtain ⟨e, he⟩ := ClauseContext.exists_exact_predicate hp field
      dsimp only
      rw [he]
      exact ⟨_, rfl⟩

end Plan

/-- What a context lacks is left to planning. -/
theorem Context.Lacks.not_isRuledOut {c : Context R} {tier : Tier} {origin : ClauseOrigin}
    {subject : Subject} {e : BuildError R} (h : c.Lacks tier origin subject e) :
    ¬e.IsRuledOut := by
  cases h <;> exact not_false

namespace SpatialQuery

variable {q : SpatialQuery R} {c : Context R}

/-- Validation leaves no other obstacles. -/
theorem Obstacle.not_isRuledOut {e : BuildError R} (h : q.Obstacle c e) : ¬e.IsRuledOut := by
  cases h with
  | noTier h => exact not_false
  | lacks htier horigin h => exact h.not_isRuledOut

private theorem Obstacle.not_isPlannable {e : BuildError R} (h : q.Obstacle c e) :
    ¬q.IsPlannable c := by
  rw [isPlannable_iff]
  rintro ⟨tier, htier, hserves⟩
  cases h with
  | noTier h => cases h.symm.trans htier
  | lacks htier' horigin h =>
    obtain rfl := Option.some.inj (htier.symm.trans htier')
    exact h.not_serves (hserves _ horigin)

/-- A valid query compiles. In a context with a column for identifiers its contract is planned if
and only if the query is plannable. Otherwise the error tells what the context lacks, and is none
of those that validation rules out. What is built in boxes is also built in its exact form. -/
theorem planned_iff_isPlannable (hvalid : q.violations c = []) {idField : String}
    (hid : c.serviceIdField = some idField) (now : Instant) (settings : Settings) :
    ∃ contract, q.compile now c = .ok contract ∧
      ((∃ plan, Plan.ofContract contract c settings = .ok plan) ↔ q.IsPlannable c) ∧
      (∀ e, Plan.ofContract contract c settings = .error e →
        ∃ cause, e = .predicate cause ∧ q.Obstacle c cause ∧ ¬cause.IsRuledOut) ∧
      ∀ s p, ClauseContext.ofContext c = .ok s → s.predicate contract = .ok p →
        ∀ field, ∃ e, (s.exactOn field).predicate contract = .ok e := by
  obtain ⟨-, supplements, hresolve, -, hcompile⟩ := exists_compile_of_violations hvalid
  refine ⟨_, hcompile now, ?_⟩
  -- A plan and what it takes, or an obstacle and its error: planning ends in one of the two.
  have hcases : ((∃ plan, Plan.ofContract (q.contractWith now c supplements) c settings =
        .ok plan) ∧ q.IsPlannable c) ∨
      ∃ e, q.Obstacle c e ∧
        Plan.ofContract (q.contractWith now c supplements) c settings = .error (.predicate e) := by
    unfold Plan.ofContract ClauseContext.ofContext
    rw [hid]
    cases htier : Tier.select c with
    | none => exact .inr ⟨.noTier, .noTier htier, rfl⟩
    | some tier =>
      dsimp only [Except.bind]
      rcases predicate_cases hvalid htier hresolve with ⟨hserves, p, hp⟩ | ⟨e, hobstacle, he⟩
      · rcases Plan.ofClauses_cases _ (q.contractWith now c supplements) settings idField with
          ⟨-, plan, hplan⟩ | ⟨e, he, -⟩
        · rw [hplan]
          exact .inl ⟨⟨plan, rfl⟩, isPlannable_iff.mpr ⟨tier, htier, hserves⟩⟩
        · cases hp.symm.trans he
      · rcases Plan.ofClauses_cases _ (q.contractWith now c supplements) settings idField with
          ⟨⟨p, hp⟩, -⟩ | ⟨e', he', herror⟩
        · cases he.symm.trans hp
        · obtain rfl := Except.error.inj (he.symm.trans he')
          rw [herror]
          exact .inr ⟨e, hobstacle, rfl⟩
  refine ⟨?_, ?_, fun s p _ hp field => ClauseContext.exists_exact_predicate hp field⟩
  · rcases hcases with ⟨hplan, hplannable⟩ | ⟨e, hobstacle, herror⟩
    · exact iff_of_true hplan hplannable
    · rw [herror]
      exact iff_of_false (by simp) hobstacle.not_isPlannable
  · intro e he
    rcases hcases with ⟨⟨plan, hplan⟩, -⟩ | ⟨cause, hobstacle, herror⟩
    · cases he.symm.trans hplan
    · exact ⟨cause, Except.error.inj (he.symm.trans herror), hobstacle, hobstacle.not_isRuledOut⟩

/-- Stops within 500 meters of the point, without those that ferries serve. -/
def ferryQuery : SpatialQuery FlatDouble where
  find := .stops
  condition := .within
  distance := (500 : Float)
  target := .selectedPoint
  blocks := [⟨some "exclude", some "mode", some "Ferry", none⟩]

/-- The point `(0, 0)`, with boxes to find stops around it, and perhaps a column for modes. -/
def ferryContext (modeField : Option String) : Context FlatDouble :=
  { Context.empty with
    serviceIdField := some "id"
    bboxReady := true
    bboxFields := some BoxColumns.default
    modeField
    point := some ⟨(0 : Float), (0 : Float)⟩ }

/-- The query is valid with and without the column, and planned with it only. -/
theorem planned_iff_isPlannable_ferry :
    (ferryQuery.violations (ferryContext (some "mode")) = [] ∧
      ∃ contract plan, ferryQuery.compile ⟨0, 0⟩ (ferryContext (some "mode")) = .ok contract ∧
        Plan.ofContract contract (ferryContext (some "mode")) Settings.default = .ok plan) ∧
    ferryQuery.violations (ferryContext none) = [] ∧
      ∃ contract, ferryQuery.compile ⟨0, 0⟩ (ferryContext none) = .ok contract ∧
        ∀ plan, Plan.ofContract contract (ferryContext none) Settings.default ≠ .ok plan := by
  have hvalid : ∀ modeField ∈ [none, some "mode"],
      ferryQuery.violations (ferryContext modeField) = [] := by
    intro modeField h
    rcases List.mem_pair.mp h with rfl | rfl
    · exact List.isEmpty_iff.mp (by decide +kernel)
    · exact List.isEmpty_iff.mp (by decide +kernel)
  have hwith := hvalid (some "mode") (by simp)
  have hwithout := hvalid none (by simp)
  refine ⟨⟨hwith, ?_⟩, hwithout, ?_⟩
  · obtain ⟨contract, hcontract, hiff, -⟩ :=
      planned_iff_isPlannable hwith rfl ⟨0, 0⟩ Settings.default
    obtain ⟨plan, hplan⟩ := hiff.mpr (by decide +kernel)
    exact ⟨contract, plan, hcontract, hplan⟩
  · obtain ⟨contract, hcontract, hiff, -⟩ :=
      planned_iff_isPlannable hwithout rfl ⟨0, 0⟩ Settings.default
    refine ⟨contract, hcontract, fun plan hplan => ?_⟩
    exact absurd (hiff.mp ⟨plan, hplan⟩) (by decide +kernel)

end SpatialQuery

end TransitQuery
