import TransitQuery.Proofs.Predicate.Clauses

/-!
# What stands in the way of a clause

Every clause is about a subject: the selected point, the boundary or an attribute. Whether a context
can answer it on a tier depends on the subject alone, once the values that the clause reads are
known to be there. `Context.Serves` says when it can, and `Context.Lacks` which error tells what is
missing when it cannot (`ClauseContext.settles_typedClause`).

A predicate is built if and only if all its clauses are, and fails as the first of them that does
(`ClauseContext.predicate_eq_map_clauses`). The exact form of a predicate asks for less than the
predicate itself (`ClauseContext.exists_exact_predicate`).

The values that a clause reads are known to be there once the query is valid
(`ClauseContext.Reads`): the selected point of the context, which boxes cannot surround at a pole,
the boundary, which has to have a text, and the text of an attribute, which must not be blank, as
the clause would say nothing then.

`Context.Settles` puts the two outcomes into one statement, so that a sequence of clauses can
be followed up to the first one that fails. The errors of later clauses are never seen. The exact
form tests discs in meters on a column of its own, and leaves all other clauses as they are, hence
it cannot meet an obstacle that the predicate itself has not met.
-/

namespace TransitQuery

variable {R : Type}

/-! ### Subjects -/

/-- What a clause is about. -/
inductive Subject where
  | point
  | boundary
  | attribute (name : Attribute)
  deriving DecidableEq

/-- What the target of a query is. -/
def Target.subject : Target → Subject
  | selectedPoint => .point
  | boundary => .boundary

/-- What an operator tests. -/
def BlockOperator.subject : BlockOperator → Subject
  | nearPoint => .point
  | touchesBoundary | insideBoundary => .boundary
  | operator => .attribute .operator
  | mode => .attribute .mode

namespace Entry

/-- What the clause of an entry is about. -/
def subject : Entry R → Subject
  | main m => m.target.subject
  | supplement b => b.clause.kind.subject

/-- Where the clause of an entry comes from. -/
def origin : Entry R → ClauseOrigin
  | main _ => .main
  | supplement b => .block b.clause.kind

end Entry

/-- The text that a clause compares an attribute with. -/
def Clause.text? : Clause R → Option String
  | operator value | mode value => some value
  | _ => none

/-! ### What a context can answer -/

namespace Context

variable [Scalar R]

/-- A context can answer clauses about a subject on a tier. -/
def Serves (c : Context R) (tier : Tier) : Subject → Prop
  | .point => tier = .native ∨ c.bboxFields.isSome = true
  | .boundary => tier = .native ∧ ∃ shape wkt, c.boundary = some shape ∧ shape.toWkt = .ok wkt
  | .attribute .operator => c.operatorFields ≠ []
  | .attribute .mode => c.modeField.isSome = true

/-- What a context lacks for a clause about a subject, as the error that tells it. -/
inductive Lacks (c : Context R) (tier : Tier) (origin : ClauseOrigin) :
    Subject → BuildError R → Prop
  | boxColumns (htier : tier = .bbox) (h : c.bboxFields = none) :
    Lacks c tier origin .point .missingBoxColumns
  | nativeTier (htier : tier = .bbox) :
    Lacks c tier origin .boundary (.boundaryNeedsNative origin)
  | boundary (htier : tier = .native) (h : c.boundary = none) :
    Lacks c tier origin .boundary (.missingBoundary origin)
  | boundaryText (htier : tier = .native) {shape : Boundary R} {cause : BoundaryError R}
    (h : c.boundary = some shape) (hwkt : shape.toWkt = .error cause) :
    Lacks c tier origin .boundary (.badBoundary cause)
  | operatorColumns (h : c.operatorFields = []) :
    Lacks c tier origin (.attribute .operator) (.missingColumn .operator)
  | modeColumn (h : c.modeField = none) :
    Lacks c tier origin (.attribute .mode) (.missingColumn .mode)

/-- What is lacking is not served. -/
theorem Lacks.not_serves {c : Context R} {tier : Tier} {origin : ClauseOrigin} {subject : Subject}
    {e : BuildError R} (h : c.Lacks tier origin subject e) : ¬c.Serves tier subject := by
  cases h with
  | boxColumns htier h => simp [Serves, htier, h]
  | nativeTier htier => simp [Serves, htier]
  | boundary htier h => simp [Serves, h]
  | boundaryText htier h hwkt => simp [Serves, h, hwkt]
  | operatorColumns h => simp [Serves, h]
  | modeColumn h => simp [Serves, h]

/-- A clause about a subject is built if the context serves it, and fails by what the context
lacks if not. -/
def Settles {α : Type} (c : Context R) (tier : Tier) (origin : ClauseOrigin) (subject : Subject)
    (x : Except (BuildError R) α) : Prop :=
  (c.Serves tier subject ∧ ∃ a, x = .ok a) ∨ ∃ e, c.Lacks tier origin subject e ∧ x = .error e

end Context

variable [Scalar R]

namespace ClauseContext

variable {s : ClauseContext R} {given : Option (Boundary R)}

/-- The native tier has its geometry column. -/
def HasGeometry (s : ClauseContext R) : Prop :=
  s.tier = .native → s.context.geometryField.isSome = true

/-- The values that the clause of an entry reads are there: the selected point, which has box
columns to be measured in where boxes are used, and a text that is not blank. -/
structure Reads (s : ClauseContext R) (entry : Entry R) : Prop where
  point : entry.subject = .point →
    ∃ p, s.context.point = some p ∧ (s.tier = .bbox → p.isPolar = false)
  text : ∀ b value, entry = .supplement b → b.clause.text? = some value →
    Text.isBlankString value = false

/-! ### Clauses one by one -/

/-- A point clause needs the columns of its tier. -/
private theorem settles_pointClause (hexact : s.exactField = none) (hgeometry : s.HasGeometry)
    (hpoint : ∃ p, s.context.point = some p ∧ (s.tier = .bbox → p.isPolar = false))
    (origin : ClauseOrigin) (relation : Relation) (distance : R) :
    s.context.Settles s.tier origin .point (s.pointClause origin relation distance) := by
  obtain ⟨p, hp, hpolar⟩ := hpoint
  simp only [pointClause, hp, hexact, tierLeaf]
  cases htier : s.tier with
  | native =>
    obtain ⟨field, hfield⟩ := Option.isSome_iff_exists.mp (hgeometry htier)
    refine .inl ⟨.inl rfl, nativeLeaf relation field p distance, ?_⟩
    simp only [geometryField, hfield]
    rfl
  | bbox =>
    cases hcolumns : s.context.bboxFields with
    | none => exact .inr ⟨_, .boxColumns rfl hcolumns, rfl⟩
    | some columns =>
      -- away from the poles there is a box around the point
      have hbox : ∃ box, p.surroundings? distance = some box := by
        simp [LatLng.surroundings?, hpolar htier]
      obtain ⟨box, hbox⟩ := hbox
      refine .inl ⟨.inr (by rw [hcolumns]; rfl), .boxOverlap columns box, ?_⟩
      simp only [hbox]

/-- A boundary clause needs the native tier and a boundary with a text. -/
private theorem settles_boundaryClause (hgeometry : s.HasGeometry) (origin : ClauseOrigin)
    (relation : SpatialRelation) (buffer : R) :
    s.context.Settles s.tier origin .boundary
      (s.boundaryClause origin relation buffer s.context.boundary) := by
  unfold boundaryClause
  cases htier : s.tier with
  | bbox => exact .inr ⟨_, .nativeTier rfl, rfl⟩
  | native =>
    rw [if_neg (by simp)]
    cases hshape : s.context.boundary with
    | none => exact .inr ⟨_, .boundary rfl hshape, rfl⟩
    | some shape =>
      obtain ⟨field, hfield⟩ := Option.isSome_iff_exists.mp (hgeometry htier)
      simp only [geometryField, hfield, ok_bind]
      cases hwkt : shape.toWkt with
      | error cause => exact .inr ⟨_, .boundaryText rfl hshape hwkt, rfl⟩
      | ok wkt => exact .inl ⟨⟨rfl, shape, wkt, hshape, hwkt⟩, _, rfl⟩

/-- An attribute clause with a text that is not blank needs its columns. -/
theorem settles_attributeClause {value : String} (hvalue : Text.isBlankString value = false)
    {subject : Subject} {origin : ClauseOrigin} {make : Except (BuildError R) (Predicate R)}
    (hmake : s.context.Settles s.tier origin subject make) :
    s.context.Settles s.tier origin subject (attributeClause value make) := by
  rw [attributeClause, if_neg (by simp [hvalue])]
  exact hmake

/-- The same for the clause of an entry. -/
theorem settles_typedClause (hexact : s.exactField = none) (hgeometry : s.HasGeometry)
    {entry : Entry R} (hreads : s.Reads entry) :
    s.context.Settles s.tier entry.origin entry.subject
      (s.typedClause s.context.boundary entry) := by
  -- the type of a clause is not what it fails by
  have htyped : ∀ {origin : ClauseOrigin} {subject : Subject}
      {x : Except (BuildError R) (Predicate R)} (type : BlockType),
      s.context.Settles s.tier origin subject x →
        s.context.Settles s.tier origin subject
          (x >>= fun clause => (pure ⟨type, clause⟩ : Except _ (TypedClause R))) := by
    rintro origin subject x type (⟨hserves, p, rfl⟩ | ⟨e, hlacks, rfl⟩)
    · exact .inl ⟨hserves, _, rfl⟩
    · exact .inr ⟨e, hlacks, rfl⟩
  cases entry with
  | main m =>
    refine htyped .included ?_
    obtain ⟨target, distance, relation⟩ := m
    cases target with
    | selectedPoint =>
      exact settles_pointClause hexact hgeometry (hreads.point rfl) .main relation distance
    | boundary => cases relation <;> exact settles_boundaryClause hgeometry .main _ _
  | supplement b =>
    refine htyped b.type ?_
    obtain ⟨type, clause⟩ := b
    cases clause with
    | nearPoint distance =>
      exact settles_pointClause hexact hgeometry (hreads.point rfl) _ .within distance
    | touchesBoundary => exact settles_boundaryClause hgeometry _ _ _
    | insideBoundary => exact settles_boundaryClause hgeometry _ _ _
    | operator value =>
      refine settles_attributeClause (hreads.text _ value rfl rfl) ?_
      cases hfields : s.context.operatorFields with
      | nil => exact .inr ⟨_, .operatorColumns hfields, rfl⟩
      | cons field rest =>
        have hserves : s.context.operatorFields ≠ [] := by simp [hfields]
        exact .inl ⟨hserves, _, rfl⟩
    | mode value =>
      refine settles_attributeClause (hreads.text _ value rfl rfl) ?_
      cases hfield : s.context.modeField with
      | none => exact .inr ⟨_, .modeColumn hfield, rfl⟩
      | some field =>
        have hserves : s.context.modeField.isSome = true := by simp [hfield]
        exact .inl ⟨hserves, _, rfl⟩

/-! ### Whole predicates -/

/-- Entries are joined when their clauses are there, and fail as the first of these does. -/
theorem joinEntries_eq_map (n : Nat) (e : Option (Predicate R)) (bs : List (Supplement R)) :
    s.joinEntries given n e (bs.map .supplement) =
      ((bs.map Entry.supplement).mapM (s.typedClause given)).map (joinAll e) := by
  induction bs generalizing n e with
  | nil => rfl
  | cons b bs ih =>
    rw [List.map_cons, joinEntries, List.mapM_cons, typedClause]
    cases s.clauseWith given b.clause with
    | error e => rfl
    | ok clause =>
      simp only [ok_bind, pure_eq_ok]
      rw [ih]
      cases (bs.map Entry.supplement).mapM (s.typedClause given) <;> rfl

/-- The predicate of a well-formed contract comes from joining its clauses. -/
theorem predicate_eq_map_clauses {contract : Contract R} {m : MainClause R}
    {bs : List (Supplement R)} (hcompatible : contract.isCompatible = true)
    (hentries : contract.entries = .main m :: bs.map .supplement) :
    s.predicate contract =
      (s.clauses contract).map fun cs => (joinAll none cs).getD .always := by
  rw [predicate, if_pos hcompatible, clauses, hentries, entries, List.mapM_cons, typedClause,
    boundaryOf]
  cases s.mainWith (s.context.boundary <|> contract.boundary) m with
  | error e => rfl
  | ok main =>
    simp only [ok_bind, pure_eq_ok, joinEntries_eq_map]
    cases (bs.map Entry.supplement).mapM
      (s.typedClause (s.context.boundary <|> contract.boundary)) <;> rfl

/-- A clause that is built is built in its exact form, too. -/
theorem exists_exact_typedClause (field : String) {entry : Entry R} {t : TypedClause R}
    (h : s.typedClause given entry = .ok t) :
    ∃ t', (s.exactOn field).typedClause given entry = .ok t' := by
  obtain ⟨p, rfl, hclause⟩ := isClauseOf_of_typedClause h
  cases hclause with
  | leaf hradius hpoint | meters hradius hpoint =>
    exact ⟨_, typedClause_exactOn_of_radius given field hradius hpoint⟩
  | boundary hradius | comparison hradius =>
    exact ⟨_, (typedClause_exactOn s given field hradius).trans h⟩

/-- Only contracts that can be read have a predicate. -/
theorem isCompatible_of_predicate {contract : Contract R} {p : Predicate R}
    (h : s.predicate contract = .ok p) : contract.isCompatible = true := by
  by_contra hne
  rw [predicate, if_neg hne] at h
  cases h

/-- Where a predicate is built, its exact form is. -/
theorem exists_exact_predicate {contract : Contract R} {p : Predicate R}
    (h : s.predicate contract = .ok p) (field : String) :
    ∃ e, (s.exactOn field).predicate contract = .ok e := by
  obtain ⟨m, bs, main, cs, hentries, -, -, -, hcs, -⟩ := exists_clauses_of_predicate h
  have hexact : ∃ ts, (s.exactOn field).clauses contract = .ok ts := by
    refine exists_mapM_eq_ok_iff.mpr fun entry hentry => ?_
    obtain ⟨t, ht⟩ := exists_mapM_eq_ok_iff.mp ⟨_, hcs⟩ entry hentry
    exact exists_exact_typedClause field ht
  obtain ⟨ts, hts⟩ := hexact
  exact ⟨_, by rw [predicate_eq_map_clauses (isCompatible_of_predicate h) hentries, hts]; rfl⟩

end ClauseContext

end TransitQuery
