import TransitQuery.Proofs.Predicate.Boxes
import TransitQuery.Proofs.Predicate.Obstacles

/-!
# One contract on both tiers

The clauses of a contract differ between the tiers where they measure from the selected point. If on
a row the box around the point holds wherever the native leaf does, a predicate on the tier of boxes
accepts the row when the native one does (`ClauseContext.exists_predicate_onBoxes`). That needs a
contract that does not test boundaries, which boxes cannot, and that excludes no disc, since a box
excludes more.

`Context.FallsBackTo` relates two contexts that differ in their tier and agree in all that clauses
on points and attributes read. `Context.Encloses` is what is assumed of a row, for every radius: it
is a statement about the geometry of one row and the box around the selected point, proved for the
rows of features elsewhere.

The clauses are compared one by one, with `TypedClause.Covers` as for a predicate and its exact
form, and here every clause is sharp, since none that is excluded measures a distance. The two
predicates need not fail alike. The statement is about rows that the native predicate accepts; on
these, both are decided.
-/

namespace TransitQuery

variable {R : Type} [Scalar R]

/-! ### Two contexts -/

/-- The first context uses the native tier and the second one the tier of boxes, and they agree in
all else that clauses on points and attributes read. -/
structure Context.FallsBackTo (c c' : Context R) : Prop where
  native : Tier.select c = some .native
  bbox : Tier.select c' = some .bbox
  serviceIdField_eq : c'.serviceIdField = c.serviceIdField
  point_eq : c'.point = c.point
  operatorFields_eq : c'.operatorFields = c.operatorFields
  modeField_eq : c'.modeField = c.modeField

/-- On a row, the box around the selected point holds wherever the native leaf with the same radius
does. -/
def Context.Encloses (c c' : Context R) (row : Row R) : Prop :=
  ∀ p ∈ c.point, ∀ column ∈ c.geometryField, ∀ columns ∈ c'.bboxFields, ∀ relation meters,
    ∀ box ∈ p.surroundings? meters,
      (ClauseContext.nativeLeaf relation column p meters).evaluate row = .ok true →
        (Predicate.boxOverlap columns box).evaluate row = .ok true

namespace ClauseContext

variable {c c' : Context R} {given given' : Option (Boundary R)}

/-- The clauses on both tiers. On rows that boxes enclose, the one in boxes covers the native
one. -/
def Fits (c c' : Context R) (b n : TypedClause R) : Prop :=
  ∀ row : Row R, c.Encloses c' row → b.Covers row n ∧ b.IsSharp row n

/-- A leaf in degrees is decided on every row. -/
private theorem isDecided_nativeLeaf (relation : Relation) (field : String) (p : LatLng R)
    (meters : R)
    (row : Row R) : (nativeLeaf relation field p meters).IsDecided row := by
  cases relation <;> exact ⟨_, rfl⟩

/-- A clause that is the same on both tiers fits. -/
private theorem fits_of_eq {t : TypedClause R} (h : ∀ row, t.clause.IsDecided row) :
    Fits c c' t t :=
  fun row _ => ⟨⟨rfl, rfl, h row, h row, id⟩, fun _ => id⟩

/-- A point clause can be put into boxes if the box around the point exists. -/
theorem exists_pointClause_onBoxes (h : c.FallsBackTo c')
    (hboxes : ∃ columns, c'.bboxFields = some columns) {origin : ClauseOrigin}
    {relation : Relation} {meters : R} (hpolar : ∀ p ∈ c.point, p.isPolar = false)
    {n : Predicate R}
    (hn : pointClause ⟨c, .native, none⟩ origin relation meters = .ok n) :
    ∃ b, pointClause ⟨c', .bbox, none⟩ origin relation meters = .ok b ∧
      b.isTrivial = n.isTrivial ∧ ∀ row : Row R, c.Encloses c' row →
        b.IsDecided row ∧ n.IsDecided row ∧
          (n.evaluate row = .ok true → b.evaluate row = .ok true) := by
  obtain ⟨p, column, hp, hcolumn, rfl⟩ := pointClause_of_native rfl rfl hn
  obtain ⟨columns, hcolumns⟩ := hboxes
  have hp' : c'.point = some p := h.point_eq.trans hp
  obtain ⟨box, hbox⟩ : ∃ box, p.surroundings? meters = some box :=
    LatLng.exists_surroundings_iff.mpr (hpolar p hp)
  refine ⟨.boxOverlap columns box, ?_, (isTrivial_nativeLeaf ..).symm, fun row hrow =>
    ⟨⟨_, rfl⟩, isDecided_nativeLeaf .., hrow p hp column hcolumn columns hcolumns relation meters
      box hbox⟩⟩
  simp only [pointClause, hp', tierLeaf, hcolumns, hbox]

/-- An attribute clause is the same on both tiers. -/
theorem clauseWith_eq_of_attribute (h : c.FallsBackTo c') {b : Clause R} {name : Attribute}
    (hsubject : b.kind.subject = .attribute name) :
    clauseWith ⟨c', .bbox, none⟩ given' b = clauseWith ⟨c, .native, none⟩ given b := by
  cases b with
  | operator value => simp only [clauseWith, h.operatorFields_eq]
  | mode value => simp only [clauseWith, h.modeField_eq]
  | _ => cases hsubject

/-- An attribute clause is decided on every row. -/
private theorem isDecided_of_attribute {s : ClauseContext R} {b : Clause R} {name : Attribute}
    (hsubject : b.kind.subject = .attribute name) {p : Predicate R}
    (h : s.clauseWith given b = .ok p) (row : Row R) : p.IsDecided row := by
  have hkind : b.kind.isAttribute = true := by
    cases b with
    | operator value | mode value => rfl
    | _ => cases hsubject
  exact isDecided_of_isAttribute (isAttribute_of_clauseWith hkind h) row

/-- A clause on the native tier that tests no boundary has one on the tier of boxes, which covers it
unless it excludes a disc. -/
theorem exists_typedClause_onBoxes (given' : Option (Boundary R)) (h : c.FallsBackTo c')
    (hboxes : ∃ columns, c'.bboxFields = some columns) {entry : Entry R}
    (hboundary : entry.subject ≠ .boundary)
    (hexcluded : entry.type = .excluded → entry.subject ≠ .point)
    (hpolar : ∀ p ∈ c.point, p.isPolar = false) {n : TypedClause R}
    (hn : typedClause ⟨c, .native, none⟩ given entry = .ok n) :
    ∃ b, typedClause ⟨c', .bbox, none⟩ given' entry = .ok b ∧ Fits c c' b n := by
  cases entry with
  | main m =>
    obtain ⟨p, hp, hn⟩ := bind_eq_ok_iff.mp hn
    obtain rfl := Except.ok.inj hn
    obtain ⟨target, meters, relation⟩ := m
    cases target with
    | boundary => exact absurd rfl hboundary
    | selectedPoint =>
      obtain ⟨b, hb, htrivial, hrow⟩ := exists_pointClause_onBoxes h hboxes hpolar hp
      refine ⟨⟨.included, b⟩, bind_eq_ok_iff.mpr ⟨b, hb, rfl⟩, fun row hencloses => ?_⟩
      obtain ⟨hdecided, hdecided', hcovers⟩ := hrow row hencloses
      exact ⟨⟨rfl, htrivial, hdecided, hdecided', hcovers⟩, fun htype => by cases htype⟩
  | supplement s =>
    obtain ⟨p, hp, hn⟩ := bind_eq_ok_iff.mp hn
    obtain rfl := Except.ok.inj hn
    obtain ⟨type, clause⟩ := s
    match hsubject : clause.kind.subject with
    | .boundary => exact absurd hsubject hboundary
    -- an attribute clause is its own form in boxes
    | .attribute name =>
      refine ⟨⟨type, p⟩, bind_eq_ok_iff.mpr ⟨p, ?_, rfl⟩,
        fits_of_eq (isDecided_of_attribute hsubject hp)⟩
      rw [clauseWith_eq_of_attribute h hsubject]
      exact hp
    | .point =>
      cases clause with
      | nearPoint meters =>
        obtain ⟨b, hb, htrivial, hrow⟩ := exists_pointClause_onBoxes h hboxes hpolar hp
        refine ⟨⟨type, b⟩, bind_eq_ok_iff.mpr ⟨b, hb, rfl⟩, fun row hencloses => ?_⟩
        obtain ⟨hdecided, hdecided', hcovers⟩ := hrow row hencloses
        exact ⟨⟨rfl, htrivial, hdecided, hdecided', hcovers⟩,
          fun htype => absurd hsubject (hexcluded htype)⟩
      | _ => cases hsubject

/-- The clauses of a contract that tests no boundary, on both tiers. -/
private theorem exists_clauses_onBoxes (given' : Option (Boundary R)) (h : c.FallsBackTo c')
    (hboxes : ∃ columns, c'.bboxFields = some columns) {entries : List (Entry R)}
    (hboundary : ∀ entry ∈ entries, entry.subject ≠ .boundary)
    (hexcluded : ∀ entry ∈ entries, entry.type = .excluded → entry.subject ≠ .point)
    (hpolar : ∀ p ∈ c.point, p.isPolar = false) {ns : List (TypedClause R)}
    (hns : entries.mapM (typedClause ⟨c, .native, none⟩ given) = .ok ns) :
    ∃ bs, entries.mapM (typedClause ⟨c', .bbox, none⟩ given') = .ok bs ∧
      List.Forall₂ (Fits c c') bs ns := by
  induction entries generalizing ns with
  | nil =>
    obtain rfl := mapM_nil_eq_ok_iff.mp hns
    exact ⟨[], mapM_nil_eq_ok_iff.mpr rfl, .nil⟩
  | cons entry rest ih =>
    obtain ⟨n, ns', hn, hns', rfl⟩ := mapM_cons_eq_ok_iff.mp hns
    obtain ⟨hboundary, hboundaries⟩ := List.forall_mem_cons.mp hboundary
    obtain ⟨hexcluded, hexcludeds⟩ := List.forall_mem_cons.mp hexcluded
    obtain ⟨b, hb, hfits⟩ :=
      exists_typedClause_onBoxes given' h hboxes hboundary hexcluded hpolar hn
    obtain ⟨bs, hbs, hall⟩ := ih hboundaries hexcludeds hns'
    exact ⟨b :: bs, mapM_cons_eq_ok_iff.mpr ⟨b, bs, hb, hbs, rfl⟩, .cons hfits hall⟩

/-- A predicate on the native tier has one on the tier of boxes, which accepts at least as many of
the rows that boxes enclose. -/
theorem exists_predicate_onBoxes (h : c.FallsBackTo c')
    (hboxes : ∃ columns, c'.bboxFields = some columns) {contract contract' : Contract R}
    (hentries : contract'.entries = contract.entries)
    (hcompatible : contract'.isCompatible = true)
    (hboundary : ∀ entry ∈ contract.entries, entry.subject ≠ .boundary)
    (hexcluded : ∀ entry ∈ contract.entries, entry.type = .excluded → entry.subject ≠ .point)
    (hpolar : ∀ p ∈ c.point, p.isPolar = false) {p : Predicate R}
    (hp : predicate ⟨c, .native, none⟩ contract = .ok p) :
    ∃ p', predicate ⟨c', .bbox, none⟩ contract' = .ok p' ∧
      ∀ row : Row R, c.Encloses c' row →
        p.IsDecided row ∧ p'.IsDecided row ∧ (p.accepts row = true → p'.accepts row = true) := by
  obtain ⟨m, supplements, nmain, nrest, hmain, -, -, -, hns, hnjoin⟩ :=
    exists_clauses_of_predicate hp
  obtain ⟨bs, hbs, hfits⟩ := exists_clauses_onBoxes
    (boundaryOf ⟨c', .bbox, none⟩ contract') h hboxes hboundary hexcluded hpolar hns
  have hclauses : clauses ⟨c', .bbox, none⟩ contract' = .ok bs := by
    rw [clauses, hentries]
    exact hbs
  have hpredicate : predicate ⟨c', .bbox, none⟩ contract' =
      .ok ((joinAll none bs).getD .always) := by
    rw [predicate_eq_map_clauses hcompatible (hentries.trans hmain), hclauses]
    rfl
  obtain ⟨_, _, bmain, brest, -, -, -, -, hbs', hbjoin⟩ := exists_clauses_of_predicate hpredicate
  obtain rfl := Except.ok.inj (hclauses.symm.trans hbs')
  refine ⟨_, hpredicate, fun row hrow => ?_⟩
  -- clause by clause, the form in boxes covers the native one on this row
  have hall := hfits.imp fun b n hbn => hbn row hrow
  obtain ⟨hbdecided, hndecided⟩ := TypedClause.decided_of_covers (hall.imp fun _ _ h => h.1)
  obtain ⟨hbmain, hbrest⟩ := List.forall_mem_cons.mp hbdecided
  obtain ⟨hnmain, hnrest⟩ := List.forall_mem_cons.mp hndecided
  obtain ⟨hdecided', hiff'⟩ := joinAll_decided hbmain hbrest hbjoin
  obtain ⟨hdecided, hiff⟩ := joinAll_decided hnmain hnrest hnjoin
  rw [← passesClauses_cons_iff, ← Predicate.accepts_eq_true_iff] at hiff' hiff
  exact ⟨hdecided, hdecided', fun haccepts =>
    hiff'.mpr (passesClauses_of_covers hall (hiff.mp haccepts))⟩

end ClauseContext

end TransitQuery
