import TransitQuery.Proofs.Predicate.Grouping
import Mathlib.Data.List.Forall2

/-!
# Boxes in place of discs

On the tier of boxes a point clause has two forms, the overlap of boxes that the engine tests and
the distance in meters that a refinement tests. The box is meant to cover the disc. Whoever joins
such clauses by `and` and `or` covers the exact form of the query, too. An excluded clause turns
this around: a row in the box but not in the disc is dropped by the engine and accepted by the
exact form. If that does not happen, the form in boxes accepts all that the exact form does
(`passesClauses_of_covers`).

Both relations are conditions on a row and a radius, and decidable. `Context.BoxCovers` is needed
for every radius and `Context.BoxIsSharp` for the excluded ones only.

* `ClauseContext.twoForms_of_typedClause`: what the two forms of a clause can be. They are one and
  the same unless the clause has a radius.
* `TypedClause.Covers`, `TypedClause.IsSharp`: what the relations mean for two clauses that are
  joined by one type.
* `TypedClause.Covers.letsPass`: a clause that lets a row pass in its exact form does so in boxes.
* `ClauseContext.box_and_exact`: the statement for the predicates of a contract.

The proof never compares two predicates. It compares lists of clauses, by the description of what
passes them that does not mention how they are joined.
-/

namespace TransitQuery

variable {R : Type}

/-- There is a box around a point unless it is too close to a pole. -/
theorem LatLng.exists_surroundings_iff [Scalar R] {p : LatLng R} {meters : R} :
    (∃ box, p.surroundings? meters = some box) ↔ p.isPolar = false := by
  rw [surroundings?]
  cases p.isPolar <;> simp

/-! ### Radii of point clauses -/

namespace Contract

/-- The radii of all point clauses. -/
def radii (contract : Contract R) : List R :=
  contract.entries.filterMap Entry.radius?

/-- The radii of the point clauses that are excluded. -/
def excludedRadii (contract : Contract R) : List R :=
  (contract.entries.filter fun e => e.type = .excluded).filterMap Entry.radius?

end Contract

/-- The tier of boxes is selected only where boxes are ready. -/
theorem Tier.bboxReady_of_select {c : Context R} (h : Tier.select c = some .bbox) :
    c.bboxReady = true := by
  unfold Tier.select at h
  split at h
  · cases h
  split at h
  · assumption
  · cases h

variable [Scalar R]

namespace Context

/-- The box around the selected point covers the disc with a radius, as far as a row can tell: if
the geometry of the row meets the disc, the box of the row overlaps the box. -/
def BoxCovers (c : Context R) (field : String) (row : Row R) (radius : R) : Prop :=
  ∀ point ∈ c.point, ∀ columns ∈ c.bboxFields, ∀ box ∈ point.surroundings? radius,
    (Predicate.withinMeters field point radius).accepts row = true →
      (Predicate.boxOverlap columns box).accepts row = true

/-- The box does not reach a row without the disc. -/
def BoxIsSharp (c : Context R) (field : String) (row : Row R) (radius : R) : Prop :=
  ∀ point ∈ c.point, ∀ columns ∈ c.bboxFields, ∀ box ∈ point.surroundings? radius,
    (Predicate.boxOverlap columns box).accepts row = true →
      (Predicate.withinMeters field point radius).accepts row = true

instance (c : Context R) (field : String) (row : Row R) (radius : R) :
    Decidable (c.BoxCovers field row radius) :=
  inferInstanceAs (Decidable (∀ point ∈ c.point, ∀ columns ∈ c.bboxFields,
    ∀ box ∈ point.surroundings? radius, _ → _))

instance (c : Context R) (field : String) (row : Row R) (radius : R) :
    Decidable (c.BoxIsSharp field row radius) :=
  inferInstanceAs (Decidable (∀ point ∈ c.point, ∀ columns ∈ c.bboxFields,
    ∀ box ∈ point.surroundings? radius, _ → _))

end Context

/-! ### The two forms of a clause -/

/-- The clause of an entry in boxes, and its exact form on a column. -/
inductive TwoForms (c : Context R) (field : String) (entry : Entry R) :
    TypedClause R → TypedClause R → Prop
  /-- A clause that tests no distance has only one form. -/
  | same {p : Predicate R} (h : entry.radius? = none) (decided : ∀ row, p.IsDecided row) :
    TwoForms c field entry ⟨entry.type, p⟩ ⟨entry.type, p⟩
  /-- A point clause is an overlap of boxes, or a distance. -/
  | disc {radius : R} {point : LatLng R} {columns : BoxColumns} {box : Box R}
    (h : entry.radius? = some radius) (hpoint : c.point = some point)
    (hcolumns : c.bboxFields = some columns) (hbox : point.surroundings? radius = some box) :
    TwoForms c field entry ⟨entry.type, .boxOverlap columns box⟩
      ⟨entry.type, .withinMeters field point radius⟩

namespace ClauseContext

section

variable {s : ClauseContext R} {origin : ClauseOrigin} {relation : Relation} {radius : R}
  {p : Predicate R}

/-- On the native tier, a point clause is a distance in degrees. -/
theorem pointClause_of_native (htier : s.tier = .native) (hexact : s.exactField = none)
    (h : s.pointClause origin relation radius = .ok p) :
    ∃ point field, s.context.point = some point ∧ s.context.geometryField = some field ∧
      p = nativeLeaf relation field point radius := by
  obtain ⟨point, hpoint, ⟨-, hleaf⟩ | ⟨field, hfield, -⟩⟩ := pointClause_eq_ok h
  · obtain ⟨-, field, hfield, rfl⟩ | ⟨hbbox, -⟩ := tierLeaf_eq_ok hleaf
    · exact ⟨point, field, hpoint, hfield, rfl⟩
    · rw [htier] at hbbox
      cases hbbox
  · rw [hexact] at hfield
    cases hfield

/-- On the tier of boxes, it is an overlap. -/
theorem pointClause_of_bbox (htier : s.tier = .bbox) (hexact : s.exactField = none)
    (h : s.pointClause origin relation radius = .ok p) :
    ∃ point columns box, s.context.point = some point ∧ s.context.bboxFields = some columns ∧
      point.surroundings? radius = some box ∧ p = .boxOverlap columns box := by
  obtain ⟨point, hpoint, ⟨-, hleaf⟩ | ⟨field, hfield, -⟩⟩ := pointClause_eq_ok h
  · obtain ⟨hnative, -⟩ | ⟨-, columns, box, hcolumns, hbox, rfl⟩ := tierLeaf_eq_ok hleaf
    · rw [htier] at hnative
      cases hnative
    · exact ⟨point, columns, box, hpoint, hcolumns, hbox, rfl⟩
  · rw [hexact] at hfield
    cases hfield

/-- In its exact form, it is a distance in meters. -/
theorem pointClause_exactOn {field : String}
    (h : (s.exactOn field).pointClause origin relation radius = .ok p) :
    ∃ point, s.context.point = some point ∧ p = .withinMeters field point radius := by
  obtain ⟨point, hpoint, ⟨hnone, -⟩ | ⟨field', hfield, rfl⟩⟩ := pointClause_eq_ok h
  · cases hnone
  · cases hfield
    exact ⟨point, hpoint, rfl⟩

end

/-- An attribute clause is decided on all rows. -/
theorem isDecided_of_isAttribute {p : Predicate R} (h : p.IsAttribute) (row : Row R) :
    p.IsDecided row := by
  match p, h with
  | _, .always => exact ⟨true, rfl⟩
  | _, .equals field value => exact ⟨_, rfl⟩
  | _, .anyOf fields value =>
    unfold Predicate.IsDecided
    rw [Predicate.evaluate]
    induction fields with
    | nil => exact ⟨false, rfl⟩
    | cons field rest ih =>
      obtain ⟨b, hb⟩ := ih
      by_cases h : row.id? field = some value
      · exact ⟨true, by simp [Predicate.evaluateAny, Predicate.evaluate, h]⟩
      · exact ⟨b, by simp [Predicate.evaluateAny, Predicate.evaluate, h, hb]⟩

/-- On the tier of boxes so is every other clause, since none is about a boundary. -/
theorem isDecided_of_typedClause {s : ClauseContext R} (htier : s.tier = .bbox)
    {given : Option (Boundary R)} {entry : Entry R} {b : TypedClause R}
    (h : s.typedClause given entry = .ok b) (row : Row R) : b.clause.IsDecided row := by
  obtain ⟨p, rfl, hclause⟩ := isClauseOf_of_typedClause h
  cases hclause with
  | leaf _ _ _ hleaf =>
    obtain ⟨hnative, -⟩ | ⟨-, columns, box, -, -, rfl⟩ := tierLeaf_eq_ok hleaf
    · cases htier.symm.trans hnative
    · exact ⟨_, rfl⟩
  | meters => exact ⟨_, rfl⟩
  | boundary _ hnative _ => cases htier.symm.trans hnative
  | comparison _ hattribute => exact isDecided_of_isAttribute hattribute row

/-- The two forms of the clause of an entry. -/
theorem twoForms_of_typedClause {s : ClauseContext R} (htier : s.tier = .bbox)
    (hexact : s.exactField = none) {field : String} {given : Option (Boundary R)}
    {entry : Entry R} {b e : TypedClause R} (hb : s.typedClause given entry = .ok b)
    (he : (s.exactOn field).typedClause given entry = .ok e) :
    TwoForms s.context field entry b e := by
  obtain ⟨p, rfl, hclause⟩ := isClauseOf_of_typedClause hb
  cases hclause with
  | leaf hradius hpoint _ hleaf =>
    rw [typedClause_exactOn_of_radius given field hradius hpoint] at he
    obtain rfl := Except.ok.inj he
    obtain ⟨hnative, -⟩ | ⟨-, columns, box, hcolumns, hbox, rfl⟩ := tierLeaf_eq_ok hleaf
    · cases htier.symm.trans hnative
    · exact .disc hradius hpoint hcolumns hbox
  | meters _ _ hfield => cases hexact.symm.trans hfield
  | boundary _ hnative _ => cases htier.symm.trans hnative
  | comparison hradius hattribute =>
    rw [typedClause_exactOn s given field hradius, hb] at he
    obtain rfl := Except.ok.inj he
    exact .same hradius (isDecided_of_isAttribute hattribute)

/-- The clauses of a contract in boxes and in their exact form, side by side. -/
theorem forall₂_twoForms {s : ClauseContext R} (htier : s.tier = .bbox)
    (hexact : s.exactField = none) {field : String} {given : Option (Boundary R)}
    {entries : List (Entry R)} {bs es : List (TypedClause R)}
    (hbs : entries.mapM (s.typedClause given) = .ok bs)
    (hes : entries.mapM ((s.exactOn field).typedClause given) = .ok es) :
    List.Forall₂ (fun b e => ∃ entry ∈ entries, TwoForms s.context field entry b e) bs es := by
  have hsame : List.Forall₂ (fun a a' => a = a' ∧ a ∈ entries) entries entries :=
    List.forall₂_same.mpr fun entry hentry => ⟨rfl, hentry⟩
  refine forall₂_mapM hsame hbs hes ?_
  rintro entry _ b e ⟨rfl, hentry⟩ hb he
  exact ⟨entry, hentry, twoForms_of_typedClause htier hexact hb he⟩

end ClauseContext

/-! ### Covering -/

/-- On a row, the first of two clauses covers the second. -/
structure TypedClause.Covers (row : Row R) (b e : TypedClause R) : Prop where
  type_eq : b.type = e.type
  isTrivial_eq : b.clause.isTrivial = e.clause.isTrivial
  decided : b.clause.IsDecided row
  decided_exact : e.clause.IsDecided row
  of_exact : e.clause.evaluate row = .ok true → b.clause.evaluate row = .ok true

/-- Where the first of two clauses is excluded, it does not hold without the second. -/
def TypedClause.IsSharp (row : Row R) (b e : TypedClause R) : Prop :=
  b.type = .excluded → b.clause.evaluate row = .ok true → e.clause.evaluate row = .ok true

namespace TwoForms

variable {c : Context R} {field : String} {entry : Entry R} {b e : TypedClause R} {row : Row R}

/-- The box covers the disc, and anything else covers itself. -/
theorem covers (h : TwoForms c field entry b e)
    (hcovers : ∀ radius ∈ entry.radius?, c.BoxCovers field row radius) : b.Covers row e := by
  cases h with
  | same h decided => exact ⟨rfl, rfl, decided row, decided row, id⟩
  | disc h hpoint hcolumns hbox =>
    refine ⟨rfl, rfl, ⟨_, rfl⟩, ⟨_, rfl⟩, fun he => ?_⟩
    exact Predicate.accepts_eq_true_iff.mp
      (hcovers _ h _ hpoint _ hcolumns _ hbox (Predicate.accepts_eq_true_iff.mpr he))

/-- An excluded box is sharp, and anything else is. -/
private theorem isSharp (h : TwoForms c field entry b e)
    (hsharp : entry.type = .excluded → ∀ radius ∈ entry.radius?, c.BoxIsSharp field row radius) :
    b.IsSharp row e := by
  cases h with
  | same h decided => exact fun _ => id
  | disc h hpoint hcolumns hbox =>
    intro htype hb
    exact Predicate.accepts_eq_true_iff.mp
      (hsharp htype _ h _ hpoint _ hcolumns _ hbox (Predicate.accepts_eq_true_iff.mpr hb))

end TwoForms

namespace TypedClause

variable {row : Row R} {b e : TypedClause R} {bs es : List (TypedClause R)}

/-- Clauses that count in the exact form count in boxes. -/
private theorem Covers.isStart (h : b.Covers row e) (he : e.IsStart) : b.IsStart :=
  ⟨h.type_eq.trans he.1, h.isTrivial_eq.trans he.2⟩

/-- What does not stop a row in its exact form does not stop it in boxes, if it is sharp. -/
theorem Covers.letsPass (h : b.Covers row e) (hsharp : b.IsSharp row e) (he : e.LetsPass row) :
    b.LetsPass row := by
  intro htrivial
  obtain ⟨hincluded, hexcluded⟩ := he (h.isTrivial_eq ▸ htrivial)
  refine ⟨fun htype => h.of_exact (hincluded (h.type_eq ▸ htype)), fun htype => ?_⟩
  -- an excluded clause that covers more stops more: this is where sharpness is needed
  obtain ⟨x, hx⟩ := h.decided
  cases x with
  | false => exact hx
  | true =>
    have htrue := hsharp htype hx
    rw [hexcluded (h.type_eq ▸ htype)] at htrue
    cases htrue

/-- Clauses of which one covers the other are decided. -/
theorem decided_of_covers (h : List.Forall₂ (Covers row) bs es) :
    (∀ b ∈ bs, b.clause.IsDecided row) ∧ ∀ e ∈ es, e.clause.IsDecided row := by
  induction h with
  | nil => simp
  | cons h _ ih =>
    exact ⟨List.forall_mem_cons.mpr ⟨h.decided, ih.1⟩,
      List.forall_mem_cons.mpr ⟨h.decided_exact, ih.2⟩⟩

private theorem forall_letsPass_of_covers
    (h : List.Forall₂ (fun b e => b.Covers row e ∧ b.IsSharp row e) bs es)
    (hes : ∀ e ∈ es, e.LetsPass row) : ∀ b ∈ bs, b.LetsPass row := by
  induction h with
  | nil => simp
  | cons h _ ih =>
    obtain ⟨he, hes⟩ := List.forall_mem_cons.mp hes
    exact List.forall_mem_cons.mpr ⟨h.1.letsPass h.2 he, ih hes⟩

end TypedClause

section

variable {row : Row R} {bs es : List (TypedClause R)}

/-- A row that starts at a clause in its exact form starts there in boxes. -/
private theorem startsAmong_of_covers
    (h : List.Forall₂ (fun b e => b.Covers row e ∧ b.IsSharp row e) bs es)
    (hes : StartsAmong row es) : StartsAmong row bs := by
  induction h with
  | nil => exact hes
  | cons h hrest ih =>
    rw [startsAmong_cons_iff] at hes ⊢
    obtain ⟨hstart, htrue, hlater⟩ | hes := hes
    · exact .inl ⟨h.1.isStart hstart, h.1.of_exact htrue,
        TypedClause.forall_letsPass_of_covers hrest hlater⟩
    · exact .inr (ih hes)

/-- A row that passes clauses in their exact form passes them in boxes, if no excluded box reaches
it without its disc. -/
theorem passesClauses_of_covers
    (h : List.Forall₂ (fun b e => b.Covers row e ∧ b.IsSharp row e) bs es)
    (hes : PassesClauses row es) : PassesClauses row bs := by
  cases h with
  | nil => exact hes
  | cons h hrest =>
    rw [passesClauses_cons_iff] at hes ⊢
    obtain ⟨htrue, hlater⟩ | hes := hes
    · exact .inl ⟨h.1.of_exact htrue, TypedClause.forall_letsPass_of_covers hrest hlater⟩
    · exact .inr (startsAmong_of_covers hrest hes)

end

/-! ### Contracts -/

namespace ClauseContext

variable {s : ClauseContext R} {field : String} {contract : Contract R} {p e : Predicate R}

/-- On the tier of boxes a predicate and its exact form are decided on all rows. The predicate
accepts the rows that pass its clauses, and if boxes cover their discs and excluded ones are
sharp, it accepts all that its exact form does. -/
theorem box_and_exact (htier : s.tier = .bbox) (hexact : s.exactField = none)
    (hp : s.predicate contract = .ok p) (he : (s.exactOn field).predicate contract = .ok e)
    {bs : List (TypedClause R)} (hbs : s.clauses contract = .ok bs) (row : Row R)
    (hcovers : ∀ radius ∈ contract.radii, s.context.BoxCovers field row radius) :
    p.IsDecided row ∧ (p.accepts row = true ↔ PassesClauses row bs) ∧
      ((∀ radius ∈ contract.excludedRadii, s.context.BoxIsSharp field row radius) →
        e.accepts row = true → p.accepts row = true) := by
  obtain ⟨_, _, bmain, brest, -, -, -, -, hbs', hpjoin⟩ := exists_clauses_of_predicate hp
  obtain ⟨_, _, emain, erest, -, -, -, -, hes, hejoin⟩ := exists_clauses_of_predicate he
  obtain rfl := Except.ok.inj (hbs.symm.trans hbs')
  -- the two lists of clauses come from the same entries
  have hforms := forall₂_twoForms htier hexact hbs hes
  have hmem : ∀ entry ∈ contract.entries, ∀ radius ∈ entry.radius?, radius ∈ contract.radii :=
    fun entry hentry radius hradius => List.mem_filterMap.mpr ⟨entry, hentry, hradius⟩
  obtain ⟨hdecided, hdecided'⟩ := TypedClause.decided_of_covers (hforms.imp
    fun b e ⟨entry, hentry, h⟩ => h.covers fun radius hr => hcovers _ (hmem entry hentry radius hr))
  obtain ⟨hbmain, hbrest⟩ := List.forall_mem_cons.mp hdecided
  obtain ⟨hemain, herest⟩ := List.forall_mem_cons.mp hdecided'
  obtain ⟨hpdecided, hpiff⟩ := joinAll_decided hbmain hbrest hpjoin
  obtain ⟨-, heiff⟩ := joinAll_decided hemain herest hejoin
  rw [← passesClauses_cons_iff, ← Predicate.accepts_eq_true_iff] at hpiff heiff
  refine ⟨hpdecided, hpiff, fun hsharp haccepts => ?_⟩
  -- a row that passes the exact clauses passes those in boxes
  refine hpiff.mpr (passesClauses_of_covers (hforms.imp fun b e ⟨entry, hentry, h⟩ => ?_)
    (heiff.mp haccepts))
  refine ⟨h.covers fun radius hr => hcovers _ (hmem entry hentry radius hr),
    h.isSharp fun htype radius hr => hsharp radius ?_⟩
  exact List.mem_filterMap.mpr ⟨entry, List.mem_filter.mpr ⟨hentry, by simp [htype]⟩, hr⟩

end ClauseContext

end TransitQuery
