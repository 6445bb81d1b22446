import TransitQuery.Proofs.Predicate.InMeters
import TransitQuery.Proofs.Query.Compile
import TransitQuery.Proofs.Scalar.Ordered

/-!
# Wider discs

A leaf about a disc still holds on a row if the disc gets wider. That goes for distances in degrees
and in meters, and for boxes, whose four sides move outward with the radius. Joining by `and` and
`or` keeps it, as long as what is excluded stays as it is (`joinAll_widens`), and so does a whole
contract (`ClauseContext.predicate_widens`).

A row that a predicate accepts can be undecided for the wider one. Evaluation stops at the first
leaf that settles the matter, and a wider disc lets it go on to a boundary that cannot be tested in
memory. So of the wider predicate it is only said that it does not reject such a row.

* `RadiusLE`: what is asked of two radii, besides the order. Scalars round, and a radius that is
  divided, added and subtracted has to keep its order at each step; doubles do, apart from what is
  no number.
* `Predicate.Widens`: the relation of two predicates on a row.
* `TypedClause.Widens`, `Entry.Widens`: the same for clauses and for the entries of a contract, of
  which an excluded one has to stay as it is.

All four sides of a box move outward, and a row that overlaps the box overlaps a wider one,
provided that the coordinates of the point are finite; with an infinite one, the sides would be no
numbers.
-/

namespace TransitQuery

variable {R : Type} [Scalar R]

/-! ### Radii -/

/-- Two radii, of which the second is no smaller. -/
structure RadiusLE (x y : R) : Prop where
  left : isRadius x = true
  right : isRadius y = true
  le : x ≤ y

namespace RadiusLE

variable [OrderedScalar R] {x y c a v : R}

/-- A greater radius reaches farther, in whatever unit. -/
theorem div_le (h : RadiusLE x y) (hc : ¬c < Scalar.zero) (hself : x / c ≤ x / c) :
    x / c ≤ y / c := by
  obtain ⟨hfinite, hnonneg⟩ := Bool.and_eq_true_iff.mp h.left
  exact OrderedScalar.div_le_div_right hfinite (by simpa using hnonneg)
    (isFinite_of_isRadius h.right) h.le hc hself

/-- What lies on the near side of the upper end still does. -/
theorem le_add_div (h : RadiusLE x y) (hc : ¬c < Scalar.zero) (ha : Scalar.isFinite a = true)
    (hv : v ≤ a + x / c) : v ≤ a + y / c := by
  have hself := OrderedScalar.le_self_of_add (OrderedScalar.le_self_right hv)
  exact OrderedScalar.le_trans hv (OrderedScalar.add_le_add_left ha (h.div_le hc hself))

/-- The same at the lower end. -/
theorem sub_div_le (h : RadiusLE x y) (hc : ¬c < Scalar.zero) (ha : Scalar.isFinite a = true)
    (hv : a - x / c ≤ v) : a - y / c ≤ v := by
  have hself := OrderedScalar.le_self_of_sub (OrderedScalar.le_self_left hv)
  exact OrderedScalar.le_trans (OrderedScalar.sub_le_sub_left ha (h.div_le hc hself)) hv

end RadiusLE

/-! ### Predicates -/

/-- The second of two predicates holds on a row if the first one does and the second is decided. -/
def Predicate.Widens (row : Row R) (p q : Predicate R) : Prop :=
  p.evaluate row = .ok true → q.IsDecided row → q.evaluate row = .ok true

namespace Predicate

variable {row : Row R} {p p' q q' : Predicate R}

theorem Widens.refl (row : Row R) (p : Predicate R) : p.Widens row p := fun h _ => h

/-- Of two decided predicates one widens the other if it holds where that does. -/
private theorem widens_of_imp {b b' : Bool} (hp : p.evaluate row = .ok b)
    (hq : q.evaluate row = .ok b')
    (h : b = true → b' = true) : p.Widens row q := by
  intro htrue _
  rw [hp] at htrue
  rw [hq, h (Except.ok.inj htrue)]

/-- A conjunction is wider if its parts are. -/
theorem Widens.and (h : p.Widens row p') (h' : q.Widens row q') :
    (Predicate.and p q).Widens row (.and p' q') := by
  rintro htrue ⟨v, hv⟩
  rw [evaluate_and_eq_ok_iff] at htrue hv ⊢
  obtain ⟨hp, hq⟩ : p.evaluate row = .ok true ∧ q.evaluate row = .ok true := by simpa using htrue
  obtain ⟨hp', hq'⟩ | ⟨hp', -⟩ := hv
  · exact .inl ⟨hp', h' hq ⟨v, hq'⟩⟩
  · -- the left side does not turn false
    rw [h hp ⟨false, hp'⟩] at hp'
    cases hp'

theorem Widens.or (h : p.Widens row p') (h' : q.Widens row q') :
    (Predicate.or p q).Widens row (.or p' q') := by
  rintro htrue ⟨v, hv⟩
  rw [evaluate_or_eq_ok_iff] at htrue hv ⊢
  obtain ⟨hp', hq'⟩ | ⟨hp', -⟩ := hv
  · obtain ⟨-, hq⟩ | ⟨hp, -⟩ := htrue
    · exact .inl ⟨hp', h' hq ⟨v, hq'⟩⟩
    · rw [h hp ⟨false, hp'⟩] at hp'
      cases hp'
  · exact .inr ⟨hp', rfl⟩

end Predicate

/-! ### Clauses -/

namespace TypedClause

/-- The second clause is the first one, or a wider one that is not excluded. -/
inductive Widens (row : Row R) : TypedClause R → TypedClause R → Prop
  | same (c : TypedClause R) : Widens row c c
  | wider {type : BlockType} {p q : Predicate R} (htype : type ≠ .excluded)
    (hp : p.isTrivial = false) (hq : q.isTrivial = false) (h : p.Widens row q) :
    Widens row ⟨type, p⟩ ⟨type, q⟩

variable {row : Row R} {c c' : TypedClause R} {e e' : Predicate R}

/-- A wider clause is trivial if the clause is. -/
theorem Widens.isTrivial_eq (h : c.Widens row c') : c.clause.isTrivial = c'.clause.isTrivial := by
  cases h with
  | same => rfl
  | wider _ hp hq _ => exact hp.trans hq.symm

/-- Joining a wider clause to a wider expression makes a wider expression. -/
theorem Widens.append (hc : c.Widens row c') (he : e.Widens row e') :
    (append e c).Widens row (append e' c') := by
  cases hc with
  | same =>
    unfold TypedClause.append
    cases c.type with
    | included => exact he.and (.refl row _)
    | excluded => exact he.and (.refl row _)
    | alsoIncluded => exact he.or (.refl row _)
  | @wider type _ _ htype _ _ h =>
    cases type with
    | included => exact he.and h
    | excluded => exact absurd rfl htype
    | alsoIncluded => exact he.or h

end TypedClause

/-- Joining wider clauses makes a wider predicate. -/
theorem joinAll_widens {row : Row R} {cs cs' : List (TypedClause R)} {e e' p p' : Predicate R}
    (hcs : List.Forall₂ (TypedClause.Widens row) cs cs') (he : e.Widens row e')
    (hp : joinAll (some e) cs = some p) (hp' : joinAll (some e') cs' = some p') :
    p.Widens row p' := by
  -- the expression grows with every clause, so both have to be arbitrary
  induction hcs generalizing e e' with
  | nil => rwa [← Option.some.inj hp, ← Option.some.inj hp']
  | @cons c c' _ _ hc _ ih =>
    rw [joinAll_cons] at hp hp'
    cases htrivial : c.clause.isTrivial with
    | true =>
      rw [join_of_isTrivial htrivial] at hp
      rw [join_of_isTrivial (hc.isTrivial_eq ▸ htrivial)] at hp'
      exact ih he hp hp'
    | false =>
      rw [TypedClause.join_eq_append htrivial] at hp
      rw [TypedClause.join_eq_append (hc.isTrivial_eq ▸ htrivial)] at hp'
      exact ih (hc.append he) hp hp'

/-- The second entry is the first one, or it asks for a wider disc around the selected point and is
not excluded. -/
inductive Entry.Widens : Entry R → Entry R → Prop
  | same (entry : Entry R) : Widens entry entry
  | main {x y : R} (h : RadiusLE x y) (relation : Relation) :
    Widens (.main ⟨.selectedPoint, x, relation⟩) (.main ⟨.selectedPoint, y, relation⟩)
  | supplement {x y : R} (h : RadiusLE x y) {type : BlockType} (htype : type ≠ .excluded) :
    Widens (.supplement ⟨type, .nearPoint x⟩) (.supplement ⟨type, .nearPoint y⟩)

/-! ### Leaves -/

section

variable [OrderedScalar R] {x y : R}

/-- A degree has no negative number of meters. -/
private theorem not_metersPerDegree_lt : ¬(metersPerDegree : R) < Scalar.zero :=
  OrderedScalar.not_ofInt_lt (by decide) (by decide)

namespace Geometry

variable {g : Geometry R} {point : LatLng R}

/-- What is near is near within a greater radius. -/
private theorem isNear_of_radiusLE (h : RadiusLE x y)
    (hnear : g.isNear point (degreesOfMeters x) = true) :
    g.isNear point (degreesOfMeters y) = true := by
  obtain ⟨distance, hdistance, hle⟩ := (Option.any_eq_true _ _).mp hnear
  have hle : distance ≤ x / metersPerDegree := of_decide_eq_true hle
  refine (Option.any_eq_true _ _).mpr ⟨distance, hdistance, decide_eq_true ?_⟩
  exact OrderedScalar.le_trans hle
    (h.div_le not_metersPerDegree_lt (OrderedScalar.le_self_right hle))

/-- What is within a distance is within a greater one. -/
private theorem isWithin_of_le (h : x ≤ y) (hwithin : g.isWithin point x = true) :
    g.isWithin point y = true := by
  have hany : ∀ {meters? : Option R}, meters?.any (· ≤ x) = true → meters?.any (· ≤ y) = true := by
    intro meters? hany
    obtain ⟨meters, hmeters, hle⟩ := (Option.any_eq_true _ _).mp hany
    exact (Option.any_eq_true _ _).mpr
      ⟨meters, hmeters, decide_eq_true (OrderedScalar.le_trans (of_decide_eq_true hle) h)⟩
  cases g with
  | point p => exact decide_eq_true (OrderedScalar.le_trans (of_decide_eq_true hwithin) h)
  | lineString line => exact hany hwithin
  | multiLineString lines =>
    obtain ⟨line, hline, hwithin⟩ := List.any_eq_true.mp hwithin
    exact List.any_eq_true.mpr ⟨line, hline, hany hwithin⟩
  | _ => cases hwithin

end Geometry

/-- A box that overlaps the one around a finite point overlaps the wider one. -/
theorem Row.boxOverlaps_of_radiusLE (h : RadiusLE x y) {point : LatLng R}
    (hpoint : point.isFinite = true) {box box' : Box R} (hbox : point.surroundings? x = some box)
    (hbox' : point.surroundings? y = some box') {row : Row R} {columns : BoxColumns}
    (hoverlaps : row.boxOverlaps columns box = true) : row.boxOverlaps columns box' = true := by
  obtain ⟨hlat, hlng⟩ := Bool.and_eq_true_iff.mp hpoint
  have hacross : ¬(metersPerDegree : R) * point.shrink < Scalar.zero :=
    OrderedScalar.not_mul_lt not_metersPerDegree_lt (Scalar.not_magnitude_lt _)
  unfold LatLng.surroundings? at hbox hbox'
  split at hbox
  · cases hbox
  rename_i hpolar
  rw [if_neg hpolar] at hbox'
  obtain rfl := Option.some.inj hbox
  obtain rfl := Option.some.inj hbox'
  unfold boxOverlaps at hoverlaps ⊢
  split at hoverlaps
  · -- each of the four comparisons is with a side that moves outward
    simp only [Bool.and_eq_true, decide_eq_true_eq] at hoverlaps ⊢
    obtain ⟨⟨⟨heast, hwest⟩, hnorth⟩, hsouth⟩ := hoverlaps
    exact ⟨⟨⟨h.le_add_div hacross hlng heast, h.sub_div_le hacross hlng hwest⟩,
      h.le_add_div not_metersPerDegree_lt hlat hnorth⟩,
      h.sub_div_le not_metersPerDegree_lt hlat hsouth⟩
  · cases hoverlaps

end

/-! ### Contracts -/

namespace ClauseContext

variable [OrderedScalar R] {s : ClauseContext R} {x y : R}

/-- A leaf in degrees widens with its radius. -/
private theorem nativeLeaf_widens (h : RadiusLE x y) (relation : Relation) (field : String)
    (point : LatLng R) (row : Row R) :
    (nativeLeaf relation field point x).Widens row (nativeLeaf relation field point y) := by
  have hnear : (row.geometry? field).any (·.isNear point (degreesOfMeters x)) = true →
      (row.geometry? field).any (·.isNear point (degreesOfMeters y)) = true := by
    intro hnear
    obtain ⟨g, hg, hnear⟩ := (Option.any_eq_true _ _).mp hnear
    exact (Option.any_eq_true _ _).mpr ⟨g, hg, Geometry.isNear_of_radiusLE h hnear⟩
  cases relation <;> exact Predicate.widens_of_imp rfl rfl hnear

private theorem tierLeaf_widens (h : RadiusLE x y) {relation : Relation} {point : LatLng R}
    (hpoint : point.isFinite = true) {p q : Predicate R} (hp : s.tierLeaf relation point x = .ok p)
    (hq : s.tierLeaf relation point y = .ok q) (row : Row R) : p.Widens row q := by
  obtain ⟨htier, field, hfield, rfl⟩ | ⟨htier, columns, box, hcolumns, hbox, rfl⟩ :=
    tierLeaf_eq_ok hp
  · obtain ⟨-, field', hfield', rfl⟩ | ⟨htier', -⟩ := tierLeaf_eq_ok hq
    · obtain rfl := Option.some.inj (hfield.symm.trans hfield')
      exact nativeLeaf_widens h relation field point row
    · cases htier.symm.trans htier'
  · obtain ⟨htier', -⟩ | ⟨-, columns', box', hcolumns', hbox', rfl⟩ := tierLeaf_eq_ok hq
    · cases htier.symm.trans htier'
    · obtain rfl := Option.some.inj (hcolumns.symm.trans hcolumns')
      exact Predicate.widens_of_imp rfl rfl (Row.boxOverlaps_of_radiusLE h hpoint hbox hbox')

private theorem withinMeters_widens (h : x ≤ y) (field : String) (point : LatLng R) (row : Row R) :
    (Predicate.withinMeters field point x).Widens row (.withinMeters field point y) := by
  refine Predicate.widens_of_imp rfl rfl fun hwithin => ?_
  obtain ⟨g, hg, hwithin⟩ := (Option.any_eq_true _ _).mp hwithin
  exact (Option.any_eq_true _ _).mpr ⟨g, hg, Geometry.isWithin_of_le h hwithin⟩

/-- On every tier, and in the exact form, a clause about a wider disc is wider. -/
theorem pointClause_widens (h : RadiusLE x y)
    (hfinite : ∀ point ∈ s.context.point, point.isFinite = true) {origin : ClauseOrigin}
    {relation : Relation} {p q : Predicate R} (hp : s.pointClause origin relation x = .ok p)
    (hq : s.pointClause origin relation y = .ok q) (row : Row R) : p.Widens row q := by
  obtain ⟨point, hpoint, ⟨hnone, hp⟩ | ⟨field, hfield, rfl⟩⟩ := pointClause_eq_ok hp <;>
    obtain ⟨point', hpoint', ⟨hnone', hq⟩ | ⟨field', hfield', rfl⟩⟩ := pointClause_eq_ok hq <;>
    obtain rfl := Option.some.inj (hpoint.symm.trans hpoint')
  · exact tierLeaf_widens h (hfinite point hpoint) hp hq row
  · cases hnone.symm.trans hfield'
  · cases hnone'.symm.trans hfield
  · obtain rfl := Option.some.inj (hfield.symm.trans hfield')
    exact withinMeters_widens h.le field point row

/-- The clause of a wider entry is wider. -/
private theorem typedClause_widens (hfinite : ∀ point ∈ s.context.point, point.isFinite = true)
    {given : Option (Boundary R)} {entry entry' : Entry R} (h : entry.Widens entry')
    {c c' : TypedClause R} (hc : s.typedClause given entry = .ok c)
    (hc' : s.typedClause given entry' = .ok c') (row : Row R) : c.Widens row c' := by
  cases h with
  | same =>
    obtain rfl := Except.ok.inj (hc.symm.trans hc')
    exact .same c
  | main h relation =>
    obtain ⟨p, hp, hc⟩ := bind_eq_ok_iff.mp hc
    obtain ⟨q, hq, hc'⟩ := bind_eq_ok_iff.mp hc'
    obtain rfl := Except.ok.inj hc
    obtain rfl := Except.ok.inj hc'
    exact .wider (by simp) (isTrivial_of_pointClause hp) (isTrivial_of_pointClause hq)
      (pointClause_widens h hfinite hp hq row)
  | supplement h htype =>
    obtain ⟨p, hp, hc⟩ := bind_eq_ok_iff.mp hc
    obtain ⟨q, hq, hc'⟩ := bind_eq_ok_iff.mp hc'
    obtain rfl := Except.ok.inj hc
    obtain rfl := Except.ok.inj hc'
    exact .wider htype (isTrivial_of_pointClause hp) (isTrivial_of_pointClause hq)
      (pointClause_widens h hfinite hp hq row)

/-- The predicate of a contract is no narrower if its entries are no narrower. -/
theorem predicate_widens (hfinite : ∀ point ∈ s.context.point, point.isFinite = true)
    {contract contract' : Contract R}
    (hentries : List.Forall₂ Entry.Widens contract.entries contract'.entries)
    (hboundary : s.boundaryOf contract' = s.boundaryOf contract) {p p' : Predicate R}
    (hp : s.predicate contract = .ok p) (hp' : s.predicate contract' = .ok p') (row : Row R) :
    p.Widens row p' := by
  obtain ⟨_, _, main, cs, -, -, -, -, hcs, hjoin⟩ := exists_clauses_of_predicate hp
  obtain ⟨_, _, main', cs', -, -, -, -, hcs', hjoin'⟩ := exists_clauses_of_predicate hp'
  rw [clauses] at hcs hcs'
  rw [hboundary] at hcs'
  have hwidens := forall₂_mapM hentries hcs hcs'
    fun h hc hc' => typedClause_widens hfinite h hc hc' row
  cases hwidens with
  | cons hmain hrest =>
    -- the main clause is an expression by itself
    have hmain : main.Widens row main' := by
      cases hmain with
      | same => exact .refl row main
      | wider _ _ _ h => exact h
    exact joinAll_widens hrest hmain hjoin hjoin'

end ClauseContext

end TransitQuery
