import TransitQuery.Predicate.OfContract
import TransitQuery.Proofs.Computation

/-!
# The clauses behind a predicate

`ClauseContext.predicate` works through the entries of a contract and joins each clause to the
expression before it. `ClauseContext.clauses` only lists the clauses, each as a predicate with the
type by which it is joined; the main clause comes first and counts as included. Where a predicate
is built, the clauses are there, the main clause is not trivial, and the predicate is what joining
the others to it yields (`ClauseContext.exists_clauses_of_predicate`).

`ClauseContext.IsClauseOf` lists what the clause of an entry can be: a test of the disc around the
selected point, in one of two forms, a test of a boundary, or a comparison of an attribute. What
later modules say about single clauses is a case analysis on it. The exact form of a clause differs
from the clause only where the entry has a radius (`typedClause_exactOn_of_radius`).

Trivial clauses, which accept every row, are left out where clauses are joined
(`joinAll_filter_not_isTrivial`), so they may stand anywhere among the others. A main clause is
never trivial, hence an expression is there from the beginning, and once it is there it stays
(`exists_joinAll_some`).
-/

namespace TransitQuery

/-- A clause as a predicate, with the type by which it is joined. -/
structure TypedClause (R : Type) where
  type : BlockType
  clause : Predicate R

variable {R : Type}

/-- Joins clauses to the expression before them, from left to right. -/
def joinAll (expression : Option (Predicate R)) (cs : List (TypedClause R)) :
    Option (Predicate R) :=
  cs.foldl (fun e c => c.type.join e c.clause) expression

@[simp]
theorem joinAll_nil (e : Option (Predicate R)) : joinAll e [] = e := rfl

@[simp]
theorem joinAll_cons (e : Option (Predicate R)) (c : TypedClause R) (cs : List (TypedClause R)) :
    joinAll e (c :: cs) = joinAll (c.type.join e c.clause) cs := rfl

/-- A trivial clause is left out, whatever its type. -/
@[simp]
theorem join_of_isTrivial {type : BlockType} {e : Option (Predicate R)} {c : Predicate R}
    (h : c.isTrivial = true) : type.join e c = e := by
  simp [BlockType.join, h]

/-- The first clause stands by itself when it is included. -/
theorem join_none_included {c : Predicate R} (h : c.isTrivial = false) :
    BlockType.included.join none c = some c := by
  simp [BlockType.join, h]

/-- Joins a clause to an expression and leaves out none. -/
def TypedClause.append (e : Predicate R) (c : TypedClause R) : Predicate R :=
  match c.type with
  | .included => .and e c.clause
  | .excluded => .and e (.not c.clause)
  | .alsoIncluded => .or e c.clause

theorem TypedClause.join_eq_append {c : TypedClause R} (h : c.clause.isTrivial = false)
    (e : Predicate R) : c.type.join (some e) c.clause = some (append e c) := by
  unfold BlockType.join append
  rw [h, if_neg Bool.false_ne_true]
  cases c.type <;> rfl

/-- Joining never loses an expression. -/
theorem exists_joinAll_some (e : Predicate R) (cs : List (TypedClause R)) :
    ∃ q, joinAll (some e) cs = some q := by
  induction cs generalizing e with
  | nil => exact ⟨e, rfl⟩
  | cons c cs ih =>
    by_cases h : c.clause.isTrivial = true
    · rw [joinAll_cons, join_of_isTrivial h]
      exact ih e
    · simp only [joinAll_cons, BlockType.join, h]
      exact ih _

/-- Trivial clauses can be left out. -/
theorem joinAll_filter_not_isTrivial (e : Option (Predicate R)) (cs : List (TypedClause R)) :
    joinAll e (cs.filter fun c => !c.clause.isTrivial) = joinAll e cs := by
  induction cs generalizing e with
  | nil => rfl
  | cons c cs ih =>
    by_cases h : c.clause.isTrivial = true
    · rw [List.filter_cons_of_neg (by simp [h]), joinAll_cons, join_of_isTrivial h]
      exact ih e
    · rw [List.filter_cons_of_pos (by simp [h]), joinAll_cons, joinAll_cons]
      exact ih _

/-- Clauses may be joined in two portions. -/
theorem joinAll_append (e : Option (Predicate R)) (bs cs : List (TypedClause R)) :
    joinAll e (bs ++ cs) = joinAll (joinAll e bs) cs :=
  List.foldl_append

namespace Entry

/-- The type by which an entry is joined. -/
def type : Entry R → BlockType
  | main _ => .included
  | supplement b => b.type

/-- The radius of an entry that tests the distance to the selected point. -/
def radius? : Entry R → Option R
  | main ⟨.selectedPoint, distance, _⟩ => some distance
  | supplement ⟨_, .nearPoint distance⟩ => some distance
  | _ => none

end Entry

/-- What attribute clauses can say: nothing, that a column has a value, or that one of several
does. -/
inductive Predicate.IsAttribute : Predicate R → Prop
  | always : IsAttribute .always
  | equals (field value : String) : IsAttribute (.equals field value)
  | anyOf (fields : List String) (value : String) :
    IsAttribute (.anyOf (fields.map (Predicate.equals · value)))

namespace ClauseContext

/-- The clauses of a context use its tier, and no exact form. -/
theorem of_ofContext {c : Context R} {s : ClauseContext R} (h : ofContext c = .ok s) :
    s.context = c ∧ s.exactField = none ∧ Tier.select c = some s.tier := by
  unfold ofContext at h
  split at h
  · cases h
  · rename_i tier htier
    cases h
    exact ⟨rfl, rfl, htier⟩

/-- The geometry column is the one of the context. -/
private theorem geometryField_eq_ok {s : ClauseContext R} {field : String}
    (h : s.geometryField = .ok field) : s.context.geometryField = some field := by
  unfold geometryField at h
  split at h
  · rename_i field' hfield
    rwa [← Except.ok.inj h]
  · cases h

/-- The clauses of a context keep it. -/
theorem context_of_ofContext {c : Context R} {s : ClauseContext R} (h : ofContext c = .ok s) :
    s.context = c :=
  (of_ofContext h).1

variable [Scalar R]

/-- The boundary that clauses are tested against: the one of the context, or else the one of the
contract. -/
def boundaryOf (s : ClauseContext R) (contract : Contract R) : Option (Boundary R) :=
  s.context.boundary <|> contract.boundary

/-- The clause of an entry. -/
def typedClause (s : ClauseContext R) (given : Option (Boundary R)) :
    Entry R → Except (BuildError R) (TypedClause R)
  | .main m => do return ⟨.included, ← s.mainWith given m⟩
  | .supplement b => do return ⟨b.type, ← s.clauseWith given b.clause⟩

/-- The clauses of a contract, main clause first. -/
def clauses (s : ClauseContext R) (contract : Contract R) :
    Except (BuildError R) (List (TypedClause R)) :=
  contract.entries.mapM (s.typedClause (s.boundaryOf contract))

/-! ### What clauses can be -/

/-- A leaf about a point is in degrees on the native tier, and otherwise a box. -/
theorem tierLeaf_eq_ok {s : ClauseContext R} {relation : Relation} {point : LatLng R} {meters : R}
    {p : Predicate R} (h : s.tierLeaf relation point meters = .ok p) :
    (s.tier = .native ∧ ∃ field, s.context.geometryField = some field ∧
        p = nativeLeaf relation field point meters) ∨
      (s.tier = .bbox ∧ ∃ columns box, s.context.bboxFields = some columns ∧
        point.surroundings? meters = some box ∧ p = .boxOverlap columns box) := by
  unfold tierLeaf at h
  split at h
  · rename_i htier
    obtain ⟨field, hfield, h⟩ := bind_eq_ok_iff.mp h
    exact .inl ⟨htier, field, geometryField_eq_ok hfield, (Except.ok.inj h).symm⟩
  · rename_i htier
    split at h
    · cases h
    rename_i columns hcolumns
    split at h
    · cases h
    rename_i box hbox
    exact .inr ⟨htier, columns, box, hcolumns, hbox, (Except.ok.inj h).symm⟩

/-- A point clause is the leaf of the tier, or in its exact form a distance in meters. -/
theorem pointClause_eq_ok {s : ClauseContext R} {origin : ClauseOrigin} {relation : Relation}
    {meters : R} {p : Predicate R} (h : s.pointClause origin relation meters = .ok p) :
    ∃ point, s.context.point = some point ∧
      ((s.exactField = none ∧ s.tierLeaf relation point meters = .ok p) ∨
        ∃ field, s.exactField = some field ∧ p = .withinMeters field point meters) := by
  unfold pointClause at h
  split at h
  · cases h
  rename_i point hpoint
  refine ⟨point, hpoint, ?_⟩
  split at h
  · rename_i field hfield
    exact .inr ⟨field, hfield, (Except.ok.inj h).symm⟩
  · rename_i hexact
    exact .inl ⟨hexact, h⟩

/-- A boundary clause takes the native tier. -/
theorem boundaryClause_eq_ok {s : ClauseContext R} {origin : ClauseOrigin}
    {relation : SpatialRelation} {buffer : R} {given : Option (Boundary R)} {p : Predicate R}
    (h : s.boundaryClause origin relation buffer given = .ok p) :
    s.tier = .native ∧ ∃ field wkt, s.context.geometryField = some field ∧
      p = .boundary relation field wkt (degreesOfMeters buffer) := by
  unfold boundaryClause at h
  split at h
  · cases h
  rename_i htier
  split at h
  · cases h
  obtain ⟨field, hfield, h⟩ := bind_eq_ok_iff.mp h
  split at h
  · cases h
  rename_i wkt _
  exact ⟨not_not.mp htier, field, wkt, geometryField_eq_ok hfield, (Except.ok.inj h).symm⟩

/-- An attribute clause compares columns with a value, or accepts every row. -/
theorem isAttribute_of_clauseWith {s : ClauseContext R} {given : Option (Boundary R)}
    {c : Clause R} (hkind : c.kind.isAttribute = true) {p : Predicate R}
    (h : s.clauseWith given c = .ok p) : p.IsAttribute := by
  match c, hkind, h with
  | .operator value, _, h =>
    unfold clauseWith attributeClause at h
    dsimp only at h
    split at h
    · cases h
      exact .always
    split at h
    · cases h
    · cases h
      exact .anyOf _ value
  | .mode value, _, h =>
    unfold clauseWith attributeClause at h
    dsimp only at h
    split at h
    · cases h
      exact .always
    split at h
    · cases h
    · cases h
      exact .equals _ value

/-- What the clause of an entry can be. -/
inductive IsClauseOf (s : ClauseContext R) : Entry R → Predicate R → Prop
  /-- The disc around the selected point is tested by the leaf of the tier. -/
  | leaf {entry : Entry R} {relation : Relation} {point : LatLng R} {radius : R}
    {p : Predicate R} (hradius : entry.radius? = some radius)
    (hpoint : s.context.point = some point) (hexact : s.exactField = none)
    (hleaf : s.tierLeaf relation point radius = .ok p) : IsClauseOf s entry p
  /-- In the exact form it is tested in meters. -/
  | meters {entry : Entry R} {field : String} {point : LatLng R} {radius : R}
    (hradius : entry.radius? = some radius) (hpoint : s.context.point = some point)
    (hexact : s.exactField = some field) :
    IsClauseOf s entry (.withinMeters field point radius)
  /-- Only a main clause widens a boundary, and only by its own distance. -/
  | boundary {entry : Entry R} {relation : SpatialRelation} {field wkt : String} {buffer : R}
    (hradius : entry.radius? = none) (htier : s.tier = .native)
    (hbuffer : buffer = Scalar.zero ∨ ∃ r, entry = .main ⟨.boundary, buffer, r⟩) :
    IsClauseOf s entry (.boundary relation field wkt (degreesOfMeters buffer))
  /-- Main clauses are about no attribute. -/
  | comparison {b : Supplement R} {p : Predicate R}
    (hradius : (Entry.supplement b).radius? = none) (h : p.IsAttribute) :
    IsClauseOf s (.supplement b) p

/-- A point clause is one of the first two things. -/
private theorem isClauseOf_of_pointClause {s : ClauseContext R} {entry : Entry R}
    {origin : ClauseOrigin}
    {relation : Relation} {radius : R} {p : Predicate R} (hradius : entry.radius? = some radius)
    (h : s.pointClause origin relation radius = .ok p) : s.IsClauseOf entry p := by
  obtain ⟨point, hpoint, ⟨hexact, hleaf⟩ | ⟨field, hexact, rfl⟩⟩ := pointClause_eq_ok h
  · exact .leaf hradius hpoint hexact hleaf
  · exact .meters hradius hpoint hexact

/-- A boundary clause has a buffer only in the main clause. -/
private theorem isClauseOf_of_boundaryClause {s : ClauseContext R} {entry : Entry R}
    {origin : ClauseOrigin} {relation : SpatialRelation} {buffer : R}
    {given : Option (Boundary R)} {p : Predicate R} (hradius : entry.radius? = none)
    (hbuffer : buffer = Scalar.zero ∨ ∃ r, entry = .main ⟨.boundary, buffer, r⟩)
    (h : s.boundaryClause origin relation buffer given = .ok p) : s.IsClauseOf entry p := by
  obtain ⟨htier, field, wkt, -, rfl⟩ := boundaryClause_eq_ok h
  exact .boundary hradius htier hbuffer

/-- The main clause is a test of a disc or of a boundary. -/
theorem isClauseOf_of_mainWith {s : ClauseContext R} {given : Option (Boundary R)}
    {m : MainClause R} {p : Predicate R} (h : s.mainWith given m = .ok p) :
    s.IsClauseOf (.main m) p := by
  match m, h with
  | ⟨.selectedPoint, _, _⟩, h => exact isClauseOf_of_pointClause rfl h
  | ⟨.boundary, _, .within⟩, h => exact isClauseOf_of_boundaryClause rfl (.inl rfl) h
  | ⟨.boundary, _, .intersects⟩, h => exact isClauseOf_of_boundaryClause rfl (.inr ⟨_, rfl⟩) h

/-- The clause of a block can be any of the four. -/
private theorem isClauseOf_of_clauseWith {s : ClauseContext R} {given : Option (Boundary R)}
    {b : Supplement R} {p : Predicate R} (h : s.clauseWith given b.clause = .ok p) :
    s.IsClauseOf (.supplement b) p := by
  match b, h with
  | ⟨_, .nearPoint _⟩, h => exact isClauseOf_of_pointClause rfl h
  | ⟨_, .touchesBoundary⟩, h => exact isClauseOf_of_boundaryClause rfl (.inl rfl) h
  | ⟨_, .insideBoundary⟩, h => exact isClauseOf_of_boundaryClause rfl (.inl rfl) h
  | ⟨_, .operator _⟩, h | ⟨_, .mode _⟩, h => exact .comparison rfl (isAttribute_of_clauseWith rfl h)

/-- The clause of an entry is joined by the type of the entry, and says one of four things. -/
theorem isClauseOf_of_typedClause {s : ClauseContext R} {given : Option (Boundary R)}
    {entry : Entry R} {c : TypedClause R} (h : s.typedClause given entry = .ok c) :
    ∃ p, c = ⟨entry.type, p⟩ ∧ s.IsClauseOf entry p := by
  cases entry with
  | main m =>
    obtain ⟨p, hp, h⟩ := bind_eq_ok_iff.mp h
    exact ⟨p, (Except.ok.inj h).symm, isClauseOf_of_mainWith hp⟩
  | supplement b =>
    obtain ⟨p, hp, h⟩ := bind_eq_ok_iff.mp h
    exact ⟨p, (Except.ok.inj h).symm, isClauseOf_of_clauseWith hp⟩

/-! ### Exact forms of clauses -/

/-- A clause that measures no distance has only one form. -/
theorem typedClause_exactOn (s : ClauseContext R) (given : Option (Boundary R)) (field : String)
    {entry : Entry R} (h : entry.radius? = none) :
    (s.exactOn field).typedClause given entry = s.typedClause given entry := by
  match entry, h with
  | .main ⟨.boundary, _, .within⟩, _ | .main ⟨.boundary, _, .intersects⟩, _ => rfl
  | .supplement ⟨_, .touchesBoundary⟩, _ | .supplement ⟨_, .insideBoundary⟩, _ => rfl
  | .supplement ⟨_, .operator _⟩, _ | .supplement ⟨_, .mode _⟩, _ => rfl

/-- One that does measure a distance is exactly that distance, on any column. -/
theorem typedClause_exactOn_of_radius {s : ClauseContext R} (given : Option (Boundary R))
    (field : String) {entry : Entry R} {radius : R} {point : LatLng R}
    (hradius : entry.radius? = some radius) (hpoint : s.context.point = some point) :
    (s.exactOn field).typedClause given entry =
      .ok ⟨entry.type, .withinMeters field point radius⟩ := by
  have hclause : ∀ origin relation, (s.exactOn field).pointClause origin relation radius =
      .ok (.withinMeters field point radius) := by
    intro origin relation
    simp only [pointClause, exactOn, hpoint]
  match entry, hradius with
  | .main ⟨.selectedPoint, _, relation⟩, rfl =>
    exact bind_eq_ok_iff.mpr ⟨_, hclause .main relation, rfl⟩
  | .supplement ⟨_, .nearPoint _⟩, rfl =>
    exact bind_eq_ok_iff.mpr ⟨_, hclause (.block .nearPoint) .within, rfl⟩

/-! ### Clauses that are never trivial -/

theorem isTrivial_nativeLeaf (relation : Relation) (field : String) (point : LatLng R)
    (meters : R) : (nativeLeaf relation field point meters).isTrivial = false := by
  cases relation <;> rfl

private theorem isTrivial_of_tierLeaf {s : ClauseContext R} {relation : Relation} {point : LatLng R}
    {meters : R} {p : Predicate R} (h : s.tierLeaf relation point meters = .ok p) :
    p.isTrivial = false := by
  obtain ⟨-, field, -, rfl⟩ | ⟨-, columns, box, -, -, rfl⟩ := tierLeaf_eq_ok h
  · exact isTrivial_nativeLeaf ..
  · rfl

theorem isTrivial_of_pointClause {s : ClauseContext R} {origin : ClauseOrigin}
    {relation : Relation} {distance : R} {p : Predicate R}
    (h : s.pointClause origin relation distance = .ok p) : p.isTrivial = false := by
  obtain ⟨point, -, ⟨-, hleaf⟩ | ⟨field, -, rfl⟩⟩ := pointClause_eq_ok h
  · exact isTrivial_of_tierLeaf hleaf
  · rfl

theorem isTrivial_of_boundaryClause {s : ClauseContext R} {origin : ClauseOrigin}
    {relation : SpatialRelation} {buffer : R} {given : Option (Boundary R)} {p : Predicate R}
    (h : s.boundaryClause origin relation buffer given = .ok p) : p.isTrivial = false := by
  obtain ⟨-, field, wkt, -, rfl⟩ := boundaryClause_eq_ok h
  rfl

/-- A main clause always says something. -/
theorem isTrivial_of_mainWith {s : ClauseContext R} {given : Option (Boundary R)}
    {m : MainClause R} {p : Predicate R} (h : s.mainWith given m = .ok p) :
    p.isTrivial = false := by
  cases isClauseOf_of_mainWith h with
  | leaf _ _ _ hleaf => exact isTrivial_of_tierLeaf hleaf
  | meters | boundary => rfl

/-! ### Listing and joining -/

/-- Where entries are joined to an expression, they are supplements, their clauses are there, and
the result comes from joining these clauses. -/
theorem joinEntries_eq_ok {s : ClauseContext R} {given : Option (Boundary R)} {n : Nat}
    {e e' : Option (Predicate R)} {entries : List (Entry R)}
    (h : s.joinEntries given n e entries = .ok e') :
    ∃ (bs : List (Supplement R)) (cs : List (TypedClause R)),
      entries = bs.map Entry.supplement ∧ entries.mapM (s.typedClause given) = .ok cs ∧
        e' = joinAll e cs := by
  induction entries generalizing n e with
  | nil =>
    cases h
    exact ⟨[], [], rfl, rfl, rfl⟩
  | cons entry rest ih =>
    cases entry with
    | main m => cases h
    | supplement b =>
      rw [joinEntries] at h
      obtain ⟨clause, hc, h⟩ := bind_eq_ok_iff.mp h
      obtain ⟨bs, cs, rfl, hcs, rfl⟩ := ih h
      refine ⟨b :: bs, ⟨b.type, clause⟩ :: cs, rfl, ?_, rfl⟩
      refine mapM_cons_eq_ok_iff.mpr ⟨⟨b.type, clause⟩, cs, ?_, hcs, rfl⟩
      rw [typedClause, hc]
      rfl

/-- What stands behind a predicate: a main clause and further clauses that are joined to it. -/
theorem exists_clauses_of_predicate {s : ClauseContext R} {contract : Contract R}
    {p : Predicate R} (h : s.predicate contract = .ok p) :
    ∃ (m : MainClause R) (bs : List (Supplement R)) (main : Predicate R)
      (cs : List (TypedClause R)), contract.entries = .main m :: bs.map Entry.supplement ∧
      s.mainWith (s.boundaryOf contract) m = .ok main ∧ main.isTrivial = false ∧
      (bs.map Entry.supplement).mapM (s.typedClause (s.boundaryOf contract)) = .ok cs ∧
      s.clauses contract = .ok (⟨.included, main⟩ :: cs) ∧ joinAll (some main) cs = some p := by
  unfold predicate at h
  split at h
  swap
  · cases h
  unfold entries at h
  split at h
  · cases h
  · cases h
  rename_i m rest hentries
  obtain ⟨main, hmain, h⟩ := bind_eq_ok_iff.mp h
  obtain ⟨e, he, h⟩ := bind_eq_ok_iff.mp h
  -- the main clause is joined to nothing, and stands by itself since it is not trivial
  have hnt := isTrivial_of_mainWith hmain
  obtain ⟨bs, cs, rfl, hcs, rfl⟩ := joinEntries_eq_ok he
  rw [join_none_included hnt] at h
  refine ⟨m, bs, main, cs, hentries, hmain, hnt, hcs, ?_, ?_⟩
  · rw [clauses, hentries]
    refine mapM_cons_eq_ok_iff.mpr ⟨_, _, ?_, hcs, rfl⟩
    rw [typedClause, boundaryOf, hmain]
    rfl
  · -- joining never loses the expression, so the default of `always` is not used
    obtain ⟨q, hq⟩ := exists_joinAll_some main cs
    rw [hq] at h
    rw [hq, ← Except.ok.inj h]
    rfl

end ClauseContext

end TransitQuery
