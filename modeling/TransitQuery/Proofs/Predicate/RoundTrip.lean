import TransitQuery.Proofs.Predicate.Wire
import TransitQuery.Proofs.Scalar.Legible

/-!
# Built predicates as text

Each clause that says something is joined to all before it, so that a predicate nests by two levels
for each of them (`nesting_joinAll`). A reader of text that allows a fixed depth thus reads back
what is built from few clauses, whatever they say, and nothing that is built from many. The rest is
up to the numbers: the predicate comes back just if each of them is read as itself from its own text
(`ClauseContext.predicate_roundTrips`).

The depth is known exactly from the number of clauses that are joined, up to what the deepest
clause has (`nesting_joinAll`): the expression before a clause stands two levels further in, under
a conjunction or a disjunction with its list, and the clause itself takes at most four. Trivial
clauses are not joined and do not count.

The two theorems at the end are the two sides of the condition. With few clauses and a radius that
is read as itself, the predicate comes back. With a radius of 420 meters it does not, since a
number in degrees that is written with seventeen digits need not be read as itself, and with 63
further clauses the text is refused for its depth, though each of its numbers would be read.
-/

namespace TransitQuery

variable {R : Type}

/-! ### The depth of clauses -/

/-- How many of several clauses are joined to an expression. -/
def joined (cs : List (TypedClause R)) : Nat :=
  cs.countP fun c => !c.clause.isTrivial

/-- An attribute clause takes at most four levels. -/
theorem Predicate.IsAttribute.nesting_le {p : Predicate R} (h : p.IsAttribute) :
    p.nesting ≤ 4 := by
  cases h with
  | always => exact Nat.zero_le 4
  | equals field value => exact Nat.le_add_left 2 2
  | anyOf fields value =>
    refine Nat.add_le_add_right (memberNesting_le_iff.mpr fun p hp => ?_) 2
    obtain ⟨field, -, rfl⟩ := List.mem_map.mp hp
    exact le_refl 2

/-- A clause that is joined puts all before it two levels further in. -/
private theorem nesting_append (e : Predicate R) (c : TypedClause R) :
    e.nesting + 2 ≤ (TypedClause.append e c).nesting ∧
      (TypedClause.append e c).nesting ≤ max e.nesting (c.clause.nesting + 1) + 2 := by
  unfold TypedClause.append
  cases c.type <;> simp only [Predicate.nesting] <;> omega

/-- Each clause that is joined adds two levels, and the clauses themselves only a few. -/
theorem nesting_joinAll {cs : List (TypedClause R)} (hcs : ∀ c ∈ cs, c.clause.nesting ≤ 4)
    {e q : Predicate R} (h : joinAll (some e) cs = some q) :
    e.nesting + 2 * joined cs ≤ q.nesting ∧ q.nesting ≤ max e.nesting 5 + 2 * joined cs := by
  -- For any expression before the clauses still to be joined. What is joined to it nests by at most
  -- 5: a clause, or its negation where it is excluded.
  induction cs generalizing e with
  | nil =>
    obtain rfl := Option.some.inj h
    simp [joined]
  | cons c cs ih =>
    obtain ⟨hc, hcs⟩ := List.forall_mem_cons.mp hcs
    rw [joinAll_cons] at h
    by_cases htrivial : c.clause.isTrivial = true
    · rw [join_of_isTrivial htrivial] at h
      have hjoined : joined (c :: cs) = joined cs := by simp [joined, htrivial]
      rw [hjoined]
      exact ih hcs h
    · rw [TypedClause.join_eq_append (Bool.eq_false_iff.mpr htrivial)] at h
      have hjoined : joined (c :: cs) = joined cs + 1 := by simp [joined, htrivial]
      obtain ⟨hlow, hhigh⟩ := ih hcs h
      obtain ⟨hlow', hhigh'⟩ := nesting_append e c
      omega

namespace ClauseContext

variable [Scalar R] {s : ClauseContext R} {given : Option (Boundary R)}

/-- A leaf about a disc takes three levels. -/
private theorem nesting_of_tierLeaf {relation : Relation} {point : LatLng R} {meters : R}
    {p : Predicate R} (h : s.tierLeaf relation point meters = .ok p) : p.nesting = 3 := by
  obtain ⟨-, field, -, rfl⟩ | ⟨-, columns, box, -, -, rfl⟩ := tierLeaf_eq_ok h
  · cases relation <;> rfl
  · rfl

private theorem IsClauseOf.nesting_main {m : MainClause R} {p : Predicate R}
    (h : s.IsClauseOf (.main m) p) : 2 ≤ p.nesting ∧ p.nesting ≤ 3 := by
  cases h with
  | leaf _ _ _ hleaf => simp [nesting_of_tierLeaf hleaf]
  | meters | boundary => simp [Predicate.nesting]

theorem IsClauseOf.nesting_le {entry : Entry R} {p : Predicate R} (h : s.IsClauseOf entry p) :
    p.nesting ≤ 4 := by
  cases h with
  | leaf _ _ _ hleaf => simp [nesting_of_tierLeaf hleaf]
  | meters | boundary => simp [Predicate.nesting]
  | comparison _ hattribute => exact hattribute.nesting_le

/-- The depth of a predicate is known from how many clauses it has, up to three levels. -/
theorem nesting_of_predicate {contract : Contract R} {p : Predicate R}
    (h : s.predicate contract = .ok p) :
    ∃ main cs, s.clauses contract = .ok (main :: cs) ∧
      2 * joined cs + 2 ≤ p.nesting ∧ p.nesting ≤ 2 * joined cs + 5 := by
  obtain ⟨m, bs, main, cs, -, hmain, -, hsupplements, hcs, hjoin⟩ := exists_clauses_of_predicate h
  have hclauses : ∀ c ∈ cs, c.clause.nesting ≤ 4 := by
    intro c hc
    obtain ⟨entry, -, hclause⟩ := (exists_of_mapM_eq_ok hsupplements).1 c hc
    obtain ⟨p, rfl, hp⟩ := isClauseOf_of_typedClause hclause
    exact hp.nesting_le
  obtain ⟨hlow, hhigh⟩ := nesting_joinAll hclauses hjoin
  obtain ⟨hlow', hhigh'⟩ := (isClauseOf_of_mainWith hmain).nesting_main
  exact ⟨⟨.included, main⟩, cs, hcs, by omega, by omega⟩

/-- What becomes of a built predicate. Within JSON values it comes back. From its text it comes back
just if its numbers are finite and are read as themselves, and if it does not nest too deeply for
the reader; where neither infinity nor depth is in the way, nothing but numbers can change. The
depth is never in the way of a main clause with up to 61 others joined to it, and always of one with
more than 62. -/
theorem predicate_roundTrips [LegibleScalar R] [SteadyScalar R] {contract : Contract R}
    {p : Predicate R} (h : s.predicate contract = .ok p) :
    (p.hasFiniteNumbers = true → Predicate.ofJson? p.toJson = some p) ∧
    (Predicate.codec.ofText? (Predicate.codec.toText p) = some p ↔
      (p.hasFiniteNumbers = true ∧ p.nesting ≤ Json.maxDepth) ∧
        ∀ x ∈ p.toJson.reals, Json.reread? x = some x) ∧
    (p.hasFiniteNumbers = true → p.nesting ≤ Json.maxDepth →
      Predicate.codec.ofText? (Predicate.codec.toText p) = p.mapReals? Json.reread?) ∧
    ∃ main cs, s.clauses contract = .ok (main :: cs) ∧
      (joined cs ≤ 61 → p.nesting ≤ Json.maxDepth) ∧
      (62 < joined cs → Json.maxDepth < p.nesting) := by
  refine ⟨Predicate.ofJson?_toJson, ?_, fun hfinite hnesting => ?_, ?_⟩
  · rw [Predicate.ofText?_toText_eq_iff]
    exact and_congr_left' ⟨fun h => ⟨h.1, h.2⟩, fun h => ⟨h.1, h.2⟩⟩
  · exact (Predicate.isLawful Json.maxDepth).ofText?_toText ⟨hfinite, hnesting⟩
  · obtain ⟨main, cs, hcs, hlow, hhigh⟩ := nesting_of_predicate h
    refine ⟨main, cs, hcs, fun hfew => ?_, fun hmany => ?_⟩
    · exact hhigh.trans (by rw [Json.maxDepth]; omega)
    · exact lt_of_lt_of_le (by rw [Json.maxDepth]; omega) hlow

end ClauseContext

/-! ### Instances -/

/-- Routes near the boundary, with their mode asked for a number of times. -/
def pontoonQuery (distance : Float) (times : Nat) : SpatialQuery Float where
  find := .routes
  condition := .intersect
  distance := distance
  target := .boundary
  blocks := List.replicate times ⟨some "include", some "mode", some "Ferry", none⟩

/-- A context with exact tests and a boundary. -/
def pontoonContext : Context Float :=
  { (Context.empty : Context Float) with
    serviceIdField := some "id"
    spatialReady := true
    geometryField := some "geometry"
    modeField := some "mode"
    boundary := some (.wkt "POINT (0 0)") }

/-- The predicate of the query, if there is one. -/
def pontoonPredicate? (distance : Float) (times : Nat) : Option (Predicate Float) :=
  ((pontoonQuery distance times).compile ⟨0, 0⟩ pontoonContext).toOption.bind fun contract =>
    (ClauseContext.ofContext pontoonContext).toOption.bind fun s =>
      (s.predicate contract).toOption

/-- A predicate that passes a test has been built from a contract. -/
private theorem exists_of_pontoonPredicate? (distance : Float) (times : Nat)
    (test : Predicate Float → Bool) (h : (pontoonPredicate? distance times).any test = true) :
    ∃ contract s p,
      (pontoonQuery distance times).compile ⟨0, 0⟩ pontoonContext = .ok contract ∧
      ClauseContext.ofContext pontoonContext = .ok s ∧ s.predicate contract = .ok p ∧
      test p = true := by
  obtain ⟨p, hp, htest⟩ := Option.any_eq_true .. |>.mp h
  obtain ⟨contract, hcontract, hp⟩ := Option.bind_eq_some_iff.mp hp
  obtain ⟨s, hs, hp⟩ := Option.bind_eq_some_iff.mp hp
  exact ⟨contract, s, p, toOption_eq_some_iff.mp hcontract, toOption_eq_some_iff.mp hs,
    toOption_eq_some_iff.mp hp, htest⟩

/-- Whether the scalars in what a predicate is written as are all read as themselves. -/
def Predicate.readsBack (p : Predicate Float) : Bool :=
  p.toJson.reals.all fun x => Json.reread? x = some x

private theorem Predicate.readsBack_iff {p : Predicate Float} :
    p.readsBack = true ↔ ∀ x ∈ p.toJson.reals, Json.reread? x = some x := by
  simp [readsBack]

namespace ClauseContext

/-- A radius of 300 meters is read as itself in degrees, and so two further clauses do no harm. -/
theorem predicate_roundTrips_short :
    ∃ contract s p, (pontoonQuery 300 2).compile ⟨0, 0⟩ pontoonContext = .ok contract ∧
      ofContext pontoonContext = .ok s ∧ s.predicate contract = .ok p ∧
      Predicate.codec.ofText? (Predicate.codec.toText p) = some p := by
  obtain ⟨contract, s, p, hcontract, hs, hp, htest⟩ := exists_of_pontoonPredicate? 300 2
    (fun p => p.hasFiniteNumbers && p.nesting ≤ Json.maxDepth && p.readsBack) (by decide +kernel)
  simp only [Bool.and_eq_true, decide_eq_true_eq, Predicate.readsBack_iff] at htest
  obtain ⟨⟨hfinite, hnesting⟩, hall⟩ := htest
  exact ⟨contract, s, p, hcontract, hs, hp,
    (predicate_roundTrips hp).2.1.mpr ⟨⟨hfinite, hnesting⟩, hall⟩⟩

/-- A radius of 420 meters is 0.0037729069349622707 degrees, and this text is read as the double
before it. With 63 further clauses the numbers are no obstacle, but the depth is one. -/
theorem not_predicate_roundTrips :
    (∃ contract s p, (pontoonQuery 420 0).compile ⟨0, 0⟩ pontoonContext = .ok contract ∧
      ofContext pontoonContext = .ok s ∧ s.predicate contract = .ok p ∧
      p.hasFiniteNumbers = true ∧
      Predicate.codec.ofText? (Predicate.codec.toText p) ≠ some p) ∧
    ∃ contract s p, (pontoonQuery 300 63).compile ⟨0, 0⟩ pontoonContext = .ok contract ∧
      ofContext pontoonContext = .ok s ∧ s.predicate contract = .ok p ∧
      p.hasFiniteNumbers = true ∧ (∀ x ∈ p.toJson.reals, Json.reread? x = some x) ∧
      Predicate.codec.ofText? (Predicate.codec.toText p) ≠ some p := by
  refine ⟨?_, ?_⟩
  · obtain ⟨contract, s, p, hcontract, hs, hp, htest⟩ := exists_of_pontoonPredicate? 420 0
      (fun p => p.hasFiniteNumbers && !p.readsBack) (by decide +kernel)
    simp only [Bool.and_eq_true, Bool.not_eq_true', Bool.eq_false_iff, ne_eq,
      Predicate.readsBack_iff] at htest
    refine ⟨contract, s, p, hcontract, hs, hp, htest.1, fun h => ?_⟩
    exact htest.2 (Predicate.ofText?_toText_eq_iff.mp h).2
  · obtain ⟨contract, s, p, hcontract, hs, hp, htest⟩ := exists_of_pontoonPredicate? 300 63
      (fun p => p.hasFiniteNumbers && p.readsBack && Json.maxDepth < p.nesting) (by decide +kernel)
    simp only [Bool.and_eq_true, decide_eq_true_eq, Predicate.readsBack_iff] at htest
    obtain ⟨⟨hfinite, hall⟩, hdeep⟩ := htest
    refine ⟨contract, s, p, hcontract, hs, hp, hfinite, hall, fun h => ?_⟩
    exact Nat.not_le.mpr hdeep (Predicate.ofText?_toText_eq_iff.mp h).1.2

end ClauseContext

end TransitQuery
