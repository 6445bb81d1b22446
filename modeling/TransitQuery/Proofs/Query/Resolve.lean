import TransitQuery.Proofs.Plan.Feasible
import TransitQuery.Proofs.Scalar.Ordered

/-!
# What queries compile to

A query compiles just if it is valid, and what is wrong with another one is all that is reported.
The contract repeats the query clause by clause (`Contract.Renders`): the main clause comes from the
query's own fields, and each further one is what a block stands for (`Block.StandsFor`). Radii are
finite and not negative, attributes are not blank, and therefore a predicate of the contract leaves
out none of the clauses (`SpatialQuery.compiles_iff`).

`Block.StandsFor` says what a block stands for without the functions that resolve it: the names of
its type and its operator, the text that it compares, and the radius, its own one or else the one
of the query. `Contract.Renders` puts this together for a whole query, with the number of the
clauses, the relation and the radius of the main clause, all further radii and texts, and what a
predicate of the contract is made of.

The theorem has three parts. What is reported for a query that is not valid is the list of its
violations, complete and in order. What a valid query compiles to renders it. And a predicate of
that contract, on any tier, is the plain fold of its clauses: none of them is trivial, as only a
blank text makes a clause so, and validity rules that out.
-/

namespace TransitQuery

variable {R : Type}

/-! ### What blocks stand for -/

/-- What a block gives an operator to test. A disc without a radius takes the one of its query. -/
inductive Block.Gives (inherited : R) (b : Block R) : Clause R → Prop
  | nearPoint {radius : R} (h : b.distance = some radius) : Gives inherited b (.nearPoint radius)
  | nearPointInherited (h : b.distance = none) : Gives inherited b (.nearPoint inherited)
  | touchesBoundary : Gives inherited b .touchesBoundary
  | insideBoundary : Gives inherited b .insideBoundary
  | operator {value : String} (h : b.value = some value) : Gives inherited b (.operator value)
  | mode {value : String} (h : b.value = some value) : Gives inherited b (.mode value)

/-- The clause that a block of a query with the radius `inherited` stands for. It has the type and
the operator that the block names; a block without a type is included. -/
structure Block.StandsFor (inherited : R) (b : Block R) (s : Supplement R) : Prop where
  type : b.kind = some s.type.name ∨ b.kind = none ∧ s.type = .included
  operator : b.operator = some s.clause.kind.name
  content : b.Gives inherited s.clause

/-- A type is read from its own name only. -/
private theorem BlockType.eq_name_of_ofName? {name : String} {t : BlockType}
    (h : ofName? name = some t) :
    name = t.name := by
  have hname := List.find?_some h
  exact (of_decide_eq_true hname).symm

private theorem BlockOperator.eq_name_of_ofName? {name : String} {op : BlockOperator}
    (h : ofName? name = some op) : name = op.name := by
  have hname := List.find?_some h
  exact (of_decide_eq_true hname).symm

namespace Block

variable {b : Block R} {inherited : R} {s : Supplement R}

/-- A block names its type, or it is included. -/
private theorem kind_of_parsedType {t : BlockType} (h : b.parsedType = .ok t) :
    b.kind = some t.name ∨ b.kind = none ∧ t = .included := by
  unfold parsedType at h
  split at h
  · rename_i hkind
    exact .inr ⟨hkind, (Except.ok.inj h).symm⟩
  · rename_i name hkind
    split at h
    · rename_i t' ht
      obtain rfl := Except.ok.inj h
      exact .inl (hkind.trans (congrArg some (BlockType.eq_name_of_ofName? ht)))
    · cases h

private theorem operator_of_parsedOperator {op : BlockOperator}
    (h : b.parsedOperator = some (.ok op)) :
    b.operator = some op.name := by
  obtain ⟨name, hname, h⟩ := Option.map_eq_some_iff.mp h
  split at h
  · rename_i op' hop
    obtain rfl := Except.ok.inj h
    exact hname.trans (congrArg some (BlockOperator.eq_name_of_ofName? hop))
  · cases h

/-- What a block gives an operator, as it is resolved. -/
theorem gives_clause (op : BlockOperator)
    (htext : ∀ value, (op.clause inherited b).text? = some value →
      Text.isBlankString value = false) : b.Gives inherited (op.clause inherited b) := by
  -- a value that is not blank is there
  have hvalue : Text.isBlankString (b.value.getD "") = false →
      b.value = some (b.value.getD "") := by
    intro hblank
    cases hcase : b.value with
    | some value => rfl
    | none =>
      rw [hcase] at hblank
      cases hblank
  cases op with
  | nearPoint =>
    rw [BlockOperator.clause]
    cases hcase : b.distance with
    | none => exact .nearPointInherited hcase
    | some radius => exact .nearPoint hcase
  | touchesBoundary => exact .touchesBoundary
  | insideBoundary => exact .insideBoundary
  | operator => exact .operator (hvalue (htext _ rfl))
  | mode => exact .mode (hvalue (htext _ rfl))

variable [Scalar R] {c : Context R} {n : Nat}

/-- A block without violations resolves to the clause that it stands for. -/
theorem standsFor_of_resolve (h : b.violations c n = []) (hs : b.resolve inherited = .ok s) :
    b.StandsFor inherited s := by
  obtain ⟨htype, hop⟩ := parsed_of_resolve hs
  obtain ⟨-, -, htext⟩ := of_resolve h hs
  refine ⟨kind_of_parsedType htype, operator_of_parsedOperator hop, ?_⟩
  unfold resolve at hs
  rw [htype, hop] at hs
  have hclause := congrArg Supplement.clause (Except.ok.inj hs).symm
  generalize s.clause.kind = op at hclause
  dsimp only at hclause
  rw [hclause] at htext ⊢
  exact gives_clause op htext

/-- The radius of its clause is a radius, if that of the query is. -/
theorem isRadius_of_standsFor (h : b.violations c n = []) (hs : b.resolve inherited = .ok s)
    (hinherited : isRadius inherited = true) {radius : R} (hclause : s.clause = .nearPoint radius) :
    isRadius radius = true := by
  obtain ⟨-, hviolations⟩ := List.append_eq_nil_iff.mp h
  obtain ⟨-, hop⟩ := parsed_of_resolve hs
  have hcontent := (standsFor_of_resolve h hs).content
  unfold operatorViolations at hviolations
  rw [hop, hclause] at hviolations
  obtain ⟨-, hradius⟩ := List.append_eq_nil_iff.mp hviolations
  rw [hclause] at hcontent
  cases hcontent with
  | nearPointInherited hnone => exact hinherited
  | nearPoint hsome =>
    rw [hsome] at hradius
    simpa using of_violationIf_eq_nil hradius

end Block

/-! ### Contracts -/

/-- The relation is that of being within just if the query says so. -/
private theorem Relation.ofCondition_eq_within_iff {condition : Condition} :
    ofCondition condition = .within ↔ condition = .within := by
  cases condition <;> decide

namespace Entry

/-- The radius of an entry, if it has one. -/
def distance? : Entry R → Option R
  | main m => some m.distance
  | supplement ⟨_, .nearPoint radius⟩ => some radius
  | supplement _ => none

/-- The text that an entry compares an attribute with. -/
def text? : Entry R → Option String
  | main _ => none
  | supplement s => s.clause.text?

end Entry

/-- Clauses that are not trivial are all joined. -/
theorem joinAll_eq_foldl {cs : List (TypedClause R)}
    (h : ∀ c ∈ cs, c.clause.isTrivial = false) (e : Predicate R) :
    joinAll (some e) cs = some (cs.foldl TypedClause.append e) := by
  induction cs generalizing e with
  | nil => rfl
  | cons c cs ih =>
    obtain ⟨hc, hcs⟩ := List.forall_mem_cons.mp h
    rw [joinAll_cons, TypedClause.join_eq_append hc]
    exact ih hcs _

variable [Scalar R]

namespace ClauseContext

variable {s : ClauseContext R} {given : Option (Boundary R)}

/-- Only a blank text makes a clause trivial. -/
theorem isTrivial_of_clauseWith {c : Clause R} {p : Predicate R}
    (htext : ∀ text, c.text? = some text → Text.isBlankString text = false)
    (h : s.clauseWith given c = .ok p) : p.isTrivial = false := by
  cases c with
  | nearPoint radius => exact isTrivial_of_pointClause h
  | touchesBoundary => exact isTrivial_of_boundaryClause h
  | insideBoundary => exact isTrivial_of_boundaryClause h
  | operator value | mode value =>
    unfold clauseWith attributeClause at h
    dsimp only at h
    rw [htext value rfl, if_neg Bool.false_ne_true] at h
    split at h
    · cases h
    · cases h
      rfl

/-- A predicate of a contract without blank attributes joins all its clauses. -/
theorem exists_clauses_of_texts {contract : Contract R} {p : Predicate R}
    (htexts : ∀ entry ∈ contract.entries, ∀ text ∈ entry.text?, Text.isBlankString text = false)
    (h : s.predicate contract = .ok p) :
    ∃ main cs, s.clauses contract = .ok (⟨.included, main⟩ :: cs) ∧
      main.isTrivial = false ∧ (∀ c ∈ cs, c.clause.isTrivial = false) ∧
      p = cs.foldl TypedClause.append main := by
  obtain ⟨m, supplements, main, cs, hentries, -, hmain, hcs, hclauses, hjoin⟩ :=
    exists_clauses_of_predicate h
  have hnontrivial : ∀ c ∈ cs, c.clause.isTrivial = false := by
    intro c hc
    obtain ⟨entry, hentry, hclause⟩ := (exists_of_mapM_eq_ok hcs).1 c hc
    obtain ⟨b, hb, rfl⟩ := List.mem_map.mp hentry
    obtain ⟨p, hp, hclause⟩ := bind_eq_ok_iff.mp hclause
    obtain rfl := Except.ok.inj hclause
    have hmem : Entry.supplement b ∈ contract.entries := by
      rw [hentries]
      exact List.mem_cons_of_mem _ hentry
    exact isTrivial_of_clauseWith (htexts _ hmem) hp
  rw [joinAll_eq_foldl hnontrivial] at hjoin
  exact ⟨main, cs, hclauses, hmain, hnontrivial, (Option.some.inj hjoin).symm⟩

end ClauseContext

/-- A contract repeats a query clause by clause. -/
structure Contract.Renders (contract : Contract R) (q : SpatialQuery R) : Prop where
  length_eq : contract.entries.length = q.blocks.length + 1
  /-- First comes what the query itself asks, then what each block stands for. -/
  entries : ∃ relation supplements,
    (relation = .within ↔ q.condition = .within) ∧
    contract.entries =
      .main ⟨q.target, q.distance, relation⟩ :: supplements.map .supplement ∧
    List.Forall₂ (Block.StandsFor q.distance) q.blocks supplements
  radii : ∀ entry ∈ contract.entries, ∀ radius ∈ entry.distance?,
    Scalar.isFinite radius = true ∧ Scalar.zero ≤ radius
  texts : ∀ entry ∈ contract.entries, ∀ text ∈ entry.text?, Text.isBlankString text = false
  /-- Wherever there is a predicate of the contract, all clauses are in it, from left to right. -/
  clauses : ∀ (s : ClauseContext R) (p : Predicate R), s.predicate contract = .ok p →
    ∃ main cs, s.clauses contract = .ok (⟨.included, main⟩ :: cs) ∧
      cs.length = q.blocks.length ∧ main.isTrivial = false ∧
      (∀ c ∈ cs, c.clause.isTrivial = false) ∧ p = cs.foldl TypedClause.append main

namespace SpatialQuery

variable {q : SpatialQuery R} {c : Context R}

/-- What the blocks of a valid query resolve to. Its radii are radii and its texts are not blank. -/
theorem of_mem_supplements (h : q.violations c = []) {supplements : List (Supplement R)}
    (hresolve : q.resolveBlocks = .ok supplements) {s : Supplement R} (hs : s ∈ supplements) :
    (∀ radius, s.clause = .nearPoint radius → isRadius radius = true) ∧
      ∀ text, s.clause.text? = some text → Text.isBlankString text = false := by
  obtain ⟨b, hb, hbs⟩ := (exists_of_mapM_eq_ok hresolve).1 s hs
  obtain ⟨k, hk⟩ := exists_violations_of_mem (violations_eq_nil_iff.mp h).2.2 b hb
  exact ⟨fun radius => Block.isRadius_of_standsFor hk hbs (violations_eq_nil_iff.mp h).1,
    (Block.of_resolve hk hbs).2.2⟩

/-- The blocks of a valid query resolve to what they stand for, place by place. -/
private theorem forall₂_standsFor (h : q.violations c = []) {supplements : List (Supplement R)}
    (hresolve : q.resolveBlocks = .ok supplements) :
    List.Forall₂ (Block.StandsFor q.distance) q.blocks supplements := by
  have hvalid := exists_violations_of_mem (violations_eq_nil_iff.mp h).2.2
  refine ((List.forall₂_and_left _ _).mpr ⟨hvalid, forall₂_of_mapM_eq_ok hresolve⟩).imp ?_
  rintro b s ⟨⟨k, hk⟩, hs⟩
  exact Block.standsFor_of_resolve hk hs

variable [OrderedScalar R]

private theorem zero_le_of_isRadius {radius : R} (h : isRadius radius = true) :
    Scalar.isFinite radius = true ∧ Scalar.zero ≤ radius := by
  obtain ⟨hfinite, hnonneg⟩ := Bool.and_eq_true_iff.mp h
  exact ⟨hfinite, OrderedScalar.zero_le hfinite (by simpa using hnonneg)⟩

/-- What a valid query compiles to repeats it. -/
theorem renders_contractWith (h : q.violations c = []) {supplements : List (Supplement R)}
    (hresolve : q.resolveBlocks = .ok supplements) (now : Instant) :
    (q.contractWith now c supplements).Renders q := by
  have hall := forall₂_standsFor h hresolve
  have hlength : q.blocks.length = supplements.length := hall.length_eq
  -- What validation asks of the radii and texts of a query holds of those in the contract.
  have hradii : ∀ entry ∈ (q.contractWith now c supplements).entries,
      ∀ radius ∈ entry.distance?, Scalar.isFinite radius = true ∧ Scalar.zero ≤ radius := by
    intro entry hentry radius hradius
    apply zero_le_of_isRadius
    rcases List.mem_cons.mp hentry with rfl | hentry
    · obtain rfl := Option.some.inj hradius
      exact (violations_eq_nil_iff.mp h).1
    · obtain ⟨⟨type, clause⟩, hs, rfl⟩ := List.mem_map.mp hentry
      cases clause with
      | nearPoint radius' =>
        obtain rfl := Option.some.inj hradius
        exact (of_mem_supplements h hresolve hs).1 _ rfl
      | _ => cases hradius
  have htexts : ∀ entry ∈ (q.contractWith now c supplements).entries,
      ∀ text ∈ entry.text?, Text.isBlankString text = false := by
    intro entry hentry text htext
    rcases List.mem_cons.mp hentry with rfl | hentry
    · cases htext
    · obtain ⟨s, hs, rfl⟩ := List.mem_map.mp hentry
      exact (of_mem_supplements h hresolve hs).2 text htext
  refine ⟨?_, ⟨_, supplements, Relation.ofCondition_eq_within_iff, rfl, hall⟩, hradii, htexts,
    fun s p hp => ?_⟩
  · simp [contractWith, hlength]
  · obtain ⟨main, cs, hclauses, hmain, hcs, rfl⟩ := ClauseContext.exists_clauses_of_texts htexts hp
    refine ⟨main, cs, hclauses, ?_, hmain, hcs, rfl⟩
    have hcount := (forall₂_of_mapM_eq_ok hclauses).length_eq
    simp only [contractWith, List.length_cons, List.length_map] at hcount
    omega

/-- A query compiles just if it is valid. Otherwise its violations are reported, in order, and
nothing else. What it compiles to repeats it. -/
theorem compiles_iff (q : SpatialQuery R) (c : Context R) (now : Instant) :
    ((∃ contract, q.compile now c = .ok contract) ↔ q.violations c = []) ∧
      (∀ e, q.compile now c = .error e → q.violations c ≠ [] ∧ e = .invalid (q.violations c) ∧
        e.messages = (q.violations c).map Violation.message) ∧
      ∀ contract, q.compile now c = .ok contract → contract.Renders q := by
  cases hviolations : q.violations c with
  | nil =>
    obtain ⟨-, supplements, hresolve, -, hcompile⟩ := exists_compile_of_violations hviolations
    rw [hcompile now]
    refine ⟨⟨fun _ => rfl, fun _ => ⟨_, rfl⟩⟩, fun e h => (by cases h), fun contract h => ?_⟩
    obtain rfl := Except.ok.inj h
    exact renders_contractWith hviolations hresolve now
  | cons v rest =>
    have hcompile : q.compile now c = .error (.invalid (v :: rest)) := by
      rw [compile, hviolations]
    rw [hcompile]
    refine ⟨iff_of_false ?_ (List.cons_ne_nil v rest), fun e h => ?_, fun contract h => ?_⟩
    · rintro ⟨contract, h⟩
      cases h
    · obtain rfl := Except.error.inj h
      exact ⟨List.cons_ne_nil v rest, rfl, rfl⟩
    · cases h

/-- Ferries near the boundary, and what is near the selected point: the second disc is as wide as
the query's own. -/
def landingQuery : SpatialQuery FlatDouble :=
  { (default : SpatialQuery FlatDouble) with
    target := .boundary
    blocks := [
      ⟨some "include", some "mode", some "ferry", none⟩,
      ⟨some "also-include", some "near_point", none, none⟩,
      ⟨none, some "near_point", none, some (20 : Float)⟩] }

/-- Spatial tests, with the point `(0, 0)` selected and as the boundary. -/
def landingContext : Context FlatDouble :=
  { (Context.empty : Context FlatDouble) with
    spatialReady := true
    geometryField := some "geometry"
    modeField := some "mode"
    point := some ⟨(0 : Float), (0 : Float)⟩
    boundary := some (.wkt "POINT (0 0)") }

/-- The query compiles, and without the point it does not. -/
theorem compiles_iff_landing :
    (∃ contract, landingQuery.compile ⟨0, 0⟩ landingContext = .ok contract ∧
      contract.Renders landingQuery ∧ contract.entries.length = 4) ∧
    ∀ contract,
      landingQuery.compile ⟨0, 0⟩ { landingContext with point := none } ≠ .ok contract := by
  have hvalid : landingQuery.violations landingContext = [] :=
    List.isEmpty_iff.mp (by decide +kernel)
  have hinvalid : landingQuery.violations { landingContext with point := none } ≠ [] :=
    mt List.isEmpty_iff.mpr (by decide +kernel)
  obtain ⟨hcompiles, -, hrenders⟩ := compiles_iff landingQuery landingContext ⟨0, 0⟩
  obtain ⟨contract, hcontract⟩ := hcompiles.mpr hvalid
  refine ⟨⟨contract, hcontract, hrenders _ hcontract, (hrenders _ hcontract).length_eq⟩,
    fun contract h => hinvalid ?_⟩
  exact (compiles_iff landingQuery { landingContext with point := none } ⟨0, 0⟩).1.mp ⟨contract, h⟩

end SpatialQuery

end TransitQuery
