import TransitQuery.Proofs.Contract.Wire
import TransitQuery.Proofs.Result

/-!
# What comes back from JSON

Queries, contexts, contracts and results are exchanged as JSON. Nothing of their form is lost on
the way: within JSON values each comes back as it is, and from its text each comes back but for
its scalars, which become what the reader of numbers makes of their texts (`exchange_roundTrips`).
That reader rounds more than once, so a scalar may come back as its neighbour, and then a contract
is not what it was (`Contract.not_ofText?_toText`).

The four codecs are lawful, which is what `exchange_roundTrips` rests on: a lawful codec reads what
it has written, provided that the value can be written at all. What has come in as JSON can
(`Codec.IsLawful.holds_of_admits`), and so can what a valid query compiles to
(`isWritable_of_compile`); the only conditions that are left are those on the numbers. A contract
comes back as it is just if every scalar in it does (`contract_roundTrips`), and whether one does
can be computed (`Json.reread?`). So the counterexample is a computation: a query with a radius of
17 digits, whose contract is not the one that is read from its text.
-/

namespace TransitQuery

variable {R : Type} [Scalar R]

/-- A value that has come in as JSON, as a text or as a value that a text can hold. -/
def Codec.Admits {α : Type} (F : Codec R α) (a : α) : Prop :=
  (∃ text, F.ofText? text = some a) ∨ ∃ v, v.Fits .any Json.maxDepth ∧ F.ofJson? v = some a

/-- What comes in can be written. -/
theorem Codec.IsLawful.holds_of_admits [SteadyScalar R] {α : Type} {F : Codec R α}
    {Holds : α → Prop} (hF : F.IsLawful Json.maxDepth Holds) {a : α} (h : F.Admits a) :
    Holds a := by
  obtain ⟨text, htext⟩ | ⟨v, hfits, hv⟩ := h
  · exact hF.holds_of_ofText? htext
  · exact hF.holds_of_ofJson? (hfits.of_any le_rfl _) hv

namespace SpatialQuery

/-- What a valid query compiles to can be written, if its context has come in as JSON and the time
can be read. -/
theorem isWritable_of_compile [SteadyScalar R] {q : SpatialQuery R} {c : Context R}
    {now : Instant} {contract : Contract R} (hc : Context.codec.Admits c)
    (hnow : Instant.ofText? now.toText = some now) (h : q.compile now c = .ok contract) :
    contract.IsWritable (Json.maxDepth - 1) := by
  have hvalid : q.violations c = [] := by
    unfold compile at h
    split at h
    · assumption
    · cases h
  obtain ⟨hdistance, supplements, -, hall, hcompile⟩ := exists_compile_of_violations hvalid
  obtain rfl : q.contractWith now c supplements = contract :=
    Except.ok.inj ((hcompile now).symm.trans h)
  have hcontext : c.IsWritable (Json.maxDepth - 1) :=
    (Context.isLawful (Json.maxDepth - 2)).holds_of_admits hc
  exact {
    entries := List.forall_mem_cons.mpr ⟨hdistance, List.forall_mem_map.mpr hall⟩
    boundary := hcontext.boundary
    compiledAt := hnow }

/-- Such a contract comes back but for its scalars, and as it is just if they do. -/
theorem contract_roundTrips [LegibleScalar R] [SteadyScalar R] {q : SpatialQuery R}
    {c : Context R} {now : Instant} {contract : Contract R} (hc : Context.codec.Admits c)
    (hnow : Instant.ofText? now.toText = some now) (h : q.compile now c = .ok contract) :
    Contract.ofJson? contract.toJson = some contract ∧
      Contract.ofText? contract.toText = contract.mapReals? Json.reread? ∧
      (Contract.ofText? contract.toText = some contract ↔
        ∀ x ∈ contract.toJson.reals, Json.reread? x = some x) := by
  have hwritable := isWritable_of_compile hc hnow h
  have hlaws : (Contract.codec (R := R)).IsLawful Json.maxDepth _ :=
    Contract.isLawful (Json.maxDepth - 3)
  exact ⟨hlaws.ofJson?_toJson hwritable, hlaws.ofText?_toText hwritable,
    hlaws.ofText?_toText_eq_iff hwritable⟩

end SpatialQuery

/-- What comes back from JSON. Queries, contexts, contracts and results lose nothing: within JSON
values they come back as they are, and from their texts but for their scalars. So does the contract
of a query under a context that has come in as JSON. It is the same again just if each of its
scalars is read as itself. -/
theorem exchange_roundTrips [LegibleScalar R] [SteadyScalar R] :
    (SpatialQuery.codec (R := R)).RoundTrips ∧ (Context.codec (R := R)).RoundTrips ∧
      (Contract.codec (R := R)).RoundTrips ∧ (QueryResult.codec (R := R)).RoundTrips ∧
      ∀ {q : SpatialQuery R} {c : Context R} {now : Instant} {contract : Contract R},
        Context.codec.Admits c → Instant.ofText? now.toText = some now →
        q.compile now c = .ok contract →
          Contract.ofJson? contract.toJson = some contract ∧
          Contract.ofText? contract.toText = contract.mapReals? Json.reread? ∧
          (Contract.ofText? contract.toText = some contract ↔
            ∀ x ∈ contract.toJson.reals, Json.reread? x = some x) := by
  -- each codec is lawful as soon as there is room for its own braces and brackets
  have hquery : ∀ depth, 3 ≤ depth →
      (SpatialQuery.codec (R := R)).IsLawful depth SpatialQuery.IsWritable := by
    intro depth hdepth
    obtain ⟨d, rfl⟩ := Nat.exists_eq_add_of_le' hdepth
    exact SpatialQuery.isLawful d
  have hcontext : ∀ depth, 2 ≤ depth →
      (Context.codec (R := R)).IsLawful depth (Context.IsWritable (depth - 1)) := by
    intro depth hdepth
    obtain ⟨d, rfl⟩ := Nat.exists_eq_add_of_le' hdepth
    exact Context.isLawful d
  have hcontract : ∀ depth, 3 ≤ depth →
      (Contract.codec (R := R)).IsLawful depth (Contract.IsWritable (depth - 1)) := by
    intro depth hdepth
    obtain ⟨d, rfl⟩ := Nat.exists_eq_add_of_le' hdepth
    exact Contract.isLawful d
  have hresult : ∀ depth, 2 ≤ depth →
      (QueryResult.codec (R := R)).IsLawful depth QueryResult.IsWritable := by
    intro depth hdepth
    obtain ⟨d, rfl⟩ := Nat.exists_eq_add_of_le' hdepth
    exact QueryResult.isLawful d
  exact ⟨Codec.IsLawful.roundTrips (by decide) hquery,
    Codec.IsLawful.roundTrips (by decide) hcontext,
    Codec.IsLawful.roundTrips (by decide) hcontract,
    Codec.IsLawful.roundTrips (by decide) hresult, SpatialQuery.contract_roundTrips⟩

/-! ### A radius that comes back as its neighbour -/

/-- The text of a query for what lies near the boundary, with the text of its radius. -/
def nearBoundaryText (radius : String) : String :=
  "\x7b\"distance\": " ++ radius ++ ", \"target\": \"boundary\"\x7d"

/-- The text of a context with a boundary. -/
def boundaryContextText : String :=
  "\x7b\"serviceIdField\": \"id\", \"spatialReady\": true, \"boundary\": \"POINT (0 0)\"\x7d"

/-- Whether the contract of such a query has only scalars that are read as themselves, if there is a
contract. -/
def contractReadsBack? (radius : String) : Option Bool :=
  (SpatialQuery.ofText? (R := Float) (nearBoundaryText radius)).bind fun q =>
    (Context.ofText? boundaryContextText).bind fun c =>
      (q.compile ⟨0, 0⟩ c).toOption.map fun contract =>
        contract.toJson.reals.all fun x => Json.reread? x = some x

/-- The test speaks of a query and a context that are read from texts, and of the contract that one
is compiled to in the other. -/
private theorem exists_contract_of_contractReadsBack? {radius : String} {b : Bool}
    (h : contractReadsBack? radius = some b) :
    ∃ (q : SpatialQuery Float) (c : Context Float) (contract : Contract Float),
      SpatialQuery.ofText? (nearBoundaryText radius) = some q ∧
      Context.ofText? boundaryContextText = some c ∧ q.compile ⟨0, 0⟩ c = .ok contract ∧
      ((∀ x ∈ contract.toJson.reals, Json.reread? x = some x) ↔ b = true) := by
  obtain ⟨q, hq, h⟩ := Option.bind_eq_some_iff.mp h
  obtain ⟨c, hc, h⟩ := Option.bind_eq_some_iff.mp h
  obtain ⟨contract, hcontract, rfl⟩ := Option.map_eq_some_iff.mp h
  exact ⟨q, c, contract, hq, hc, toOption_eq_some_iff.mp hcontract, by simp⟩

/-- A radius with few digits comes back, and the contract with it. -/
theorem exchange_roundTrips_short :
    ∃ (q : SpatialQuery Float) (c : Context Float) (contract : Contract Float),
      SpatialQuery.ofText? (nearBoundaryText "300.25") = some q ∧
      Context.ofText? boundaryContextText = some c ∧ q.compile ⟨0, 0⟩ c = .ok contract ∧
      Contract.ofText? contract.toText = some contract := by
  have hreads : contractReadsBack? "300.25" = some true := by decide +kernel
  obtain ⟨q, c, contract, hq, hc, hcontract, hback⟩ :=
    exists_contract_of_contractReadsBack? hreads
  have hnow : Instant.ofText? (Instant.toText ⟨0, 0⟩) = some ⟨0, 0⟩ := by decide +kernel
  obtain ⟨-, -, -, -, hround⟩ := exchange_roundTrips (R := Float)
  exact ⟨q, c, contract, hq, hc, hcontract,
    (hround (.inl ⟨_, hc⟩) hnow hcontract).2.2.mpr (hback.mpr rfl)⟩

/-- The radius of this query is read as a double whose own text, 953.2972717897991, is read as the
double after it. The contract is not what it was. -/
theorem Contract.not_ofText?_toText :
    ∃ (q : SpatialQuery Float) (c : Context Float) (contract : Contract Float),
      SpatialQuery.ofText? (nearBoundaryText "953.29727178979897") = some q ∧
      Context.ofText? boundaryContextText = some c ∧ q.compile ⟨0, 0⟩ c = .ok contract ∧
      Instant.ofText? (Instant.toText ⟨0, 0⟩) = some ⟨0, 0⟩ ∧
      Contract.ofText? contract.toText ≠ some contract := by
  have hreads : contractReadsBack? "953.29727178979897" = some false := by decide +kernel
  obtain ⟨q, c, contract, hq, hc, hcontract, hback⟩ :=
    exists_contract_of_contractReadsBack? hreads
  have hnow : Instant.ofText? (Instant.toText ⟨0, 0⟩) = some ⟨0, 0⟩ := by decide +kernel
  refine ⟨q, c, contract, hq, hc, hcontract, hnow, fun h => ?_⟩
  have hall := (SpatialQuery.contract_roundTrips (.inl ⟨_, hc⟩) hnow hcontract).2.2.mp h
  cases hback.mp hall

end TransitQuery
