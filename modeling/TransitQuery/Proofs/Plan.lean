import TransitQuery.Plan.Basic
import TransitQuery.Proofs.Predicate.Clauses
import TransitQuery.Proofs.Store

/-!
# What is in a plan

A contract that can be planned has a predicate in its context, and where candidates are refined it
also has an exact one, both built from the same entries. The request asks for the identifier and
for every column that the exact predicate reads.

`Plan.found` says what a plan is meant to find in a table, straight from its predicates and the
full rows.

* `Contract.IsLike`: two contracts that a context cannot tell apart, although their texts differ.
* `Plan.Realizes`: a plan belongs to a contract in a context, by its two predicates and its
  request. All later modules speak of plans through this relation and do not open the planner
  again; `Plan.exists_realizes_of_ofContract` gives it for every plan that is made.
* `Plan.found`: what is meant to be found. A row counts if the predicate accepts it and, where
  there is a refinement, the exact predicate does so as well. The identifiers are reported as
  texts, each at its first row.
* `Plan.answered`: what comes out of an answer. The engine sends the rows that its predicate lets
  through, reduced to the columns of the request, and the refinement sees no more of them.

`Plan.Realizes.answered_eq_found` says that the two are the same, hence that the request asks for
enough. It needs no assumption on the rows: a column that is missing is sent as `null`, and reads
alike.
-/

namespace TransitQuery

variable {R : Type} [Scalar R]

/-- Two contracts say the same in a context: they differ at most in what planning does not read, and
in boundaries for which that of the context goes. -/
structure Contract.IsLike (contract contract' : Contract R) (c : Context R) : Prop where
  version_eq : contract.version = contract'.version
  find_eq : contract.find = contract'.find
  entries_eq : contract.entries = contract'.entries
  boundary_eq : (c.boundary <|> contract.boundary) = (c.boundary <|> contract'.boundary)

/-- They have the same predicate on every tier of the context. -/
theorem Contract.IsLike.predicate_eq {contract contract' : Contract R} {s : ClauseContext R}
    (h : contract.IsLike contract' s.context) :
    s.predicate contract = s.predicate contract' := by
  rw [ClauseContext.predicate, ClauseContext.predicate, Contract.isCompatible,
    Contract.isCompatible, h.version_eq, h.entries_eq, h.boundary_eq]

namespace Plan

/-- A plan has the predicates of a contract for some clauses, and the request that goes with
them. -/
structure Realizes (plan : Plan R) (s : ClauseContext R) (contract : Contract R)
    (settings : Settings) (idField : String) : Prop where
  tier_eq : plan.tier = s.tier
  predicate_eq : s.predicate contract = .ok plan.request.predicate
  refinement_eq : refinementOf s contract idField = .ok plan.refinement
  request_eq : plan.request = requestFor (settings.table contract.find) idField
    plan.request.predicate (s.context.refinementField s.tier) plan.refinement

/-- Where planning succeeds, the context has a column for identifiers and a tier, and the plan has
what belongs to them. -/
theorem exists_realizes_of_ofContract {contract : Contract R} {c : Context R}
    {settings : Settings} {plan : Plan R} (h : ofContract contract c settings = .ok plan) :
    ∃ idField s, c.serviceIdField = some idField ∧ ClauseContext.ofContext c = .ok s ∧
      plan.Realizes s contract settings idField := by
  unfold ofContract at h
  split at h
  · cases h
  rename_i idField hid
  rw [mapError_eq_ok_iff] at h
  obtain ⟨s, hs, h⟩ := bind_eq_ok_iff.mp h
  obtain ⟨predicate, hpredicate, h⟩ := bind_eq_ok_iff.mp h
  obtain ⟨refinement, hrefinement, h⟩ := bind_eq_ok_iff.mp h
  cases h
  exact ⟨idField, s, hid, hs, rfl, hpredicate, hrefinement, rfl⟩

/-- Contracts that say the same are planned alike. -/
theorem ofContract_eq_of_isLike {contract contract' : Contract R} {c : Context R}
    (h : contract.IsLike contract' c) (settings : Settings) :
    ofContract contract c settings = ofContract contract' c settings := by
  unfold ofContract ClauseContext.ofContext
  cases c.serviceIdField with
  | none => rfl
  | some idField =>
    cases Tier.select c with
    | none => rfl
    | some tier =>
      have hbox := h.predicate_eq (s := ⟨c, tier, none⟩)
      -- planning reads a contract through its predicate, in both forms, and what it finds
      have hexact : ∀ field,
          ((⟨c, tier, none⟩ : ClauseContext R).exactOn field).predicate contract =
            ((⟨c, tier, none⟩ : ClauseContext R).exactOn field).predicate contract' :=
        fun field => h.predicate_eq (s := ⟨c, tier, some field⟩)
      dsimp only [Except.bind]
      simp only [ofClauses, refinementOf, hbox, hexact, h.find_eq]

namespace Realizes

variable {plan : Plan R} {s : ClauseContext R} {contract : Contract R} {settings : Settings}
  {idField : String}

/-- The identifier is the column that the context names. -/
theorem idField_eq (h : plan.Realizes s contract settings idField) :
    plan.request.idField = idField := by
  rw [h.request_eq]
  rfl

/-- A refinement comes from the exact form of the clauses. -/
theorem exact_eq (h : plan.Realizes s contract settings idField) {r : Refinement R}
    (hr : plan.refinement = some r) :
    r.idField = idField ∧ ∃ field, s.context.refinementField s.tier = some field ∧
      (s.exactOn field).predicate contract = .ok r.predicate := by
  have hrefinement := h.refinement_eq
  unfold refinementOf at hrefinement
  rw [hr] at hrefinement
  split at hrefinement
  · cases hrefinement
  rename_i field hfield
  obtain ⟨exact', hexact, hrefinement⟩ := bind_eq_ok_iff.mp hrefinement
  cases hrefinement
  exact ⟨rfl, field, hfield, hexact⟩

/-- The table is the one that the settings give for what is to be found. -/
theorem table_eq (h : plan.Realizes s contract settings idField) :
    plan.request.table = settings.table contract.find := by
  rw [h.request_eq]
  rfl

/-- Where there is a column to refine candidates on, they are refined. -/
theorem exists_refinement (h : plan.Realizes s contract settings idField) {field : String}
    (hfield : s.context.refinementField s.tier = some field) :
    ∃ r, plan.refinement = some r ∧ (s.exactOn field).predicate contract = .ok r.predicate := by
  have hrefinement := h.refinement_eq
  rw [refinementOf, hfield] at hrefinement
  obtain ⟨exact', hexact, hrefinement⟩ := bind_eq_ok_iff.mp hrefinement
  exact ⟨_, (Except.ok.inj hrefinement).symm, hexact⟩

theorem idField_mem_columns (h : plan.Realizes s contract settings idField) :
    idField ∈ plan.request.columns := by
  rw [Request.columns, List.mem_eraseDups, h.idField_eq]
  exact List.mem_cons_self

/-- What a refinement reads is asked for. -/
theorem reads_subset_columns (h : plan.Realizes s contract settings idField) {r : Refinement R}
    (hr : plan.refinement = some r) : r.predicate.reads ⊆ plan.request.columns := by
  intro c hc
  rw [Request.columns, List.mem_eraseDups, h.request_eq, hr]
  refine List.mem_cons_of_mem _ (List.mem_append_right _ ?_)
  exact List.mem_eraseDups.mpr hc

/-- A row that is reduced to what is asked for is refined like the row itself. -/
theorem evaluate_project (h : plan.Realizes s contract settings idField) {r : Refinement R}
    (hr : plan.refinement = some r) (row : Row R) :
    r.predicate.evaluate (row.project plan.request.columns) = r.predicate.evaluate row :=
  r.predicate.evaluate_congr (Row.agreeOn_project (h.reads_subset_columns hr) row)

/-- So it is accepted just if the row itself is. -/
theorem accepts_project (h : plan.Realizes s contract settings idField) {r : Refinement R}
    (hr : plan.refinement = some r) (row : Row R) :
    r.accepts (row.project plan.request.columns) = r.accepts row :=
  Predicate.accepts_congr (Row.agreeOn_project (h.reads_subset_columns hr) row)

end Realizes

/-! ### What a plan is meant to find -/

/-- Whether a full row satisfies the predicates of a plan. -/
def accepts (plan : Plan R) (row : Row R) : Bool :=
  plan.request.predicate.accepts row && plan.refinement.all fun r => r.predicate.accepts row

/-- What is found in the rows of a table: the identifiers of the rows that satisfy the predicates,
each once, in the order in which they first occur. -/
def found (plan : Plan R) (rows : List (Row R)) : List String :=
  Row.distinctIds plan.request.idField (rows.filter plan.accepts)

/-- An identifier is found if some row with it is accepted. -/
theorem mem_found_iff {plan : Plan R} {rows : List (Row R)} {id : String} :
    id ∈ plan.found rows ↔
      ∃ row ∈ rows, plan.accepts row = true ∧ row.id? plan.request.idField = some id := by
  rw [found, Row.distinctIds, List.mem_eraseDups, List.mem_filterMap]
  constructor
  · rintro ⟨row, hrow, hid⟩
    obtain ⟨hrow, haccepts⟩ := List.mem_filter.mp hrow
    exact ⟨row, hrow, haccepts, hid⟩
  · rintro ⟨row, hrow, haccepts, hid⟩
    exact ⟨row, List.mem_filter.mpr ⟨hrow, haccepts⟩, hid⟩

/-- The identifiers that are reported for the rows of an answer. -/
def reported (plan : Plan R) (rows : List (Row R)) : List String :=
  match plan.refinement with
  | none => Row.distinctIds plan.request.idField rows
  | some r => r.ids rows

/-- The identifiers that a plan ends with for the rows of a table: the engine lets the rows through
that satisfy the predicate, reduces them and drops repetitions, and what is left is reported. -/
def answered (plan : Plan R) (rows : List (Row R)) : List String :=
  plan.reported (Row.distinct ((rows.filter plan.request.predicate.accepts).map
    (Row.project plan.request.columns)))

/-- Each identifier is reported once. -/
theorem nodup_reported (plan : Plan R) (rows : List (Row R)) : (plan.reported rows).Nodup := by
  rw [reported]
  split <;> exact nodup_eraseDups _

/-- A plan ends with what it is meant to find: the columns that were asked for are all that is read
off the rows that the engine lets through. -/
theorem Realizes.answered_eq_found [LegibleScalar R] {plan : Plan R} {s : ClauseContext R}
    {contract : Contract R} {settings : Settings} {idField : String}
    (h : plan.Realizes s contract settings idField) {rows : List (Row R)}
    (hfinite : ∀ row ∈ rows, row.hasFiniteNumbers = true) :
    plan.answered rows = plan.found rows := by
  have hkept : ∀ row ∈ rows.filter plan.request.predicate.accepts,
      row.hasFiniteNumbers = true := fun row hrow => hfinite row (List.mem_of_mem_filter hrow)
  -- A reduced row keeps its identifier and all that the refinement reads.
  have hid : ∀ row : Row R, (row.project plan.request.columns).id? idField = row.id? idField :=
    fun row => Row.id?_project h.idField_mem_columns row
  rw [answered, reported, found, h.idField_eq]
  cases hr : plan.refinement with
  | none =>
    have haccepts : plan.accepts = plan.request.predicate.accepts := by
      funext row
      simp [accepts, hr]
    dsimp only
    rw [haccepts, Row.distinctIds, Row.distinctIds, Request.eraseDups_filterMap_reduced _ hkept hid]
  | some r =>
    obtain ⟨hfield, -⟩ := h.exact_eq hr
    have haccepts : plan.accepts =
        fun row => r.accepts row && plan.request.predicate.accepts row := by
      funext row
      rw [accepts, hr, Bool.and_comm]
      rfl
    dsimp only
    rw [haccepts, Refinement.ids, Row.distinctIds, Row.distinctIds, List.filterMap_filter, hfield,
      Request.eraseDups_filterMap_reduced _ hkept fun row => by rw [h.accepts_project hr, hid],
      ← List.filterMap_filter, List.filter_filter]

end Plan

end TransitQuery
