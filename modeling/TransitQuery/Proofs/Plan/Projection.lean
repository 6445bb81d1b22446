import TransitQuery.Proofs.Plan
import TransitQuery.Proofs.Scalar.Legible

/-!
# What is read of a row

The columns that a predicate lists are all that it reads, and it lists none twice. A plan that
refines asks for the identifier first and for every column that the exact form of its query lists.
So the rows may be reduced to what is asked for before they are refined
(`Plan.evaluate_project_columns`).

`Predicate.reads` collects the columns that the leaves of a predicate read, with repetitions, and
`Predicate.columns` lists each once. That nothing else is read is an induction over predicates
(`Predicate.evaluate_eq_of_agreeOn`), where two rows agree in a column if it holds the same in
both, or `null` in the one and nothing in the other.

The statement is about evaluation with its errors, not only about acceptance. A row whose geometry
cannot be read fails in the same way whether the row is reduced or not, and the refinement stops at
the same row; this is why `Plan.Realizes.ids_map_project` compares the two runs and not only what
they find.
-/

namespace TransitQuery

variable {R : Type}

private theorem Predicate.nodup_columns (p : Predicate R) : p.columns.Nodup :=
  nodup_eraseDups _

private theorem Predicate.mem_columns_iff {p : Predicate R} {column : String} :
    column ∈ p.columns ↔ column ∈ p.reads :=
  List.mem_eraseDups

private theorem Request.nodup_columns (r : Request R) : r.columns.Nodup :=
  nodup_eraseDups _

/-- The identifier is asked for first. -/
theorem Request.head?_columns (r : Request R) : r.columns.head? = some r.idField := by
  rw [columns, List.eraseDups_cons]
  rfl

variable [Scalar R]

/-- Rows that read alike in the columns of a predicate get the same answer. -/
theorem Predicate.evaluate_eq_of_agreeOn {p : Predicate R} {row row' : Row R}
    (h : Row.AgreeOn p.columns row row') : p.evaluate row = p.evaluate row' :=
  p.evaluate_congr fun column hcolumn => h column (mem_columns_iff.mpr hcolumn)

namespace Plan

/-- Refining reduced rows finds what refining the rows themselves would. -/
theorem Realizes.ids_map_project {plan : Plan R} {s : ClauseContext R} {contract : Contract R}
    {settings : Settings} {idField : String} (h : plan.Realizes s contract settings idField)
    {r : Refinement R} (hr : plan.refinement = some r) (rows : List (Row R)) :
    r.ids (rows.map (Row.project plan.request.columns)) = r.ids rows := by
  have haccepts : r.accepts ∘ Row.project plan.request.columns = r.accepts :=
    funext fun row => h.accepts_project hr row
  have hid : (Row.id? (R := R) idField) ∘ Row.project plan.request.columns = Row.id? idField :=
    funext fun row => Row.id?_project h.idField_mem_columns row
  rw [Refinement.ids, Refinement.ids, (h.exact_eq hr).1, Row.distinctIds, Row.distinctIds,
    List.filter_map, haccepts, List.filterMap_map, hid]

/-- What a predicate reads. Rows that agree in the columns that it lists, where a column that is
missing reads like one with `null`, get the same answer, failures included, and no column is listed
twice.

So a plan that refines asks for enough: for the identifier first, for no column twice, and for all
that the exact form reads. Every row is refined alike before and after it is reduced to what is
asked for, and the same identifiers are reported. -/
theorem evaluate_project_columns :
    (∀ (p : Predicate R) (row row' : Row R), Row.AgreeOn p.columns row row' →
      p.evaluate row = p.evaluate row') ∧
    (∀ p : Predicate R, p.columns.Nodup) ∧
    ∀ (contract : Contract R) (c : Context R) (settings : Settings) (plan : Plan R)
      (r : Refinement R), ofContract contract c settings = .ok plan → plan.refinement = some r →
        plan.request.columns.head? = c.serviceIdField ∧ plan.request.columns.Nodup ∧
        r.predicate.columns ⊆ plan.request.columns ∧
        (∀ row : Row R, r.predicate.evaluate (row.project plan.request.columns) =
          r.predicate.evaluate row) ∧
        ∀ rows : List (Row R), r.ids (rows.map (Row.project plan.request.columns)) =
          r.ids rows := by
  refine ⟨fun p row row' h => Predicate.evaluate_eq_of_agreeOn h, Predicate.nodup_columns, ?_⟩
  intro contract c settings plan r hplan hr
  obtain ⟨idField, s, hid, -, hrealizes⟩ := exists_realizes_of_ofContract hplan
  refine ⟨?_, Request.nodup_columns _, ?_, hrealizes.evaluate_project hr,
    hrealizes.ids_map_project hr⟩
  · rw [Request.head?_columns, hrealizes.idField_eq, hid]
  · intro column hcolumn
    exact hrealizes.reads_subset_columns hr (Predicate.mem_columns_iff.mp hcolumn)

/-- Routes within a kilometer, but no trains. -/
def quayContract : Contract FlatDouble where
  version := Contract.currentVersion
  find := .routes
  entries := [.main ⟨.selectedPoint, (1000 : Float), .within⟩,
    .supplement ⟨.excluded, .mode "Rail"⟩]
  boundary := none
  compiledAt := ⟨0, 0⟩
  context := ⟨true, false, false⟩
  hash := ""

/-- The point `(0, 0)`, and rows with boxes, modes and geometries. -/
def quayContext : Context FlatDouble :=
  { Context.empty with
    serviceIdField := some "service_id"
    bboxReady := true
    bboxFields := some BoxColumns.default
    geojsonField := some "geometry"
    modeField := some "mode"
    point := some ⟨(0 : Float), (0 : Float)⟩ }

/-- A quay of which it is not known who calls there. -/
def quay : Row FlatDouble :=
  let corner : Json FlatDouble := .real (0.0008 : Float)
  [("depth", .int 7),
    ("geometry", .obj [("type", .str "Point"), ("coordinates", .arr [corner, corner])]),
    ("maxx", corner), ("maxy", corner), ("minx", corner), ("miny", corner),
    ("service_id", .str "quay")]

/-- The boxes and the depth are left out, and the missing mode is filled with `null`. -/
theorem evaluate_project_columns_quay :
    ∃ plan r, ofContract quayContract quayContext Settings.default = .ok plan ∧
      plan.refinement = some r ∧
      (quay.project plan.request.columns).map Prod.fst = ["geometry", "mode", "service_id"] ∧
      Row.AgreeOn r.predicate.columns (quay.project plan.request.columns) quay ∧
      r.predicate.evaluate quay = .ok true ∧
      r.predicate.evaluate (quay.project plan.request.columns) = .ok true ∧
      r.ids [quay.project plan.request.columns] = r.ids [quay] := by
  have hplanned : (ofContract quayContract quayContext Settings.default).toOption.any
      fun plan => plan.request.columns = ["service_id", "geometry", "mode"] &&
        plan.refinement.any fun r => r.predicate.accepts quay := by
    decide +kernel
  obtain ⟨plan, hplan, h⟩ := (Option.any_eq_true _ _).mp hplanned
  obtain ⟨hcolumns, h⟩ := Bool.and_eq_true_iff.mp h
  obtain ⟨r, hr, haccepts⟩ := (Option.any_eq_true _ _).mp h
  have hplan := toOption_eq_some_iff.mp hplan
  have htrue := Predicate.accepts_eq_true_iff.mp haccepts
  obtain ⟨hcongr, -, hall⟩ := evaluate_project_columns (R := FlatDouble)
  obtain ⟨-, -, hsubset, -, hids⟩ := hall _ _ _ _ _ hplan hr
  have hagree := Row.agreeOn_project hsubset quay
  refine ⟨plan, r, hplan, hr, ?_, hagree, htrue, (hcongr _ _ _ hagree).trans htrue, hids [quay]⟩
  rw [of_decide_eq_true hcolumns]
  decide +kernel

end Plan

end TransitQuery
