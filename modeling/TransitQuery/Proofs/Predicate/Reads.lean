import TransitQuery.Proofs.Predicate.Decided
import TransitQuery.Proofs.Row

/-!
# What a predicate reads

The columns that `Predicate.reads` lists are all that matters to a predicate, and of their cells
only the geometries and the numbers, and the texts where a column is compared with one
(`Predicate.evaluate_of_lookAlike`). In particular, rows that read alike in these columns get the
same answer, failures included (`Predicate.evaluate_congr`).

`Predicate.reads` names the columns leaf by leaf, with repetitions, and `Predicate.compared` names
those among them that are compared with a text. `Row.LookAlike` relates two rows by what such
columns look like to a predicate, which is coarser than to hold the same: a geometry may be given
in one row as an object and in the other as its text. Any two rows that agree cell by cell look
alike (`AgreeOn.lookAlike`).

The induction is over the predicate. A connective reads what its parts read, and the lists of its
parts are sublists of its own, which `LookAlike.mono` takes care of. The answers are the same with
their failures, because a leaf fails for what it looks at only.
-/

namespace TransitQuery

variable {R : Type}

namespace Predicate

mutual

/-- The columns that a predicate compares with a text. -/
def compared : Predicate R → List String
  | and l r | or l r => compared l ++ compared r
  | not p => compared p
  | anyOf members => memberCompared members
  | equals field _ => [field]
  | _ => []

/-- The columns that several predicates compare with a text. -/
def memberCompared : List (Predicate R) → List String
  | [] => []
  | p :: rest => compared p ++ memberCompared rest

end

mutual

/-- A column that is compared is read. -/
theorem compared_subset_reads (p : Predicate R) : p.compared ⊆ p.reads := by
  match p with
  | and l r | or l r =>
    exact List.append_subset.mpr
      ⟨List.subset_append_of_subset_left _ (compared_subset_reads l),
        List.subset_append_of_subset_right _ (compared_subset_reads r)⟩
  | not p => exact compared_subset_reads p
  | anyOf members => exact memberCompared_subset_memberReads members
  | equals _ _ => exact List.Subset.refl _
  | always | distanceWithin _ _ _ | intersectsBuffer _ _ _ | withinMeters _ _ _
  | boundary _ _ _ _ | boxOverlap _ _ => exact List.nil_subset _

private theorem memberCompared_subset_memberReads (ps : List (Predicate R)) :
    memberCompared ps ⊆ memberReads ps := by
  match ps with
  | [] => exact List.nil_subset _
  | p :: rest =>
    exact List.append_subset.mpr
      ⟨List.subset_append_of_subset_left _ (compared_subset_reads p),
        List.subset_append_of_subset_right _ (memberCompared_subset_memberReads rest)⟩

end

end Predicate

variable [Scalar R]

namespace Row

/-- The geometry of a row in a column is that of what is read there. -/
theorem geometry?_eq_read (row : Row R) (column : String) :
    row.geometry? column = (Geometry.ofCell (row.read column)).toOption := by
  unfold geometry? read
  cases row.cell? column <;> rfl

/-- Rows with the same geometries and numbers in some columns, and the same texts in others. -/
structure LookAlike (columns texts : List String) (row row' : Row R) : Prop where
  geometry : ∀ c ∈ columns, row.geometry? c = row'.geometry? c
  number : ∀ c ∈ columns, row.number? c = row'.number? c
  text : ∀ c ∈ texts, row.id? c = row'.id? c

variable {row row' : Row R} {columns columns' texts texts' : List String}

/-- Rows that look alike do so in fewer columns. -/
theorem LookAlike.mono (h : LookAlike columns texts row row') (hcolumns : columns' ⊆ columns)
    (htexts : texts' ⊆ texts) : LookAlike columns' texts' row row' where
  geometry c hc := h.geometry c (hcolumns hc)
  number c hc := h.number c (hcolumns hc)
  text c hc := h.text c (htexts hc)

private theorem AgreeOn.lookAlike (h : AgreeOn columns row row') (htexts : texts ⊆ columns) :
    LookAlike columns texts row row' where
  geometry c hc := by rw [geometry?_eq_read, geometry?_eq_read, h c hc]
  number c hc := by rw [number?_eq_read, number?_eq_read, h c hc]
  text c hc := by rw [id?_eq_read, id?_eq_read, h c (htexts hc)]

private theorem LookAlike.boxOverlaps_eq {columns : BoxColumns}
    (h : LookAlike columns.names texts row row') (box : Box R) :
    row.boxOverlaps columns box = row'.boxOverlaps columns box := by
  unfold boxOverlaps
  rw [h.number columns.minx (by simp [BoxColumns.names]),
    h.number columns.miny (by simp [BoxColumns.names]),
    h.number columns.maxx (by simp [BoxColumns.names]),
    h.number columns.maxy (by simp [BoxColumns.names])]

/-- They look alike to both parts of a connective. -/
theorem LookAlike.append {columns₂ texts₂ : List String}
    (h : LookAlike (columns ++ columns₂) (texts ++ texts₂) row row') :
    LookAlike columns texts row row' ∧ LookAlike columns₂ texts₂ row row' :=
  ⟨h.mono (List.subset_append_left _ _) (List.subset_append_left _ _),
    h.mono (List.subset_append_right _ _) (List.subset_append_right _ _)⟩

end Row

namespace Predicate

variable {row row' : Row R}

mutual

/-- Rows that look alike to a predicate get the same answer. -/
theorem evaluate_of_lookAlike (p : Predicate R)
    (h : Row.LookAlike p.reads p.compared row row') : p.evaluate row = p.evaluate row' := by
  match p with
  | always => rfl
  | and l r =>
    rw [evaluate, evaluate, evaluate_of_lookAlike l h.append.1, evaluate_of_lookAlike r h.append.2]
  | or l r =>
    rw [evaluate, evaluate, evaluate_of_lookAlike l h.append.1, evaluate_of_lookAlike r h.append.2]
  | not p => rw [evaluate, evaluate, evaluate_of_lookAlike p h]
  | anyOf members =>
    rw [evaluate, evaluate]
    exact evaluateAny_of_lookAlike members h
  | equals field value => rw [evaluate, evaluate, h.text field List.mem_cons_self]
  | distanceWithin field point radius =>
    rw [evaluate, evaluate, h.geometry field List.mem_cons_self]
  | intersectsBuffer field point radius =>
    rw [evaluate, evaluate, h.geometry field List.mem_cons_self]
  | withinMeters field point meters =>
    rw [evaluate, evaluate, h.geometry field List.mem_cons_self]
  | boundary relation field wkt buffer =>
    rw [evaluate, evaluate, boundaryHolds, boundaryHolds, h.geometry field List.mem_cons_self]
  | boxOverlap columns box => rw [evaluate, evaluate, h.boxOverlaps_eq]

/-- So it is with several predicates. -/
theorem evaluateAny_of_lookAlike (ps : List (Predicate R))
    (h : Row.LookAlike (memberReads ps) (memberCompared ps) row row') :
    evaluateAny row ps = evaluateAny row' ps := by
  match ps with
  | [] => rfl
  | p :: rest =>
    rw [evaluateAny, evaluateAny, evaluate_of_lookAlike p h.append.1,
      evaluateAny_of_lookAlike rest h.append.2]

end

/-- Rows that read alike in the columns of a predicate get the same answer. -/
theorem evaluate_congr (p : Predicate R) (h : Row.AgreeOn p.reads row row') :
    p.evaluate row = p.evaluate row' :=
  p.evaluate_of_lookAlike (h.lookAlike p.compared_subset_reads)

theorem accepts_congr {p : Predicate R} (h : Row.AgreeOn p.reads row row') :
    p.accepts row = p.accepts row' := by
  rw [accepts, accepts, evaluate_congr p h]

end Predicate

end TransitQuery
