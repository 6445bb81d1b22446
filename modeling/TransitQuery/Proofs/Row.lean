import TransitQuery.Proofs.Json.Legible
import TransitQuery.Row

/-!
# Reduced rows

A row that is reduced to some columns reads in each of them like the row itself
(`Row.read_project`), no matter how the row was sorted and whether it had the column. Its numbers
are finite if those of the row are.

A row is a list of members, and what it reads as in a column is the first member of that name, or
`null` (`Row.read`). `Row.project` puts a member for every column that it is reduced to, in the
order of their names and each once, so that a column which the row does not have is there with
`null` afterwards. Identifiers, numbers and geometries are functions of what is read
(`Row.id?_eq_read`, `Row.number?_eq_read`), and `Row.AgreeOn` is the relation of two rows that read
alike in several columns: this is all that later modules need of rows that have been reduced.
-/

namespace TransitQuery

variable {R : Type}

namespace Json

/-! ### Sorted members -/

/-- A member that is put in place is found under its name, and hides no other. -/
theorem lookup_insertMember (name k : String) (v : Json R) (members : List (String × Json R)) :
    lookup name (insertMember k v members) =
      if k = name then some v else lookup name members := by
  induction members with
  | nil => rfl
  | cons m rest ih =>
    obtain ⟨k', w⟩ := m
    rw [insertMember]
    split
    · rename_i h
      subst h
      by_cases hk : k = name
      · simp [lookup, hk]
      · simp [lookup, hk]
    split
    · rfl
    · rename_i hne _
      rw [lookup, ih, lookup]
      by_cases hk : k = name
      · subst hk
        simp [Ne.symm hne]
      · simp [hk]

/-- What is found among members that are put in place one after the other. -/
theorem lookup_foldl_insertMember (name : String) (read : String → Json R)
    (columns : List String) (sorted : List (String × Json R)) :
    lookup name ((columns.map fun c => (c, read c)).foldl
        (fun sorted m => insertMember m.1 m.2 sorted) sorted) =
      if name ∈ columns then some (read name) else lookup name sorted := by
  induction columns generalizing sorted with
  | nil => rfl
  | cons c columns ih =>
    rw [List.map_cons, List.foldl_cons, ih, lookup_insertMember]
    -- a column that is named again is put in place again, with the same value
    by_cases hmem : name ∈ columns
    · simp [hmem]
    · by_cases hc : c = name
      · simp [hc]
      · simp [hmem, hc, Ne.symm hc]

/-! ### Finite numbers -/

variable [Scalar R]

/-- Finite numbers stay finite when a member with finite numbers is put in place. -/
theorem membersHaveFiniteNumbers_insertMember {k : String} {v : Json R}
    {members : List (String × Json R)} (hv : v.hasFiniteNumbers = true)
    (h : membersHaveFiniteNumbers members = true) :
    membersHaveFiniteNumbers (insertMember k v members) = true := by
  induction members with
  | nil => exact Bool.and_eq_true_iff.mpr ⟨hv, rfl⟩
  | cons m rest ih =>
    obtain ⟨k', w⟩ := m
    obtain ⟨hw, hrest⟩ := Bool.and_eq_true_iff.mp h
    rw [insertMember]
    split
    · exact Bool.and_eq_true_iff.mpr ⟨hv, hrest⟩
    split
    · exact Bool.and_eq_true_iff.mpr ⟨hv, h⟩
    · exact Bool.and_eq_true_iff.mpr ⟨hw, ih hrest⟩

private theorem membersHaveFiniteNumbers_sortMembers {members : List (String × Json R)}
    (h : ∀ m ∈ members, m.2.hasFiniteNumbers = true) :
    membersHaveFiniteNumbers (sortMembers members) = true := by
  refine List.foldlRecOn (motive := fun sorted => membersHaveFiniteNumbers sorted = true) members
    _ rfl fun sorted hsorted m hm => ?_
  exact membersHaveFiniteNumbers_insertMember (h m hm) hsorted

/-- What is found among members has finite numbers if they do. -/
private theorem hasFiniteNumbers_of_lookup {name : String} {v : Json R}
    {members : List (String × Json R)} (h : membersHaveFiniteNumbers members = true)
    (hv : lookup name members = some v) : v.hasFiniteNumbers = true := by
  induction members with
  | nil => cases hv
  | cons m rest ih =>
    obtain ⟨k, w⟩ := m
    obtain ⟨hw, hrest⟩ := Bool.and_eq_true_iff.mp h
    rw [lookup] at hv
    split at hv
    · cases hv
      exact hw
    · exact ih hrest hv

end Json

namespace Row

/-- What a row reads as in a column: a column that is missing reads like one with `null`. -/
def read (row : Row R) (column : String) : Json R :=
  (row.cell? column).getD .null

/-- A reduced row reads like the row, in each column that it was reduced to. -/
theorem read_project {columns : List String} {column : String} (h : column ∈ columns)
    (row : Row R) : (row.project columns).read column = row.read column := by
  unfold read cell? project Json.sortMembers
  rw [Json.lookup_foldl_insertMember, if_pos h]
  rfl

/-- Two rows read alike in several columns. -/
def AgreeOn (columns : List String) (row row' : Row R) : Prop :=
  ∀ c ∈ columns, row.read c = row'.read c

theorem agreeOn_project {columns columns' : List String} (h : columns' ⊆ columns) (row : Row R) :
    AgreeOn columns' (row.project columns) row :=
  fun _ hc => read_project (h hc) row

variable [Scalar R]

/-- Whether all numbers in a row are finite. JSON text has no others. -/
def hasFiniteNumbers (row : Row R) : Bool :=
  Json.membersHaveFiniteNumbers row

/-- What is read of a row has finite numbers if the row has. -/
theorem hasFiniteNumbers_read {row : Row R} (h : row.hasFiniteNumbers = true) (column : String) :
    (row.read column).hasFiniteNumbers = true := by
  unfold read
  cases hcell : row.cell? column with
  | none => rfl
  | some v => exact Json.hasFiniteNumbers_of_lookup h hcell

theorem hasFiniteNumbers_project {row : Row R} (h : row.hasFiniteNumbers = true)
    (columns : List String) : (row.project columns).hasFiniteNumbers = true := by
  refine Json.membersHaveFiniteNumbers_sortMembers fun m hm => ?_
  obtain ⟨c, -, rfl⟩ := List.mem_map.mp hm
  exact hasFiniteNumbers_read h c

/-! ### What is read -/

/-- The identifier of a row is the text of what is read. -/
theorem id?_eq_read (row : Row R) (column : String) :
    row.id? column = idText? (row.read column) := by
  unfold id? read
  cases row.cell? column <;> rfl

/-- A reduced row keeps the identifier in a column that it keeps. -/
theorem id?_project {columns : List String} {column : String} (h : column ∈ columns)
    (row : Row R) : (row.project columns).id? column = row.id? column := by
  rw [id?_eq_read, read_project h, id?_eq_read]

/-- The number in a column is what is read as a number. -/
theorem number?_eq_read (row : Row R) (column : String) :
    row.number? column = (row.read column).number? := by
  unfold number? read
  cases row.cell? column <;> rfl

end Row

end TransitQuery
