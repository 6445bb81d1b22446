import TransitQuery.Proofs.Geometry.Finite
import TransitQuery.Proofs.Row
import TransitQuery.Store

/-!
# Rows of features

What the row of a feature holds, column by column: the value of the geometry stands in the column
for it, the corners of its box in their four columns, and every other column is a property of the
feature (`Row.cell?_ofFeature_of_ne`). So the row has the identifier of the feature, its geometry as
a cell reads it (`Row.geometry?_ofFeature`), and overlaps the boxes that the box of the geometry
intersects (`Row.boxOverlaps_ofFeature`). All of that rests on columns with different names.

A row is built by putting one cell after the other, and a cell that is put replaces the one of the
same name. So the proofs read each column through all the others that are put after it:
`Row.cell?_putNumber` says what one cell does, `Row.cell?_putBox_of_notMem` and
`Row.number?_putBox` what the four corners do, provided that their columns have different names,
and the last section puts these together. A corner that is not finite is not put, and the column
keeps the property of that name; the corners of a box in a text are always finite
(`Feature.isFinite_box?`), because the numbers of a text are.

A geometry that is given as a text is no GeoJSON. It is put into its column without a box, and the
evaluator may still read it there. `Feature.geometry?_eq_ofGeoJson` excludes just this case.
-/

namespace TransitQuery

variable {R : Type}

/-! ### Parts of a feature -/

namespace Feature

/-- The properties of a feature. -/
def properties (feature : Json R) : Row R :=
  ((feature.member? "properties").bind Json.members?).getD []

/-- The value that stands for the geometry of a feature, if there is one. -/
def geometryValue? (feature : Json R) : Option (Json R) :=
  (feature.member? "geometry").bind Json.nonNull?

variable [Scalar R]

/-- The geometry of a feature, if it can be read like a cell. -/
def geometry? (feature : Json R) : Option (Geometry R) :=
  (geometryValue? feature).bind fun v => (Geometry.ofCell v).toOption

/-- The box of the geometry of a feature, if that is GeoJSON and has positions. -/
def box? (feature : Json R) : Option (Box R) :=
  (geometryValue? feature).bind fun v => (Geometry.ofGeoJson v).toOption.bind Geometry.box?

/-- The box is the one of the value, if that is GeoJSON. -/
theorem box?_eq_of_geometryValue? {feature v : Json R} (h : geometryValue? feature = some v) :
    box? feature = (Geometry.ofGeoJson v).toOption.bind Geometry.box? := by
  rw [box?, h, Option.bind_some]

/-- A geometry that is not given as a text is the same in a cell as in GeoJSON. -/
theorem geometry?_eq_ofGeoJson {feature : Json R}
    (h : ∀ text, geometryValue? feature ≠ some (.str text)) :
    geometry? feature = (geometryValue? feature).bind fun v => (Geometry.ofGeoJson v).toOption := by
  unfold geometry?
  cases hv : geometryValue? feature with
  | none => rfl
  | some v =>
    cases v with
    | str text => exact absurd hv (h text)
    | _ => rfl

/-- The geometry of a feature in a text is in a text. -/
private theorem isHeld_geometryValue? {feature v : Json R} (h : feature.IsHeld)
    (hv : geometryValue? feature = some v) : v.IsHeld := by
  obtain ⟨w, hw, hnonNull⟩ := Option.bind_eq_some_iff.mp hv
  have hw := Json.isInherited_isHeld.of_member? h hw
  cases w with
  | null => cases hnonNull
  | _ =>
    obtain rfl := Option.some.inj hnonNull
    exact hw

/-- The box of a feature in a text has finite sides. -/
theorem isFinite_box? [SteadyScalar R] {feature : Json R} (h : feature.IsHeld) :
    ∀ b ∈ box? feature, b.isFinite = true := by
  intro b hb
  obtain ⟨v, hv, hb⟩ := Option.bind_eq_some_iff.mp hb
  obtain ⟨g, hg, hb⟩ := Option.bind_eq_some_iff.mp hb
  have hread := Geometry.isFinite_of_ofGeoJson (isHeld_geometryValue? h hv)
    (toOption_eq_some_iff.mp hg)
  exact Geometry.isFinite_of_box? g hread b hb

end Feature

namespace Row

variable [Scalar R]

/-! ### Putting cells into a row -/

/-- A number that is put is read back from its column, and others are left alone. -/
private theorem cell?_putNumber (row : Row R) (column : String) (x : R) (name : String) :
    (row.putNumber column x).cell? name =
      if Scalar.isFinite x = true ∧ column = name then some (.real x) else row.cell? name := by
  unfold putNumber cell?
  split
  · rename_i hx
    simp [Json.lookup_insertMember, hx]
  · rename_i hx
    simp [hx]

/-- The corners of a box are put into their own columns only. -/
private theorem cell?_putBox_of_notMem {columns : BoxColumns} {name : String}
    (h : name ∉ columns.names)
    (row : Row R) (b : Box R) : (row.putBox columns b).cell? name = row.cell? name := by
  simp only [BoxColumns.names, List.mem_cons, List.not_mem_nil, or_false, not_or] at h
  obtain ⟨h₁, h₂, h₃, h₄⟩ := h
  simp only [putBox, cell?_putNumber, Ne.symm h₁, Ne.symm h₂, Ne.symm h₃, Ne.symm h₄, and_false,
    if_false]

/-- The corners of a box read as the numbers that they are. -/
theorem number?_putBox {columns : BoxColumns} (hnodup : columns.names.Nodup) (row : Row R)
    {b : Box R} (hb : b.isFinite = true) :
    (row.putBox columns b).number? columns.minx = some b.minx ∧
      (row.putBox columns b).number? columns.miny = some b.miny ∧
      (row.putBox columns b).number? columns.maxx = some b.maxx ∧
      (row.putBox columns b).number? columns.maxy = some b.maxy := by
  obtain ⟨⟨hminx, hmaxx⟩, hminy, hmaxy⟩ := Box.isFinite_iff.mp hb
  simp only [BoxColumns.names, List.nodup_cons, List.mem_cons, List.not_mem_nil, or_false, not_or,
    not_false_eq_true, List.nodup_nil, and_true] at hnodup
  obtain ⟨⟨h₁, h₂, h₃⟩, ⟨h₄, h₅⟩, h₆⟩ := hnodup
  refine ⟨?_, ?_, ?_, ?_⟩
  · simp [number?, putBox, cell?_putNumber, Ne.symm h₁, Ne.symm h₂, Ne.symm h₃, hminx,
      Json.number?]
  · simp [number?, putBox, cell?_putNumber, Ne.symm h₄, Ne.symm h₅, hminy, Json.number?]
  · simp [number?, putBox, cell?_putNumber, Ne.symm h₆, hmaxx, Json.number?]
  · simp [number?, putBox, cell?_putNumber, hmaxy, Json.number?]

private theorem hasFiniteNumbers_putNumber {row : Row R} (h : row.hasFiniteNumbers = true)
    (column : String) (x : R) : (row.putNumber column x).hasFiniteNumbers = true := by
  unfold putNumber
  split
  · rename_i hx
    exact Json.membersHaveFiniteNumbers_insertMember hx h
  · exact h

/-! ### The row of a feature -/

/-- A feature with a geometry gives its properties, the corners of its box if it has one, and the
value of the geometry. -/
theorem ofFeature_of_geometryValue? {feature v : Json R} (columns : BoxColumns) (column : String)
    (h : Feature.geometryValue? feature = some v) :
    ofFeature columns column feature = Json.insertMember column v
      ((Feature.box? feature).elim (Feature.properties feature)
        ((Feature.properties feature).putBox columns)) := by
  have hgeometry : (feature.member? "geometry").bind Json.nonNull? = some v := h
  rw [ofFeature, hgeometry, Feature.box?_eq_of_geometryValue? h]
  dsimp only
  rw [putGeometry]
  cases (Geometry.ofGeoJson v).toOption.bind Geometry.box? <;> rfl

/-- A feature without a geometry gives its properties. -/
theorem ofFeature_of_geometryValue?_eq_none {feature : Json R} (columns : BoxColumns)
    (column : String) (h : Feature.geometryValue? feature = none) :
    ofFeature columns column feature = Feature.properties feature := by
  have hgeometry : (feature.member? "geometry").bind Json.nonNull? = none := h
  rw [ofFeature, hgeometry]
  rfl

section

variable {columns : BoxColumns} {column name : String} {feature : Json R}

/-- Every column of its own reads as the property of that name. -/
theorem cell?_ofFeature_of_ne (hname : name ≠ column) (hcolumns : name ∉ columns.names) :
    (ofFeature columns column feature).cell? name = (Feature.properties feature).cell? name := by
  cases hv : Feature.geometryValue? feature with
  | none => rw [ofFeature_of_geometryValue?_eq_none columns column hv]
  | some v =>
    rw [ofFeature_of_geometryValue? columns column hv, cell?, Json.lookup_insertMember,
      if_neg (Ne.symm hname)]
    cases Feature.box? feature with
    | none => rfl
    | some b => exact cell?_putBox_of_notMem hcolumns _ b

/-- The column of the geometry reads as the value of the geometry. -/
theorem cell?_ofFeature_self (hcolumn : (Feature.properties feature).cell? column = none) :
    (ofFeature columns column feature).cell? column = Feature.geometryValue? feature := by
  cases hv : Feature.geometryValue? feature with
  | none => rw [ofFeature_of_geometryValue?_eq_none columns column hv, hcolumn]
  | some v =>
    rw [ofFeature_of_geometryValue? columns column hv, cell?, Json.lookup_insertMember, if_pos rfl]

/-- The column of the geometry reads as the geometry of the feature. -/
theorem geometry?_ofFeature (hcolumn : (Feature.properties feature).cell? column = none) :
    Row.geometry? (ofFeature columns column feature) column = Feature.geometry? feature := by
  rw [Row.geometry?, cell?_ofFeature_self hcolumn, Feature.geometry?]

/-- The identifier of a row is that of its feature. -/
theorem id?_ofFeature (hname : name ≠ column) (hcolumns : name ∉ columns.names) :
    (ofFeature columns column feature).id? name = (Feature.properties feature).id? name := by
  rw [id?, cell?_ofFeature_of_ne hname hcolumns, id?]

/-- A column of the box reads as the corner of the box in it. -/
theorem number?_ofFeature (hcolumn : column ∉ columns.names) (hname : name ∈ columns.names) :
    (ofFeature columns column feature).number? name =
      number? ((Feature.box? feature).elim (Feature.properties feature)
        ((Feature.properties feature).putBox columns)) name := by
  cases hv : Feature.geometryValue? feature with
  | none =>
    have hbox : Feature.box? feature = none := by rw [Feature.box?, hv]; rfl
    rw [ofFeature_of_geometryValue?_eq_none columns column hv, hbox, Option.elim_none]
  | some v =>
    have hne : column ≠ name := fun h => hcolumn (h ▸ hname)
    rw [ofFeature_of_geometryValue? columns column hv, number?, cell?, Json.lookup_insertMember,
      if_neg hne]
    rfl

/-- A row overlaps the boxes that the box of its geometry intersects. -/
theorem boxOverlaps_ofFeature (hfinite : ∀ b ∈ Feature.box? feature, b.isFinite = true)
    (hnodup : columns.names.Nodup) (hcolumn : column ∉ columns.names)
    (hproperties : ∀ name ∈ columns.names, (Feature.properties feature).cell? name = none)
    (box : Box R) :
    (ofFeature columns column feature).boxOverlaps columns box =
      (Feature.box? feature).any (·.intersects box) := by
  have hminx : columns.minx ∈ columns.names := by simp [BoxColumns.names]
  have hminy : columns.miny ∈ columns.names := by simp [BoxColumns.names]
  have hmaxx : columns.maxx ∈ columns.names := by simp [BoxColumns.names]
  have hmaxy : columns.maxy ∈ columns.names := by simp [BoxColumns.names]
  rw [boxOverlaps, number?_ofFeature hcolumn hminx, number?_ofFeature hcolumn hminy,
    number?_ofFeature hcolumn hmaxx, number?_ofFeature hcolumn hmaxy]
  cases hbox : Feature.box? feature with
  -- without a box the columns are properties, and there is none of these names
  | none =>
    have hnumber : (Feature.properties feature).number? columns.minx = none := by
      rw [number?, hproperties _ hminx]
      rfl
    rw [Option.elim_none, hnumber]
    rfl
  | some b =>
    obtain ⟨h₁, h₂, h₃, h₄⟩ := number?_putBox hnodup (Feature.properties feature) (hfinite b hbox)
    rw [Option.elim_some, h₁, h₂, h₃, h₄]
    rfl

/-- The row of a feature in a text can be written to one. -/
theorem hasFiniteNumbers_ofFeature (hfeature : feature.IsHeld) (columns : BoxColumns)
    (column : String) : (ofFeature columns column feature).hasFiniteNumbers = true := by
  have hproperties : (Feature.properties feature).hasFiniteNumbers = true := by
    unfold Feature.properties
    cases hmembers : (feature.member? "properties").bind Json.members? with
    | none => rfl
    | some members =>
      obtain ⟨w, hw, hmembers⟩ := Option.bind_eq_some_iff.mp hmembers
      have hw := (Json.isInherited_isHeld.of_member? hfeature hw).hasFiniteNumbers
      cases w with
      | obj members' =>
        obtain rfl := Option.some.inj hmembers
        exact hw
      | _ => cases hmembers
  cases hv : Feature.geometryValue? feature with
  | none => rwa [ofFeature_of_geometryValue?_eq_none columns column hv]
  | some v =>
    rw [ofFeature_of_geometryValue? columns column hv]
    refine Json.membersHaveFiniteNumbers_insertMember
      (Feature.isHeld_geometryValue? hfeature hv).hasFiniteNumbers ?_
    cases Feature.box? feature with
    | none => exact hproperties
    | some b =>
      exact hasFiniteNumbers_putNumber (hasFiniteNumbers_putNumber (hasFiniteNumbers_putNumber
        (hasFiniteNumbers_putNumber hproperties _ _) _ _) _ _) _ _

end

end Row

end TransitQuery
