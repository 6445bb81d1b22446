import TransitQuery.Predicate.Json
import TransitQuery.Proofs.Plan.Finite
import TransitQuery.Proofs.Query.Wire

/-!
# Predicates are read back

The codec of predicates is lawful for those with finite numbers that are not nested too deeply. What
a node adds to the depth of its members is two levels, one for the braces and one for the brackets,
except for a negation, which has no brackets (`Predicate.nesting`). Since that is just the depth of
the text, a predicate that is read is never nested more deeply than the reader allows.

A predicate is written as an object with one member, whose name tells the constructor. A node holds
its members in an array, a leaf holds a record of its parts. Three of the leaves compare the
geometry in a column with a point and differ in their names only, so they are treated as one
(`Predicate.IsPointLeaf`).

* `Predicate.ofJson?_toJson`: reading back, by `Predicate.inductionOn`. What is read at a node is
  read from the members, which come back by the hypothesis, and the name tells which node to make
  of them.
* `Predicate.fits_toJson`: what is written fits as many levels as `Predicate.IsWritable` allows.
* `Predicate.mapReals?_toJson`: to replace the numbers of a predicate is to replace those in what
  it is written as.
* `Predicate.isWritable_of_ofJson?`: whatever is read is writable. Here the induction is over the
  value, because the reader takes several forms of one predicate, records by name and by position
  among them.

Together these are the laws of the codec. The last theorem adds the text, where two things can go
wrong: a number that is not read as itself, and more than 127 levels.
-/

namespace TransitQuery

variable {R : Type}

/-- A relation is read from its name. -/
theorem SpatialRelation.ofName?_name (r : SpatialRelation) : ofName? r.name = some r := by
  cases r <;> decide

/-! ### Boxes -/

namespace Box

variable [Scalar R]

/-- A box with its sides replaced. -/
def mapReals? (f : R → Option R) (b : Box R) : Option (Box R) := do
  let minx ← f b.minx
  let miny ← f b.miny
  let maxx ← f b.maxx
  let maxy ← f b.maxy
  return { minx, miny, maxx, maxy }

/-- The codec of boxes. -/
def codec : Codec R (Box R) where
  shape := .ofNames ["minx", "miny", "maxx", "maxy"]
  ofJson? := ofJson?
  toJson := toJson
  mapReals? := mapReals?

/-- The values of the fields of a box. -/
def fields (b : Box R) : List (String × Option (Json R)) :=
  [("minx", some (Json.ofScalar b.minx)), ("miny", some (Json.ofScalar b.miny)),
    ("maxx", some (Json.ofScalar b.maxx)), ("maxy", some (Json.ofScalar b.maxy))]

/-- A box is a record of its four sides. -/
theorem isRecord_toJson (b : Box R) : b.toJson.IsRecord b.fields := rfl

/-- The codec of boxes is lawful for finite ones. -/
theorem isLawful [SteadyScalar R] (depth : Nat) :
    (codec (R := R)).IsLawful (depth + 1) fun b => b.isFinite = true where
  holds_of_ofJson? {v b} hfits h := by
    obtain ⟨vs, hvs, h⟩ := Option.bind_eq_some_iff.mp h
    obtain _ | ⟨hminx, _ | ⟨hminy, _ | ⟨hmaxx, _ | ⟨hmaxy, _ | _⟩⟩⟩⟩ :=
      hfits.of_fields? (by decide) hvs
    simp only [Option.bind_eq_bind, Option.bind_eq_some_iff] at h
    obtain ⟨minx, h₁, miny, h₂, maxx, h₃, maxy, h₄, heq⟩ := h
    obtain rfl := Option.some.inj heq
    have hread := Json.reads_number? (R := R) .any depth
    exact isFinite_iff.mpr ⟨⟨hread.required hminx h₁, hread.required hmaxx h₃⟩,
      hread.required hminy h₂, hread.required hmaxy h₄⟩
  ofJson?_toJson {b} hb := by
    obtain ⟨⟨h₁, h₃⟩, h₂, h₄⟩ := isFinite_iff.mp hb
    have hfields : b.toJson.fields? ["minx", "miny", "maxx", "maxy"] = some (b.fields.map (·.2)) :=
      b.isRecord_toJson.fields?_eq rfl (by decide)
    simp [codec, ofJson?, hfields, fields, Json.required, Json.number?_ofScalar h₁,
      Json.number?_ofScalar h₂, Json.number?_ofScalar h₃, Json.number?_ofScalar h₄]
  fits {b} _ := b.isRecord_toJson.fits (by simp [fields])
  keeps b := b.isRecord_toJson.keeps_ofNames rfl
  mapReals?_toJson {f b} hf hb := by
    obtain ⟨⟨h₁, h₃⟩, h₂, h₄⟩ := isFinite_iff.mp hb
    refine b.isRecord_toJson.mapReals?_eq.trans ?_
    simp only [fields, Json.mapFields?, Option.mapM_some, Json.mapReals?_ofScalar hf h₁,
      Json.mapReals?_ofScalar hf h₂, Json.mapReals?_ofScalar hf h₃, Json.mapReals?_ofScalar hf h₄,
      codec, mapReals?]
    cases f b.minx with
    | none => rfl
    | some minx =>
      cases f b.miny with
      | none => rfl
      | some miny =>
        cases f b.maxx with
        | none => rfl
        | some maxx => cases f b.maxy <;> rfl
  holds_mapReals? {f b b'} hf _ h := by
    obtain ⟨minx, h₁, h⟩ := Option.bind_eq_some_iff.mp h
    obtain ⟨miny, h₂, h⟩ := Option.bind_eq_some_iff.mp h
    obtain ⟨maxx, h₃, h⟩ := Option.bind_eq_some_iff.mp h
    obtain ⟨maxy, h₄, heq⟩ := Option.bind_eq_some_iff.mp h
    obtain rfl := Option.some.inj heq
    exact isFinite_iff.mpr ⟨⟨hf _ _ h₁, hf _ _ h₃⟩, hf _ _ h₂, hf _ _ h₄⟩

end Box

namespace Json

variable [Scalar R] {depth : Nat}

private theorem exists_depth_of_any {inner : Nat} (h : Shape.any.depthInside? depth = some inner) :
    depth = inner + 1 := by
  cases depth with
  | zero => cases h
  | succ n => rw [Option.some.inj h]

/-- An object takes a level, and its members have the rest. -/
private theorem Fits.exists_of_obj {members : List (String × Json R)}
    (h : (obj members).Fits .any depth) :
    ∃ inner, depth = inner + 1 ∧ MembersFit .any inner members := by
  obtain ⟨inner, hinner, hmembers⟩ := h
  exact ⟨inner, exists_depth_of_any hinner, hmembers⟩

private theorem Fits.exists_of_arr {items : List (Json R)}
    (h : (arr items).Fits .any depth) : ∃ inner, depth = inner + 1 ∧ ItemsFit .any inner items := by
  obtain ⟨inner, hinner, hitems⟩ := h
  exact ⟨inner, exists_depth_of_any hinner, hitems⟩

/-- A record takes a level. -/
theorem Fits.exists_of_fields? {v : Json R} (hfits : v.Fits .any depth) {names : List String}
    {vs : List (Option (Json R))} (h : v.fields? names = some vs) : ∃ inner, depth = inner + 1 := by
  cases v with
  | obj members =>
    obtain ⟨inner, hinner, -⟩ := hfits.exists_of_obj
    exact ⟨inner, hinner⟩
  | arr items =>
    obtain ⟨inner, hinner, -⟩ := hfits.exists_of_arr
    exact ⟨inner, hinner⟩
  | _ => cases h

end Json

/-- All fields of a record that is given by name are found. -/
theorem Json.uniqueMembers?_present_all {fields : List (String × Option (Json R))}
    {names : List String} (hnames : fields.map (·.1) = names) (hnodup : names.Nodup) :
    uniqueMembers? (present fields) names = some (fields.map (·.2)) := by
  subst hnames
  exact uniqueMembers?_present hnodup (List.Subset.refl _)

namespace Predicate

/-! ### Leaves that compare with a point -/

/-- The leaves that compare the geometry in a column with a point, each with its name and the name
of its radius. -/
inductive IsPointLeaf : (String → LatLng R → R → Predicate R) → String → String → Prop
  | distanceWithin : IsPointLeaf .distanceWithin "distance_within" "radius"
  | intersectsBuffer : IsPointLeaf .intersectsBuffer "intersects_buffer" "radius"
  | withinMeters : IsPointLeaf .withinMeters "within_meters" "meters"

/-- What holds of leaves, and of a node as soon as it holds of its members, holds of every
predicate. -/
theorem inductionOn {P : Predicate R → Prop} (always : P .always)
    (and : ∀ l r, P l → P r → P (.and l r)) (or : ∀ l r, P l → P r → P (.or l r))
    (not : ∀ p, P p → P (.not p)) (anyOf : ∀ members, (∀ p ∈ members, P p) → P (.anyOf members))
    (equals : ∀ field value, P (.equals field value))
    (pointLeaf : ∀ make name radiusName, IsPointLeaf make name radiusName →
      ∀ field point radius, P (make field point radius))
    (boundary : ∀ relation field wkt buffer, P (.boundary relation field wkt buffer))
    (boxOverlap : ∀ columns box, P (.boxOverlap columns box)) (p : Predicate R) : P p :=
  -- The recursor keeps apart the three leaves with a point, and has a motive for lists of members.
  @Predicate.rec R P (fun members => ∀ p ∈ members, P p) always and or not anyOf equals
    (pointLeaf _ _ _ .distanceWithin) (pointLeaf _ _ _ .intersectsBuffer)
    (pointLeaf _ _ _ .withinMeters) boundary boxOverlap (List.forall_mem_nil P)
    (fun _ _ hp hrest => List.forall_mem_cons.mpr ⟨hp, hrest⟩) p

/-! ### Depth -/

mutual

/-- How deeply braces and brackets nest in what a predicate is written as. -/
def nesting : Predicate R → Nat
  | always => 0
  | and l r | or l r => max (nesting l) (nesting r) + 2
  | not p => nesting p + 1
  | anyOf members => memberNesting members + 2
  | equals _ _ | boundary _ _ _ _ => 2
  | distanceWithin _ _ _ | intersectsBuffer _ _ _ | withinMeters _ _ _ | boxOverlap _ _ => 3

/-- How deeply they nest in any of several predicates. -/
def memberNesting : List (Predicate R) → Nat
  | [] => 0
  | p :: rest => max (nesting p) (memberNesting rest)

end

/-- Several predicates nest as deeply as the deepest of them. -/
theorem memberNesting_le_iff {ps : List (Predicate R)} {n : Nat} :
    memberNesting ps ≤ n ↔ ∀ p ∈ ps, p.nesting ≤ n := by
  induction ps with
  | nil => simp [memberNesting]
  | cons p rest ih => rw [memberNesting, max_le_iff, ih, List.forall_mem_cons]

/-- Such a leaf takes three levels, with the coordinates of its point. -/
private theorem IsPointLeaf.nesting_eq {make : String → LatLng R → R → Predicate R}
    {name radiusName : String} (h : IsPointLeaf make name radiusName) (field : String)
    (point : LatLng R) (radius : R) : (make field point radius).nesting = 3 := by
  cases h <;> rfl

variable [Scalar R]

/-! ### Predicates that a text can hold -/

theorem IsPointLeaf.finiteNumbers_iff {make : String → LatLng R → R → Predicate R}
    {name radiusName : String} (h : IsPointLeaf make name radiusName) {field : String}
    {point : LatLng R} {radius : R} :
    (make field point radius).hasFiniteNumbers = true ↔
      point.isFinite = true ∧ Scalar.isFinite radius = true := by
  have hnumbers : (make field point radius).numbers = [point.lng, point.lat, radius] := by
    cases h <;> rfl
  simp only [hasFiniteNumbers, hnumbers, LatLng.isFinite, List.all_cons, List.all_nil,
    Bool.and_true, Bool.and_eq_true]
  tauto

/-- A predicate with finite numbers that takes at most some levels. -/
structure IsWritable (depth : Nat) (p : Predicate R) : Prop where
  hasFiniteNumbers : p.hasFiniteNumbers = true
  nesting_le : p.nesting ≤ depth

namespace IsWritable

variable {depth : Nat} {p l r : Predicate R} {ps : List (Predicate R)}

/-- The levels that a predicate takes are there. -/
private theorem exists_depth (h : p.IsWritable depth) {n : Nat} (hn : n ≤ p.nesting) :
    ∃ inner, depth = inner + n :=
  Nat.exists_eq_add_of_le' (hn.trans h.nesting_le)

/-- A conjunction takes two levels more than its parts. -/
private theorem and_iff : (Predicate.and l r).IsWritable (depth + 2) ↔
    l.IsWritable depth ∧ r.IsWritable depth := by
  constructor
  · rintro ⟨hfinite, hnesting⟩
    obtain ⟨hl, hr⟩ := hasFiniteNumbers_and.mp hfinite
    rw [nesting] at hnesting
    exact ⟨⟨hl, by omega⟩, hr, by omega⟩
  · rintro ⟨⟨hl, hl'⟩, hr, hr'⟩
    refine ⟨hasFiniteNumbers_and.mpr ⟨hl, hr⟩, ?_⟩
    rw [nesting]
    omega

private theorem or_iff : (Predicate.or l r).IsWritable (depth + 2) ↔
    l.IsWritable depth ∧ r.IsWritable depth :=
  ⟨fun h => and_iff.mp ⟨h.1, h.2⟩, fun h => ⟨(and_iff.mpr h).1, (and_iff.mpr h).2⟩⟩

private theorem not_iff : (Predicate.not p).IsWritable (depth + 1) ↔ p.IsWritable depth :=
  ⟨fun h => ⟨h.1, Nat.le_of_succ_le_succ h.2⟩, fun h => ⟨h.1, Nat.succ_le_succ h.2⟩⟩

private theorem anyOf_iff : (anyOf ps).IsWritable (depth + 2) ↔ ∀ p ∈ ps, p.IsWritable depth := by
  constructor
  · rintro ⟨hfinite, hnesting⟩ p hp
    rw [nesting, Nat.add_le_add_iff_right] at hnesting
    exact ⟨hasFiniteNumbers_anyOf.mp hfinite p hp, memberNesting_le_iff.mp hnesting p hp⟩
  · intro h
    refine ⟨hasFiniteNumbers_anyOf.mpr fun p hp => (h p hp).1, ?_⟩
    rw [nesting, Nat.add_le_add_iff_right]
    exact memberNesting_le_iff.mpr fun p hp => (h p hp).2

end IsWritable

/-! ### Lists of predicates -/

omit [Scalar R] in
/-- A list is made of any number of members. -/
private theorem node?_anyOf (ps : List (Predicate R)) : node? "any_of" ps = some (anyOf ps) := by
  unfold node?
  split <;> rfl

private theorem membersToJson_eq_map (ps : List (Predicate R)) :
    membersToJson ps = ps.map toJson := by
  induction ps with
  | nil => rfl
  | cons p rest ih => rw [membersToJson, ih, List.map_cons]

private theorem ofItems?_eq_mapM (items : List (Json R)) : ofItems? items = items.mapM ofJson? := by
  induction items with
  | nil => rfl
  | cons v rest ih => rw [ofItems?, ih, List.mapM_cons]

/-! ### The parts of leaves -/

/-- The three leaves are written alike, up to two names. -/
private theorem IsPointLeaf.toJson_eq {make : String → LatLng R → R → Predicate R}
    {name radiusName : String} (h : IsPointLeaf make name radiusName) (field : String)
    (point : LatLng R) (radius : R) :
    (make field point radius).toJson =
      tagged name (pointContent field point radiusName radius) := by
  cases h <;> rfl

/-- The values of the parts of a leaf that compares with a point. -/
def pointFields (field : String) (point : LatLng R) (radiusName : String) (radius : R) :
    List (String × Option (Json R)) :=
  [("field", some (.str field)), ("point", some point.toJson),
    (radiusName, some (Json.ofScalar radius))]

private theorem isRecord_pointContent (field : String) (point : LatLng R) (radiusName : String)
    (radius : R) : (pointContent field point radiusName radius).IsRecord
      (pointFields field point radiusName radius) := rfl

/-- The values of the parts of a leaf that compares with a boundary. -/
def boundaryFields (relation : SpatialRelation) (field wkt : String) (buffer : R) :
    List (String × Option (Json R)) :=
  [("relation", some (.str relation.name)), ("field", some (.str field)), ("wkt", some (.str wkt)),
    ("buffer", some (Json.ofScalar buffer))]

private theorem isRecord_boundaryContent (relation : SpatialRelation) (field wkt : String)
    (buffer : R) :
    (Json.obj [("relation", .str relation.name), ("field", .str field), ("wkt", .str wkt),
      ("buffer", Json.ofScalar buffer)]).IsRecord (boundaryFields relation field wkt buffer) := rfl

/-- The values of the parts of a leaf that compares with a box. -/
def boxFields (columns : BoxColumns) (box : Box R) : List (String × Option (Json R)) :=
  [("fields", some columns.toJson), ("bbox", some box.toJson)]

private theorem isRecord_boxContent (columns : BoxColumns) (box : Box R) :
    (Json.obj [("fields", columns.toJson), ("bbox", box.toJson)]).IsRecord
      (boxFields columns box) := rfl

/-! ### Reading what is written -/

section

variable [SteadyScalar R]

/-- The parts of a leaf that compares with a point are read back. -/
private theorem pointLeaf?_content {make : String → LatLng R → R → Predicate R}
    {radiusName : String}
    (hname : ["field", "point", radiusName].Nodup) {field : String} {point : LatLng R} {radius : R}
    (hpoint : point.isFinite = true) (hradius : Scalar.isFinite radius = true) :
    pointLeaf? make radiusName (Json.present (pointFields field point radiusName radius)) =
      some (make field point radius) := by
  have hfields : Json.uniqueMembers? (Json.present (pointFields field point radiusName radius))
      ["field", "point", radiusName] =
        some [some (.str field), some point.toJson, some (Json.ofScalar radius)] :=
    Json.uniqueMembers?_present_all rfl hname
  have hread : LatLng.ofJson? point.toJson = some point := (LatLng.isLawful 0).ofJson?_toJson hpoint
  simp [pointLeaf?, hfields, Json.required, Json.string?, hread, Json.number?_ofScalar hradius]

theorem IsPointLeaf.ofJson?_toJson {make : String → LatLng R → R → Predicate R}
    {name radiusName : String} (h : IsPointLeaf make name radiusName) {field : String}
    {point : LatLng R} {radius : R} (hfinite : (make field point radius).hasFiniteNumbers = true) :
    ofJson? (make field point radius).toJson = some (make field point radius) := by
  obtain ⟨hpoint, hradius⟩ := h.finiteNumbers_iff.mp hfinite
  cases h <;> exact pointLeaf?_content (by decide) hpoint hradius

omit [SteadyScalar R] in
/-- A test of a boundary is read back, its text as it stands. -/
private theorem ofJson?_boundary {relation : SpatialRelation} {field wkt : String} {buffer : R}
    (hbuffer : Scalar.isFinite buffer = true) :
    ofJson? (boundary relation field wkt buffer).toJson =
      some (boundary relation field wkt buffer) := by
  have hfields : Json.uniqueMembers? (Json.present (boundaryFields relation field wkt buffer))
      ["relation", "field", "wkt", "buffer"] = some [some (.str relation.name), some (.str field),
        some (.str wkt), some (Json.ofScalar buffer)] :=
    Json.uniqueMembers?_present_all rfl (by decide)
  change boundaryLeaf? (Json.present (boundaryFields relation field wkt buffer)) = _
  simp [boundaryLeaf?, hfields, Json.required, Json.string?, SpatialRelation.ofJson?, Json.choice?,
    SpatialRelation.ofName?_name, Json.number?_ofScalar hbuffer]

private theorem ofJson?_boxOverlap {columns : BoxColumns} {box : Box R}
    (hbox : box.isFinite = true) :
    ofJson? (boxOverlap columns box).toJson = some (boxOverlap columns box) := by
  have hfields : Json.uniqueMembers? (Json.present (boxFields columns box)) ["fields", "bbox"] =
      some [some columns.toJson, some box.toJson] :=
    Json.uniqueMembers?_present_all rfl (by decide)
  have hcolumns : BoxColumns.ofJson? (columns.toJson : Json R) = some columns :=
    (BoxColumns.isLawful 0).ofJson?_toJson trivial
  have hread : Box.ofJson? box.toJson = some box := (Box.isLawful 0).ofJson?_toJson hbox
  change boxLeaf? (Json.present (boxFields columns box)) = _
  simp [boxLeaf?, hfields, Json.required, hcolumns, hread]

/-- Within JSON values a predicate with finite numbers comes back. -/
theorem ofJson?_toJson {p : Predicate R} (h : p.hasFiniteNumbers = true) :
    ofJson? p.toJson = some p := by
  induction p using inductionOn with
  | always => rfl
  | and l r ihl ihr =>
    obtain ⟨hl, hr⟩ := hasFiniteNumbers_and.mp h
    simp [toJson, tagged, ofJson?, ofMembers?, ofItems?, node?, ihl hl, ihr hr]
  | or l r ihl ihr =>
    obtain ⟨hl, hr⟩ := hasFiniteNumbers_or.mp h
    simp [toJson, tagged, ofJson?, ofMembers?, ofItems?, node?, ihl hl, ihr hr]
  | not p ih => simp [toJson, tagged, ofJson?, ofMembers?, ih h]
  | anyOf members ih =>
    have hmembers : ofItems? (membersToJson members) = some members := by
      rw [ofItems?_eq_mapM, membersToJson_eq_map]
      exact Json.listOf?_map fun p hp => ih p hp (hasFiniteNumbers_anyOf.mp h p hp)
    simp [toJson, tagged, ofJson?, ofMembers?, hmembers, node?_anyOf]
  | equals field value =>
    simp [toJson, tagged, ofJson?, ofMembers?, leaf?, equalsLeaf?, Json.uniqueMembers?,
      Json.uniqueMember?, Json.required, Json.string?]
  | pointLeaf make name radiusName hleaf field point radius => exact hleaf.ofJson?_toJson h
  | boundary relation field wkt buffer =>
    exact ofJson?_boundary (by simpa [hasFiniteNumbers, numbers] using h)
  | boxOverlap columns box =>
    exact ofJson?_boxOverlap (by rwa [hasFiniteNumbers_boxOverlap] at h)

/-! ### Room for what is written -/

omit [SteadyScalar R] in
/-- The braces around a content take a level. -/
private theorem fits_tagged {depth : Nat} {name : String} {content : Json R}
    (h : content.Fits .any depth) : (tagged name content).Fits .any (depth + 1) :=
  Json.fits_obj fun _ hm => List.mem_singleton.mp hm ▸ h

/-- What is written fits as many levels as the predicate takes. -/
private theorem fits_toJson {p : Predicate R} {depth : Nat} (h : p.IsWritable depth) :
    p.toJson.Fits .any depth := by
  -- The depth is general, as the members of a node have less of it than the node.
  induction p using inductionOn generalizing depth with
  | always => trivial
  | and l r ihl ihr | or l r ihl ihr =>
    obtain ⟨depth, rfl⟩ := h.exists_depth (Nat.le_add_left 2 _)
    obtain ⟨hl, hr⟩ := IsWritable.and_iff.mp ⟨h.1, h.2⟩
    exact fits_tagged (Json.fits_arr (by simp [ihl hl, ihr hr]))
  | not p ih =>
    obtain ⟨depth, rfl⟩ := h.exists_depth (Nat.le_add_left 1 _)
    exact fits_tagged (ih (IsWritable.not_iff.mp h))
  | anyOf members ih =>
    obtain ⟨depth, rfl⟩ := h.exists_depth (Nat.le_add_left 2 _)
    rw [toJson, membersToJson_eq_map]
    exact fits_tagged (Json.fits_arr (List.forall_mem_map.mpr fun p hp =>
      ih p hp (IsWritable.anyOf_iff.mp h p hp)))
  | equals field value =>
    obtain ⟨depth, rfl⟩ := h.exists_depth (le_refl 2)
    exact fits_tagged (Json.fits_obj (by simp))
  | pointLeaf make name radiusName hleaf field point radius =>
    obtain ⟨depth, rfl⟩ := h.exists_depth (hleaf.nesting_eq field point radius).ge
    obtain ⟨hpoint, -⟩ := hleaf.finiteNumbers_iff.mp h.1
    have hfits : point.toJson.Fits .any (depth + 1) := (LatLng.isLawful depth).fits hpoint
    rw [hleaf.toJson_eq]
    exact fits_tagged ((isRecord_pointContent field point radiusName radius).fits
      (by simp [pointFields, hfits]))
  | boundary relation field wkt buffer =>
    obtain ⟨depth, rfl⟩ := h.exists_depth (le_refl 2)
    exact fits_tagged ((isRecord_boundaryContent relation field wkt buffer).fits
      (by simp [boundaryFields]))
  | boxOverlap columns box =>
    obtain ⟨depth, rfl⟩ := h.exists_depth (le_refl 3)
    have hbox := h.1
    rw [hasFiniteNumbers_boxOverlap] at hbox
    have hfits : box.toJson.Fits .any (depth + 1) := (Box.isLawful depth).fits hbox
    have hcolumns : (columns.toJson : Json R).Fits .any (depth + 1) :=
      (BoxColumns.isLawful depth).fits trivial
    exact fits_tagged ((isRecord_boxContent columns box).fits
      (by simp [boxFields, hcolumns, hfits]))

/-! ### Replacing numbers -/

mutual

/-- A predicate with each number replaced by what it is taken to, if each is taken to something. -/
def mapReals? (f : R → Option R) : Predicate R → Option (Predicate R)
  | always => some always
  | and l r => (mapReals? f l).bind fun l => (mapReals? f r).map (and l)
  | or l r => (mapReals? f l).bind fun l => (mapReals? f r).map (or l)
  | not p => (mapReals? f p).map not
  | anyOf members => (mapMembers? f members).map anyOf
  | equals field value => some (equals field value)
  | distanceWithin field point radius =>
    (point.mapReals? f).bind fun point => (f radius).map (distanceWithin field point)
  | intersectsBuffer field point radius =>
    (point.mapReals? f).bind fun point => (f radius).map (intersectsBuffer field point)
  | withinMeters field point meters =>
    (point.mapReals? f).bind fun point => (f meters).map (withinMeters field point)
  | boundary relation field wkt buffer => (f buffer).map (boundary relation field wkt)
  | boxOverlap columns box => (box.mapReals? f).map (boxOverlap columns)

/-- Several predicates with each number replaced. -/
def mapMembers? (f : R → Option R) : List (Predicate R) → Option (List (Predicate R))
  | [] => some []
  | p :: rest => (mapReals? f p).bind fun p => (mapMembers? f rest).map (p :: ·)

end

section

variable {f : R → Option R}

omit [Scalar R] [SteadyScalar R] in
private theorem mapMembers?_eq_mapM (ps : List (Predicate R)) :
    mapMembers? f ps = ps.mapM (mapReals? f) := by
  induction ps with
  | nil => rfl
  | cons p rest ih =>
    rw [mapMembers?, ih, List.mapM_cons]
    cases mapReals? f p with
    | none => rfl
    | some p => cases rest.mapM (mapReals? f) <;> rfl

omit [Scalar R] [SteadyScalar R] in
/-- The numbers of such a leaf are replaced in turn, point first. -/
theorem IsPointLeaf.mapReals?_eq {make : String → LatLng R → R → Predicate R}
    {name radiusName : String} (h : IsPointLeaf make name radiusName) (field : String)
    (point : LatLng R) (radius : R) : mapReals? f (make field point radius) =
      (point.mapReals? f).bind fun point => (f radius).map (make field point) := by
  cases h <;> rfl

omit [Scalar R] [SteadyScalar R] in
private theorem mapReals?_tagged (name : String) (content : Json R) :
    (tagged name content).mapReals? f = (content.mapReals? f).map (tagged name) := by
  simp only [tagged, Json.mapReals?, Json.mapMembers?]
  cases content.mapReals? f <;> rfl

variable (hf : Json.YieldsFinite f)
include hf

/-- Numbers may be replaced before or after a predicate is written. -/
theorem mapReals?_toJson {p : Predicate R} (h : p.hasFiniteNumbers = true) :
    p.toJson.mapReals? f = (p.mapReals? f).map toJson := by
  induction p using inductionOn with
  | always => rfl
  | and l r ihl ihr =>
    obtain ⟨hl, hr⟩ := hasFiniteNumbers_and.mp h
    simp only [toJson, mapReals?_tagged, Json.mapReals?, Json.mapItems?, ihl hl, ihr hr, mapReals?]
    cases l.mapReals? f with
    | none => rfl
    | some l => cases r.mapReals? f <;> rfl
  | or l r ihl ihr =>
    obtain ⟨hl, hr⟩ := hasFiniteNumbers_or.mp h
    simp only [toJson, mapReals?_tagged, Json.mapReals?, Json.mapItems?, ihl hl, ihr hr, mapReals?]
    cases l.mapReals? f with
    | none => rfl
    | some l => cases r.mapReals? f <;> rfl
  | not p ih =>
    simp only [toJson, mapReals?_tagged, ih h, mapReals?]
    cases p.mapReals? f <;> rfl
  | anyOf members ih =>
    have hmembers : Json.mapItems? f (members.map toJson) =
        (members.mapM (mapReals? f)).map (List.map toJson) :=
      Json.mapItems?_map fun p hp => ih p hp (hasFiniteNumbers_anyOf.mp h p hp)
    simp only [toJson, membersToJson_eq_map, mapReals?_tagged, Json.mapReals?, hmembers, mapReals?,
      mapMembers?_eq_mapM]
    cases members.mapM (mapReals? f) with
    | none => rfl
    | some members => simp [toJson, membersToJson_eq_map]
  | equals field value => rfl
  -- The three leaves with a point and a radius have one form and are done together.
  | pointLeaf make name radiusName hleaf field point radius =>
    obtain ⟨hpoint, hradius⟩ := hleaf.finiteNumbers_iff.mp h
    have hread : point.toJson.mapReals? f = (point.mapReals? f).map LatLng.toJson :=
      (LatLng.isLawful 0).mapReals?_toJson hf hpoint
    rw [hleaf.toJson_eq, mapReals?_tagged,
      (isRecord_pointContent field point radiusName radius).mapReals?_eq, hleaf.mapReals?_eq]
    simp only [pointFields, Json.mapFields?, Option.mapM_some, Json.mapReals?, hread,
      Json.mapReals?_ofScalar hf hradius]
    cases point.mapReals? f with
    | none => rfl
    | some point =>
      cases f radius with
      | none => rfl
      | some radius => exact congrArg some (hleaf.toJson_eq field point radius).symm
  | boundary relation field wkt buffer =>
    have hbuffer : Scalar.isFinite buffer = true := by simpa [hasFiniteNumbers, numbers] using h
    simp only [toJson, mapReals?_tagged, Json.mapReals?, Json.mapMembers?,
      Json.mapReals?_ofScalar hf hbuffer, mapReals?]
    cases f buffer <;> rfl
  | boxOverlap columns box =>
    rw [hasFiniteNumbers_boxOverlap] at h
    have hbox : box.toJson.mapReals? f = (box.mapReals? f).map Box.toJson :=
      (Box.isLawful 0).mapReals?_toJson hf h
    have hcolumns : (columns.toJson : Json R).mapReals? f = some columns.toJson := rfl
    simp only [toJson, mapReals?_tagged, Json.mapReals?, Json.mapMembers?, hbox, hcolumns,
      mapReals?]
    cases box.mapReals? f <;> rfl

/-- Other finite numbers take no more room. -/
theorem IsWritable.mapReals? {depth : Nat} {p q : Predicate R} (h : p.IsWritable depth)
    (hq : p.mapReals? f = some q) : q.IsWritable depth := by
  induction p using inductionOn generalizing depth q with
  | always => exact Option.some.inj hq ▸ h
  | and l r ihl ihr =>
    obtain ⟨depth, rfl⟩ := h.exists_depth (Nat.le_add_left 2 _)
    obtain ⟨hl, hr⟩ := and_iff.mp h
    obtain ⟨l', hl', hq⟩ := Option.bind_eq_some_iff.mp hq
    obtain ⟨r', hr', rfl⟩ := Option.map_eq_some_iff.mp hq
    exact and_iff.mpr ⟨ihl hl hl', ihr hr hr'⟩
  | or l r ihl ihr =>
    obtain ⟨depth, rfl⟩ := h.exists_depth (Nat.le_add_left 2 _)
    obtain ⟨hl, hr⟩ := or_iff.mp h
    obtain ⟨l', hl', hq⟩ := Option.bind_eq_some_iff.mp hq
    obtain ⟨r', hr', rfl⟩ := Option.map_eq_some_iff.mp hq
    exact or_iff.mpr ⟨ihl hl hl', ihr hr hr'⟩
  | not p ih =>
    obtain ⟨depth, rfl⟩ := h.exists_depth (Nat.le_add_left 1 _)
    obtain ⟨p', hp', rfl⟩ := Option.map_eq_some_iff.mp hq
    exact not_iff.mpr (ih (not_iff.mp h) hp')
  | anyOf members ih =>
    obtain ⟨depth, rfl⟩ := h.exists_depth (Nat.le_add_left 2 _)
    obtain ⟨members', hmembers, rfl⟩ := Option.map_eq_some_iff.mp hq
    rw [mapMembers?_eq_mapM] at hmembers
    refine anyOf_iff.mpr fun p' hp' => ?_
    obtain ⟨p, hp, hread⟩ := Json.exists_of_mapM_eq_some hmembers p' hp'
    exact ih p hp (anyOf_iff.mp h p hp) hread
  | equals field value => exact Option.some.inj hq ▸ h
  -- Reading scalars changes no nesting, so only their finiteness is to be seen to.
  | pointLeaf make name radiusName hleaf field point radius =>
    rw [hleaf.mapReals?_eq] at hq
    obtain ⟨point', hpoint, hq⟩ := Option.bind_eq_some_iff.mp hq
    obtain ⟨radius', hradius, rfl⟩ := Option.map_eq_some_iff.mp hq
    have hfinite : point'.isFinite = true := (LatLng.isLawful 0).holds_mapReals? hf
      (hleaf.finiteNumbers_iff.mp h.1).1 hpoint
    have hnesting := h.2
    rw [hleaf.nesting_eq] at hnesting
    exact ⟨hleaf.finiteNumbers_iff.mpr ⟨hfinite, hf _ _ hradius⟩,
      (hleaf.nesting_eq field point' radius').trans_le hnesting⟩
  | boundary relation field wkt buffer =>
    obtain ⟨buffer', hbuffer, rfl⟩ := Option.map_eq_some_iff.mp hq
    exact ⟨by simp [Predicate.hasFiniteNumbers, numbers, hf _ _ hbuffer], h.2⟩
  | boxOverlap columns box =>
    obtain ⟨box', hbox, rfl⟩ := Option.map_eq_some_iff.mp hq
    obtain ⟨hfinite, hnesting⟩ := h
    rw [hasFiniteNumbers_boxOverlap] at hfinite
    refine ⟨?_, hnesting⟩
    rw [hasFiniteNumbers_boxOverlap]
    exact (Box.isLawful 0).holds_mapReals? hf hfinite hbox

end

/-! ### Room for what is read -/

omit [SteadyScalar R] in
private theorem isWritable_always (depth : Nat) : (always : Predicate R).IsWritable depth :=
  ⟨rfl, Nat.zero_le depth⟩

omit [SteadyScalar R] in
/-- What is read as a record takes a level. -/
theorem reads_record {α : Type} {F : Codec R α} {Holds : α → Prop}
    (hF : ∀ depth, F.IsLawful (depth + 1) Holds)
    (hrecord : ∀ v a, F.ofJson? v = some a → ∃ names vs, v.fields? names = some vs) (depth : Nat) :
    Json.Reads F.ofJson? .any depth fun a => Holds a ∧ 1 ≤ depth := by
  intro v a hfits h
  obtain ⟨names, vs, hvs⟩ := hrecord v a h
  obtain ⟨inner, rfl⟩ := hfits.exists_of_fields? hvs
  exact ⟨(hF inner).holds_of_ofJson? (hfits.of_any le_rfl _) h, Nat.le_add_left 1 inner⟩

private theorem reads_point (depth : Nat) : Json.Reads LatLng.ofJson? .any depth
    fun point : LatLng R => point.isFinite = true ∧ 1 ≤ depth := by
  refine reads_record LatLng.isLawful (fun v point h => ?_) depth
  obtain ⟨vs, hvs, -⟩ := Option.bind_eq_some_iff.mp h
  exact ⟨_, vs, hvs⟩

private theorem reads_box (depth : Nat) : Json.Reads Box.ofJson? .any depth
    fun box : Box R => box.isFinite = true ∧ 1 ≤ depth := by
  refine reads_record Box.isLawful (fun v box h => ?_) depth
  obtain ⟨vs, hvs, -⟩ := Option.bind_eq_some_iff.mp h
  exact ⟨_, vs, hvs⟩

omit [SteadyScalar R] in
/-- A comparison with a text has no numbers, and takes two levels. -/
private theorem isWritable_of_equalsLeaf? {depth : Nat} {members : List (String × Json R)}
    {p : Predicate R} (h : equalsLeaf? members = some p) : p.IsWritable (depth + 2) := by
  obtain ⟨vs, -, h⟩ := Option.bind_eq_some_iff.mp h
  split at h
  · simp only [Option.bind_eq_bind, Option.bind_eq_some_iff] at h
    obtain ⟨field, -, value, -, heq⟩ := h
    obtain rfl := Option.some.inj heq
    exact ⟨rfl, Nat.le_add_left 2 depth⟩
  · cases h

section

variable {depth : Nat} {members : List (String × Json R)}
  (hfits : Json.MembersFit .any depth members)
  {p : Predicate R}
include hfits

/-- A leaf that compares with a point has read finite numbers. -/
private theorem isWritable_of_pointLeaf? {make : String → LatLng R → R → Predicate R}
    {name radiusName : String} (hleaf : IsPointLeaf make name radiusName)
    (h : pointLeaf? make radiusName members = some p) : p.IsWritable (depth + 2) := by
  obtain ⟨vs, hvs, h⟩ := Option.bind_eq_some_iff.mp h
  have hmember : ∀ field ∈ [("field", Json.Shape.any), ("point", .any), (radiusName, .any)],
      Json.Shape.any.member field.1 = field.2 := by simp [Json.Shape.member]
  obtain _ | ⟨-, _ | ⟨hpoint, _ | ⟨hradius, _ | _⟩⟩⟩ :=
    Json.fieldsFit_of_uniqueMembers? hfits hmember hvs
  simp only [Option.bind_eq_bind, Option.bind_eq_some_iff] at h
  obtain ⟨field, -, point, hreadPoint, radius, hreadRadius, heq⟩ := h
  obtain rfl := Option.some.inj heq
  obtain ⟨hfinite, hdepth⟩ := (reads_point depth).required hpoint hreadPoint
  have hradius := (Json.reads_number? .any depth).required hradius hreadRadius
  refine ⟨hleaf.finiteNumbers_iff.mpr ⟨hfinite, hradius⟩, ?_⟩
  rw [hleaf.nesting_eq]
  omega

private theorem isWritable_of_boundaryLeaf? (h : boundaryLeaf? members = some p) :
    p.IsWritable (depth + 2) := by
  obtain ⟨vs, hvs, h⟩ := Option.bind_eq_some_iff.mp h
  have hmember : ∀ field ∈ [("relation", Json.Shape.any), ("field", .any), ("wkt", .any),
      ("buffer", .any)], Json.Shape.any.member field.1 = field.2 := by simp [Json.Shape.member]
  obtain _ | ⟨-, _ | ⟨-, _ | ⟨-, _ | ⟨hbuffer, _ | _⟩⟩⟩⟩ :=
    Json.fieldsFit_of_uniqueMembers? hfits hmember hvs
  simp only [Option.bind_eq_bind, Option.bind_eq_some_iff] at h
  obtain ⟨relation, -, field, -, wkt, -, buffer, hread, heq⟩ := h
  obtain rfl := Option.some.inj heq
  have hfinite := (Json.reads_number? .any depth).required hbuffer hread
  exact ⟨by simp [hasFiniteNumbers, numbers, hfinite], Nat.le_add_left 2 depth⟩

private theorem isWritable_of_boxLeaf? (h : boxLeaf? members = some p) :
    p.IsWritable (depth + 2) := by
  obtain ⟨vs, hvs, h⟩ := Option.bind_eq_some_iff.mp h
  have hmember : ∀ field ∈ [("fields", Json.Shape.any), ("bbox", .any)],
      Json.Shape.any.member field.1 = field.2 := by simp [Json.Shape.member]
  obtain _ | ⟨-, _ | ⟨hbox, _ | _⟩⟩ := Json.fieldsFit_of_uniqueMembers? hfits hmember hvs
  simp only [Option.bind_eq_bind, Option.bind_eq_some_iff] at h
  obtain ⟨columns, -, box, hread, heq⟩ := h
  obtain rfl := Option.some.inj heq
  obtain ⟨hfinite, hdepth⟩ := (reads_box depth).required hbox hread
  refine ⟨?_, Nat.add_le_add_right hdepth 2⟩
  rwa [hasFiniteNumbers_boxOverlap]

end

/-- What is read as a leaf is writable. -/
private theorem isWritable_of_leaf? {depth : Nat} {name : String} {v : Json R} {p : Predicate R}
    (hfits : v.Fits .any depth) (h : leaf? name v = some p) : p.IsWritable (depth + 1) := by
  cases v with
  | null =>
    rw [leaf?] at h
    split at h
    · exact Option.some.inj h ▸ isWritable_always _
    · cases h
  | obj members =>
    obtain ⟨depth, rfl, hmembers⟩ := hfits.exists_of_obj
    rw [leaf?] at h
    split at h
    · exact isWritable_of_equalsLeaf? h
    split at h
    · exact isWritable_of_pointLeaf? hmembers .distanceWithin h
    split at h
    · exact isWritable_of_pointLeaf? hmembers .intersectsBuffer h
    split at h
    · exact isWritable_of_pointLeaf? hmembers .withinMeters h
    split at h
    · exact isWritable_of_boundaryLeaf? hmembers h
    split at h
    · exact isWritable_of_boxLeaf? hmembers h
    · cases h
  | _ => cases h

end

/-- What is read as a node is writable if its members are. -/
private theorem isWritable_of_node? {depth : Nat} {name : String} {ps : List (Predicate R)}
    {p : Predicate R} (hps : ∀ q ∈ ps, q.IsWritable depth) (h : node? name ps = some p) :
    p.IsWritable (depth + 2) := by
  unfold node? at h
  split at h
  -- Only two members may stand in a conjunction or in a disjunction.
  · rename_i l r
    have hboth : l.IsWritable depth ∧ r.IsWritable depth := by simpa using hps
    split at h
    · exact Option.some.inj h ▸ IsWritable.and_iff.mpr hboth
    split at h
    · exact Option.some.inj h ▸ IsWritable.or_iff.mpr hboth
    split at h
    · exact Option.some.inj h ▸ IsWritable.anyOf_iff.mpr hps
    · cases h
  · split at h
    · exact Option.some.inj h ▸ IsWritable.anyOf_iff.mpr hps
    · cases h

-- The recursion is the one of the reader: from a value to its members, and from there to the value
-- of a negation or to the items of another node. Leaves are not read any deeper.
mutual

/-- What is read has finite numbers and takes no more levels than the value it is read from. -/
theorem isWritable_of_ofJson? [SteadyScalar R] (v : Json R) {depth : Nat} {p : Predicate R}
    (hfits : v.Fits .any depth) (h : ofJson? v = some p) : p.IsWritable depth := by
  match v with
  | .str name =>
    rw [ofJson?, leaf?] at h
    split at h
    · exact Option.some.inj h ▸ isWritable_always depth
    · cases h
  | .obj members =>
    obtain ⟨depth, rfl, hmembers⟩ := hfits.exists_of_obj
    exact isWritable_of_ofMembers? members hmembers h
  | .null | .bool _ | .int _ | .real _ | .arr _ => cases h

private theorem isWritable_of_ofMembers? [SteadyScalar R] (members : List (String × Json R))
    {depth : Nat} {p : Predicate R} (hfits : Json.MembersFit .any depth members)
    (h : ofMembers? members = some p) : p.IsWritable (depth + 1) := by
  match members with
  | [] => cases h
  | [(name, v)] =>
    have hv : v.Fits .any depth := hfits.1
    unfold ofMembers? at h
    split at h
    · obtain ⟨q, hq, rfl⟩ := Option.map_eq_some_iff.mp h
      exact IsWritable.not_iff.mpr (isWritable_of_ofJson? v hv hq)
    · match v with
      | .arr items =>
        obtain ⟨depth, rfl, hitems⟩ := hv.exists_of_arr
        obtain ⟨ps, hps, h⟩ := Option.bind_eq_some_iff.mp h
        exact isWritable_of_node? (isWritable_of_ofItems? items hitems hps) h
      | .null | .bool _ | .int _ | .real _ | .str _ | .obj _ => exact isWritable_of_leaf? hv h
  | _ :: _ :: _ => cases h

private theorem isWritable_of_ofItems? [SteadyScalar R] (items : List (Json R)) {depth : Nat}
    {ps : List (Predicate R)} (hfits : Json.ItemsFit .any depth items)
    (h : ofItems? items = some ps) :
    ∀ p ∈ ps, p.IsWritable depth := by
  match items with
  | [] =>
    obtain rfl := Option.some.inj h
    exact List.forall_mem_nil _
  | v :: rest =>
    rw [ofItems?] at h
    obtain ⟨p, hp, h⟩ := Option.bind_eq_some_iff.mp h
    obtain ⟨ps', hps', heq⟩ := Option.bind_eq_some_iff.mp h
    obtain rfl := Option.some.inj heq
    exact List.forall_mem_cons.mpr ⟨isWritable_of_ofJson? v hfits.1 hp,
      isWritable_of_ofItems? rest hfits.2 hps'⟩

end

/-! ### The codec -/

/-- The codec of predicates. -/
def codec : Codec R (Predicate R) where
  shape := .any
  ofJson? := ofJson?
  toJson := toJson
  mapReals? := mapReals?

/-- The codec of predicates is lawful for those that are writable. -/
theorem isLawful [SteadyScalar R] (depth : Nat) :
    (codec (R := R)).IsLawful depth (IsWritable depth) where
  holds_of_ofJson? {v _} hfits h := isWritable_of_ofJson? v hfits h
  ofJson?_toJson h := ofJson?_toJson h.1
  fits h := fits_toJson h
  keeps p := Json.keeps_any p.toJson
  mapReals?_toJson hf h := mapReals?_toJson hf h.1
  holds_mapReals? hf h hq := h.mapReals? hf hq

/-- A predicate comes back from its text just if its numbers are finite and are read as themselves,
and if it does not nest too deeply for the reader. -/
theorem ofText?_toText_eq_iff [LegibleScalar R] [SteadyScalar R] {p : Predicate R} :
    codec.ofText? (codec.toText p) = some p ↔
      p.IsWritable Json.maxDepth ∧ ∀ x ∈ p.toJson.reals, Json.reread? x = some x := by
  have hlaws := isLawful (R := R) Json.maxDepth
  constructor
  · intro h
    have hwritable := hlaws.holds_of_ofText? h
    exact ⟨hwritable, (hlaws.ofText?_toText_eq_iff hwritable).mp h⟩
  · rintro ⟨hwritable, hall⟩
    exact (hlaws.ofText?_toText_eq_iff hwritable).mpr hall

end Predicate

end TransitQuery
