import TransitQuery.Proofs.Json.Codec
import TransitQuery.Query.Context
import TransitQuery.Query.Json

/-!
# Queries and contexts are read back

The codecs of queries and of contexts are lawful. A query that was read has finite radii, and so
has each of its blocks; the coordinates of a context are finite, and its boundary, where it is
GeoJSON, is neither a string nor `null`, so that its kind is known from how it is written.

Each section has the same four parts: the codec, the fields as a record, that what is written is
this record, and the laws (`isLawful`). The laws come from those of the fields, by the lemmas of
`Fields`, so a proof here lists the fields of a type with the way in which each is read: a
condition of a query is never refused, the radius of a block may be missing, the columns of a
context may be left out or `null`.

* `SpatialQuery.isLawful`: queries, with names for what is found, the condition and the target, and
  with their blocks.
* `LatLng.isLawful`, `BoxColumns.isLawful`, `Boundary.isLawful`: what a context holds besides names
  of columns.
* `Context.isLawful`: contexts.

A boundary that is a string is Well-Known Text, any other is GeoJSON and kept in normal form.
`null` stands for no boundary, which is why it may not be one.
-/

namespace TransitQuery

variable {R : Type}

/-! ### Names -/

/-- What is found is read from its name. -/
theorem Find.ofName?_name (f : Find) : ofName? f.name = some f := by
  cases f <;> decide

theorem Find.ofJson?_name (f : Find) : ofJson? (.str f.name : Json R) = some f :=
  ofName?_name f

/-- A condition is read from its name; there is no name that is not read as one. -/
theorem Condition.ofName_name (c : Condition) : ofName c.name = c := by
  cases c <;> decide

theorem Condition.ofJson?_name (c : Condition) : ofJson? (.str c.name : Json R) = some c :=
  congrArg some (ofName_name c)

theorem Target.ofName?_name (t : Target) : ofName? t.name = some t := by
  cases t <;> decide

theorem Target.ofJson?_name (t : Target) : ofJson? (.str t.name : Json R) = some t :=
  ofName?_name t

variable [Scalar R]

/-! ### Blocks -/

namespace Block

/-- A block whose radius is finite, if it has one. -/
def IsWritable (b : Block R) : Prop :=
  ∀ d ∈ b.distance, Scalar.isFinite d = true

/-- A block with its radius replaced, if it has one. -/
def mapReals? (f : R → Option R) (b : Block R) : Option (Block R) :=
  (b.distance.mapM f).map fun distance => { b with distance }

/-- The codec of blocks. -/
def codec : Codec R (Block R) where
  shape := .ofNames ["type", "operator", "value", "distance"]
  ofJson? := ofJson?
  toJson := toJson
  mapReals? := mapReals?

/-- The values of the fields of a block. -/
def fields (b : Block R) : List (String × Option (Json R)) :=
  [("type", b.kind.map .str), ("operator", b.operator.map .str), ("value", b.value.map .str),
    ("distance", b.distance.map Json.ofScalar)]

/-- A block is a record of its fields. -/
theorem isRecord_toJson (b : Block R) : b.toJson.IsRecord b.fields := by
  obtain ⟨_ | _, _ | _, _ | _, _ | _⟩ := b <;> rfl

/-- The codec of blocks is lawful for finite radii. -/
theorem isLawful [SteadyScalar R] (depth : Nat) :
    (codec (R := R)).IsLawful (depth + 1) IsWritable where
  holds_of_ofJson? {v b} hfits h := by
    obtain ⟨vs, hvs, h⟩ := Option.bind_eq_some_iff.mp h
    obtain _ | ⟨-, _ | ⟨-, _ | ⟨-, _ | ⟨hdistance, _ | _⟩⟩⟩⟩ := hfits.of_fields? (by decide) hvs
    simp only [Option.bind_eq_bind, Option.bind_eq_some_iff] at h
    obtain ⟨_, -, _, -, _, -, distance, hd, heq⟩ := h
    obtain rfl := Option.some.inj heq
    exact (Json.reads_number? .any depth).optional hdistance hd
  ofJson?_toJson {b} hb := by
    have hdistance : Json.optional Json.number? (b.distance.map Json.ofScalar) = some b.distance :=
      Json.optional_map rfl fun d hd => Json.number?_ofScalar (hb d hd)
    have hfields : b.toJson.fields? ["type", "operator", "value", "distance"] =
        some (b.fields.map (·.2)) := b.isRecord_toJson.fields?_eq rfl (by decide)
    simp [codec, ofJson?, hfields, fields, hdistance]
  fits {b} _ := b.isRecord_toJson.fits (by simp [fields])
  keeps b := b.isRecord_toJson.keeps_ofNames rfl
  mapReals?_toJson {f b} hf hb := by
    refine b.isRecord_toJson.mapReals?_eq.trans ?_
    simp only [fields, Json.mapFields?, Json.mapM_map_str, Json.mapM_map_ofScalar hf hb, codec,
      mapReals?]
    cases b.distance.mapM f with
    | none => rfl
    | some distance => exact congrArg some (isRecord_toJson { b with distance }).symm
  holds_mapReals? {f b b'} hf hb h := by
    obtain ⟨distance, hd, rfl⟩ := Option.map_eq_some_iff.mp h
    exact Json.forall_mem_of_optionMapM (fun x _ => hf x) hd

end Block

/-! ### Queries -/

namespace SpatialQuery

/-- A query whose radii are finite. -/
def IsWritable (q : SpatialQuery R) : Prop :=
  Scalar.isFinite q.distance = true ∧ ∀ b ∈ q.blocks, b.IsWritable

/-- A query with its radii replaced. -/
def mapReals? (f : R → Option R) (q : SpatialQuery R) : Option (SpatialQuery R) := do
  let distance ← f q.distance
  let blocks ← q.blocks.mapM (Block.mapReals? f)
  return { q with distance, blocks }

/-- The codec of queries. -/
def codec : Codec R (SpatialQuery R) where
  shape := shape
  ofJson? := ofJson?
  toJson := toJson
  mapReals? := mapReals?

/-- The values of the fields of a query. -/
def fields (q : SpatialQuery R) : List (String × Option (Json R)) :=
  [("find", some (.str q.find.name)), ("condition", some (.str q.condition.name)),
    ("distance", some (Json.ofScalar q.distance)), ("target", some (.str q.target.name)),
    ("blocks", some (Block.codec.listOf.toJson q.blocks))]

/-- A query is a record of its fields. -/
theorem isRecord_toJson (q : SpatialQuery R) : q.toJson.IsRecord q.fields := rfl

/-- The codec of queries is lawful for finite radii. -/
theorem isLawful [SteadyScalar R] (depth : Nat) :
    (codec (R := R)).IsLawful (depth + 3) IsWritable where
  holds_of_ofJson? {v q} hfits h := by
    obtain ⟨vs, hvs, h⟩ := Option.bind_eq_some_iff.mp h
    obtain _ | ⟨-, _ | ⟨-, _ | ⟨hdistance, _ | ⟨-, _ | ⟨hblocks, _ | _⟩⟩⟩⟩⟩ :=
      hfits.of_fields? (by decide) hvs
    simp only [Option.bind_eq_bind, Option.bind_eq_some_iff] at h
    obtain ⟨_, -, _, -, distance, hd, _, -, blocks, hb, heq⟩ := h
    obtain rfl := Option.some.inj heq
    exact ⟨(Json.reads_number? .any _).orElse hdistance
        (SteadyScalar.isFinite_ofInt (by decide)) hd,
      (Block.isLawful depth).listOf.reads.orElse hblocks (by simp) hb⟩
  ofJson?_toJson {q} hq := by
    have hfields : q.toJson.fields? ["find", "condition", "distance", "target", "blocks"] =
        some (q.fields.map (·.2)) := q.isRecord_toJson.fields?_eq rfl (by decide)
    have hblocks : Json.listOf? Block.ofJson? (Block.codec.listOf.toJson q.blocks) =
        some q.blocks := (Block.isLawful 0).listOf.ofJson?_toJson hq.2
    simp [codec, ofJson?, hfields, fields, Json.orElse, Find.ofJson?_name, Condition.ofJson?_name,
      Target.ofJson?_name, Json.number?_ofScalar hq.1, hblocks]
  fits {q} hq := by
    have hblocks := (Block.isLawful depth).listOf.fits hq.2
    exact q.isRecord_toJson.fits (by simp [fields, hblocks])
  keeps q := by
    have hblocks : (Block.codec.listOf.toJson q.blocks).Keeps
        (.list (.ofNames ["type", "operator", "value", "distance"])) :=
      (Block.isLawful 0).listOf.keeps q.blocks
    exact q.isRecord_toJson.keeps
      (by simp [fields, Json.Shape.member, List.lookup_cons, Json.keeps_any, hblocks])
  mapReals?_toJson {f q} hf hq := by
    have hblocks : (Block.codec.listOf.toJson q.blocks).mapReals? f =
        (q.blocks.mapM (Block.mapReals? f)).map Block.codec.listOf.toJson :=
      (Block.isLawful 0).listOf.mapReals?_toJson hf hq.2
    refine q.isRecord_toJson.mapReals?_eq.trans ?_
    simp only [fields, Json.mapFields?, Option.mapM_some, Json.mapReals?_ofScalar hf hq.1,
      Json.mapReals?, hblocks, codec, mapReals?]
    cases f q.distance with
    | none => rfl
    | some distance => cases q.blocks.mapM (Block.mapReals? f) <;> rfl
  holds_mapReals? {f q q'} hf hq h := by
    obtain ⟨distance, hd, h⟩ := Option.bind_eq_some_iff.mp h
    obtain ⟨blocks, hblocks, heq⟩ := Option.bind_eq_some_iff.mp h
    obtain rfl := Option.some.inj heq
    exact ⟨hf _ _ hd, (Block.isLawful 0).listOf.holds_mapReals? hf hq.2 hblocks⟩

end SpatialQuery

/-! ### Selections -/

namespace LatLng

/-- A position with its coordinates replaced. -/
def mapReals? (f : R → Option R) (p : LatLng R) : Option (LatLng R) := do
  let lat ← f p.lat
  let lng ← f p.lng
  return { lat, lng }

/-- The codec of positions. -/
def codec : Codec R (LatLng R) where
  shape := .ofNames ["lat", "lng"]
  ofJson? := ofJson?
  toJson := toJson
  mapReals? := mapReals?

/-- The values of the fields of a position. -/
def fields (p : LatLng R) : List (String × Option (Json R)) :=
  [("lat", some (Json.ofScalar p.lat)), ("lng", some (Json.ofScalar p.lng))]

/-- A position is a record of its coordinates. -/
theorem isRecord_toJson (p : LatLng R) : p.toJson.IsRecord p.fields := rfl

/-- The codec of positions is lawful for finite coordinates. -/
theorem isLawful [SteadyScalar R] (depth : Nat) :
    (codec (R := R)).IsLawful (depth + 1) fun p => p.isFinite = true where
  holds_of_ofJson? {v p} hfits h := by
    obtain ⟨vs, hvs, h⟩ := Option.bind_eq_some_iff.mp h
    obtain _ | ⟨hlat, _ | ⟨hlng, _ | _⟩⟩ := hfits.of_fields? (by decide) hvs
    simp only [Option.bind_eq_bind, Option.bind_eq_some_iff] at h
    obtain ⟨lat, hreadLat, lng, hreadLng, heq⟩ := h
    obtain rfl := Option.some.inj heq
    have hread := Json.reads_number? (R := R) .any depth
    exact Bool.and_eq_true_iff.mpr ⟨hread.required hlat hreadLat, hread.required hlng hreadLng⟩
  ofJson?_toJson {p} hp := by
    obtain ⟨hlat, hlng⟩ := Bool.and_eq_true_iff.mp hp
    have hfields : p.toJson.fields? ["lat", "lng"] = some (p.fields.map (·.2)) :=
      p.isRecord_toJson.fields?_eq rfl (by decide)
    simp [codec, ofJson?, hfields, fields, Json.required, Json.number?_ofScalar hlat,
      Json.number?_ofScalar hlng]
  fits {p} _ := p.isRecord_toJson.fits (by simp [fields])
  keeps p := p.isRecord_toJson.keeps_ofNames rfl
  mapReals?_toJson {f p} hf hp := by
    obtain ⟨hlat, hlng⟩ := Bool.and_eq_true_iff.mp hp
    refine p.isRecord_toJson.mapReals?_eq.trans ?_
    simp only [fields, Json.mapFields?, Option.mapM_some, Json.mapReals?_ofScalar hf hlat,
      Json.mapReals?_ofScalar hf hlng, codec, mapReals?]
    cases f p.lat with
    | none => rfl
    | some lat => cases f p.lng <;> rfl
  holds_mapReals? {f p p'} hf _ h := by
    obtain ⟨lat, hlat, h⟩ := Option.bind_eq_some_iff.mp h
    obtain ⟨lng, hlng, heq⟩ := Option.bind_eq_some_iff.mp h
    obtain rfl := Option.some.inj heq
    exact Bool.and_eq_true_iff.mpr ⟨hf _ _ hlat, hf _ _ hlng⟩

theorem isLawful_orNull [SteadyScalar R] (depth : Nat) :
    (codec (R := R)).orNull.IsLawful (depth + 1) fun p => ∀ q ∈ p, q.isFinite = true :=
  (isLawful depth).orNull rfl nofun

end LatLng

namespace BoxColumns

/-- The codec of column names, which have no scalars. -/
def codec : Codec R BoxColumns where
  shape := .ofNames ["minx", "miny", "maxx", "maxy"]
  ofJson? := ofJson?
  toJson := toJson
  mapReals? _ := some

/-- The values of the fields of column names. -/
def fields (c : BoxColumns) : List (String × Option (Json R)) :=
  [("minx", some (.str c.minx)), ("miny", some (.str c.miny)), ("maxx", some (.str c.maxx)),
    ("maxy", some (.str c.maxy))]

omit [Scalar R] in
theorem isRecord_toJson (c : BoxColumns) : (c.toJson : Json R).IsRecord c.fields := rfl

/-- The codec of column names is lawful, without a condition. -/
theorem isLawful (depth : Nat) : (codec (R := R)).IsLawful (depth + 1) fun _ => True where
  holds_of_ofJson? _ _ := trivial
  ofJson?_toJson {c} _ := by
    have hfields : (c.toJson : Json R).fields? ["minx", "miny", "maxx", "maxy"] =
        some (c.fields.map (·.2)) := c.isRecord_toJson.fields?_eq rfl (by decide)
    simp [codec, ofJson?, hfields, fields, Json.required, Json.string?]
  fits {c} _ := c.isRecord_toJson.fits (by simp [fields])
  keeps c := c.isRecord_toJson.keeps_ofNames rfl
  mapReals?_toJson _ _ := rfl
  holds_mapReals? _ _ _ := trivial

theorem isLawful_orNull (depth : Nat) :
    (codec (R := R)).orNull.IsLawful (depth + 1) fun c => ∀ d ∈ c, True :=
  (isLawful depth).orNull rfl nofun

end BoxColumns

namespace Boundary

/-- A boundary that a text can hold: GeoJSON in normal form that is neither a string nor `null`. -/
def IsWritable (depth : Nat) : Boundary R → Prop
  | wkt _ => True
  | geoJson v => v.IsNormal ∧ v.Fits .any depth ∧ v ≠ .null ∧ ∀ s, v ≠ .str s

/-- A boundary with the scalars of GeoJSON replaced. -/
def mapReals? (f : R → Option R) : Boundary R → Option (Boundary R)
  | wkt text => some (wkt text)
  | geoJson v => (v.mapReals? f).map geoJson

/-- The codec of boundaries. -/
def codec : Codec R (Boundary R) where
  shape := .any
  ofJson? v := v.nonNull?.bind ofJson?
  toJson := toJson
  mapReals? := mapReals?

omit [Scalar R] in
/-- What is neither a string nor `null` is read as GeoJSON, in normal form. -/
private theorem ofJson?_of_ne {v : Json R} (hnull : v ≠ .null) (hstr : ∀ s, v ≠ .str s) :
    codec.ofJson? v = some (geoJson v.normalize) := by
  cases v with
  | null => exact absurd rfl hnull
  | str s => exact absurd rfl (hstr s)
  | _ => rfl

/-- The codec of boundaries is lawful for those that a text can hold. -/
theorem isLawful (depth : Nat) : (codec (R := R)).IsLawful depth (IsWritable depth) where
  holds_of_ofJson? {v b} hfits h := by
    by_cases hnull : v = .null
    · subst hnull
      cases h
    by_cases hstr : ∃ s, v = .str s
    · obtain ⟨s, rfl⟩ := hstr
      obtain rfl := Option.some.inj h
      trivial
    · have hstr := not_exists.mp hstr
      rw [ofJson?_of_ne hnull hstr] at h
      obtain rfl := Option.some.inj h
      exact ⟨Json.isNormal_normalize v, Json.Fits.normalize hfits, Json.normalize_ne_null hnull,
        Json.normalize_ne_str hstr⟩
  ofJson?_toJson {b} hb := by
    cases b with
    | wkt text => rfl
    | geoJson v =>
      obtain ⟨hnormal, -, hnull, hstr⟩ := hb
      exact (ofJson?_of_ne hnull hstr).trans (by rw [hnormal.normalize_eq])
  fits {b} hb := by
    cases b with
    | wkt text => trivial
    | geoJson v => exact hb.2.1
  keeps b := Json.keeps_any _
  mapReals?_toJson {f b} _ _ := by
    cases b with
    | wkt text => rfl
    | geoJson v =>
      change v.mapReals? f = ((v.mapReals? f).map geoJson).map toJson
      cases v.mapReals? f <;> rfl
  holds_mapReals? {f b b'} hf hb h := by
    cases b with
    | wkt text =>
      obtain rfl := Option.some.inj h
      trivial
    | geoJson v =>
      obtain ⟨w, hw, rfl⟩ := Option.map_eq_some_iff.mp h
      obtain ⟨hnormal, hfits, hnull, hstr⟩ := hb
      exact ⟨hnormal.mapReals? hw, hfits.mapReals? hf hw, Json.ne_null_of_mapReals? hnull hw,
        Json.ne_str_of_mapReals? hstr hw⟩

theorem isLawful_orNull (depth : Nat) :
    (codec (R := R)).orNull.IsLawful depth fun b => ∀ c ∈ b, c.IsWritable depth :=
  (isLawful depth).orNull rfl nofun

/-- A boundary that may be missing is read back, by a reader that never sees `null`. -/
theorem optional_toJson {depth : Nat} {b : Option (Boundary R)}
    (h : ∀ c ∈ b, c.IsWritable depth) :
    Json.optional ofJson? (some (codec.orNull.toJson b)) = some b := by
  rw [← Json.optional_nonNull?]
  exact (isLawful_orNull depth).ofJson?_toJson h

end Boundary

/-! ### Contexts -/

namespace Context

/-- A context that a text can hold, but for its outermost braces. -/
structure IsWritable (depth : Nat) (c : Context R) : Prop where
  point : ∀ p ∈ c.point, p.isFinite = true
  boundary : ∀ b ∈ c.boundary, b.IsWritable depth

/-- A context with the scalars of its selections replaced. -/
def mapReals? (f : R → Option R) (c : Context R) : Option (Context R) := do
  let point ← c.point.mapM (LatLng.mapReals? f)
  let boundary ← c.boundary.mapM (Boundary.mapReals? f)
  return { c with point, boundary }

/-- The codec of contexts. -/
def codec : Codec R (Context R) where
  shape := shape
  ofJson? := ofJson?
  toJson := toJson
  mapReals? := mapReals?

/-- The values of the fields of a context. -/
def fields (c : Context R) : List (String × Option (Json R)) :=
  [("serviceIdField", some (Json.ofOption .str c.serviceIdField)),
    ("spatialReady", some (.bool c.spatialReady)),
    ("geometryField", some (Json.ofOption .str c.geometryField)),
    ("bboxReady", some (.bool c.bboxReady)),
    ("bboxFields", some (BoxColumns.codec.orNull.toJson c.bboxFields)),
    ("operatorFields", some (.arr (c.operatorFields.map .str))),
    ("modeField", some (Json.ofOption .str c.modeField)),
    ("geojsonField", some (Json.ofOption .str c.geojsonField)),
    ("point", some (LatLng.codec.orNull.toJson c.point)),
    ("boundary", some (Boundary.codec.orNull.toJson c.boundary))]

theorem isRecord_toJson (c : Context R) : c.toJson.IsRecord c.fields := rfl

/-- The codec of contexts is lawful for those that a text can hold. -/
theorem isLawful [SteadyScalar R] (depth : Nat) :
    (codec (R := R)).IsLawful (depth + 2) (IsWritable (depth + 1)) where
  holds_of_ofJson? {v c} hfits h := by
    obtain ⟨vs, hvs, h⟩ := Option.bind_eq_some_iff.mp h
    -- Of ten fields only the point and the boundary hold scalars; the others are passed over.
    obtain _ | ⟨-, _ | ⟨-, _ | ⟨-, _ | ⟨-, _ | ⟨-, _ | ⟨-, _ | ⟨-, _ | ⟨-, _ | ⟨hpoint, _ |
      ⟨hboundary, _ | _⟩⟩⟩⟩⟩⟩⟩⟩⟩⟩ := hfits.of_fields? (by decide) hvs
    simp only [Option.bind_eq_bind, Option.bind_eq_some_iff] at h
    obtain ⟨_, -, _, -, _, -, _, -, _, -, _, -, _, -, _, -, point, hp, boundary, hb, heq⟩ := h
    obtain rfl := Option.some.inj heq
    rw [← Json.optional_nonNull?] at hb
    exact ⟨(LatLng.isLawful depth).reads.optional hpoint hp,
      (Boundary.isLawful (depth + 1)).reads.optional hboundary hb⟩
  ofJson?_toJson {c} hc := by
    have hfields : c.toJson.fields? ["serviceIdField", "spatialReady", "geometryField", "bboxReady",
        "bboxFields", "operatorFields", "modeField", "geojsonField", "point", "boundary"] =
          some (c.fields.map (·.2)) := c.isRecord_toJson.fields?_eq rfl (by decide)
    have hcolumns : Json.optional BoxColumns.ofJson?
        (some (BoxColumns.codec.orNull.toJson c.bboxFields : Json R)) = some c.bboxFields :=
      (BoxColumns.isLawful_orNull 0).ofJson?_toJson fun _ _ => trivial
    have hpoint : Json.optional LatLng.ofJson? (some (LatLng.codec.orNull.toJson c.point)) =
        some c.point := (LatLng.isLawful_orNull 0).ofJson?_toJson hc.point
    simp [codec, ofJson?, hfields, fields, Json.orElse, Json.bool?, hcolumns, hpoint,
      Boundary.optional_toJson hc.boundary]
  fits {c} hc := by
    have hcolumns := (BoxColumns.isLawful_orNull (R := R) depth).fits
      (fun (_ : BoxColumns) (_ : _ ∈ c.bboxFields) => trivial)
    have hnames : (Json.arr (c.operatorFields.map .str) : Json R).Fits .any (depth + 1) :=
      Json.fits_arr (by simp)
    have hpoint := (LatLng.isLawful_orNull depth).fits hc.point
    have hboundary := (Boundary.isLawful_orNull (depth + 1)).fits hc.boundary
    exact c.isRecord_toJson.fits (by simp [fields, hcolumns, hnames, hpoint, hboundary])
  keeps c := by
    have hcolumns : (BoxColumns.codec.orNull.toJson c.bboxFields : Json R).Keeps
        (.ofNames ["minx", "miny", "maxx", "maxy"]) := (BoxColumns.isLawful_orNull 0).keeps _
    have hpoint : (LatLng.codec.orNull.toJson c.point).Keeps (.ofNames ["lat", "lng"]) :=
      (LatLng.isLawful_orNull 0).keeps _
    exact c.isRecord_toJson.keeps
      (by simp [fields, Json.Shape.member, List.lookup_cons, Json.keeps_any, hcolumns, hpoint])
  mapReals?_toJson {f c} hf hc := by
    have hcolumns : (BoxColumns.codec.orNull.toJson c.bboxFields : Json R).mapReals? f =
        some (BoxColumns.codec.orNull.toJson c.bboxFields) := by
      cases c.bboxFields <;> rfl
    have hpoint : (LatLng.codec.orNull.toJson c.point).mapReals? f =
        (c.point.mapM (LatLng.mapReals? f)).map LatLng.codec.orNull.toJson :=
      (LatLng.isLawful_orNull 0).mapReals?_toJson hf hc.point
    have hboundary : (Boundary.codec.orNull.toJson c.boundary).mapReals? f =
        (c.boundary.mapM (Boundary.mapReals? f)).map Boundary.codec.orNull.toJson :=
      (Boundary.isLawful_orNull (depth + 1)).mapReals?_toJson hf hc.boundary
    refine c.isRecord_toJson.mapReals?_eq.trans ?_
    simp only [fields, Json.mapFields?, Option.mapM_some, Json.mapReals?_ofOption_str,
      Json.mapReals?, Json.mapItems?_map_str, hcolumns, hpoint, hboundary, codec, mapReals?]
    cases c.point.mapM (LatLng.mapReals? f) with
    | none => rfl
    | some point => cases c.boundary.mapM (Boundary.mapReals? f) <;> rfl
  holds_mapReals? {f c c'} hf hc h := by
    obtain ⟨point, hpoint, h⟩ := Option.bind_eq_some_iff.mp h
    obtain ⟨boundary, hboundary, heq⟩ := Option.bind_eq_some_iff.mp h
    obtain rfl := Option.some.inj heq
    exact ⟨(LatLng.isLawful_orNull 0).holds_mapReals? hf hc.point hpoint,
      (Boundary.isLawful_orNull (depth + 1)).holds_mapReals? hf hc.boundary hboundary⟩

end Context

end TransitQuery
