import Mathlib.Data.List.Forall2
import TransitQuery.Geometry.GeoJson
import TransitQuery.Proofs.Computation
import TransitQuery.Scalar.Double

/-!
# The grammar of GeoJSON

The rules by which a value derives a geometry, stated without the reader. A feature derives what
its geometry does, a collection derives member by member, and the other six kinds derive from
coordinates, which are positions in arrays of the depth of the kind.

The reader accepts just what derives something, and gives that (`GeoJson.ofGeoJson_exact`). A value
that derives nothing has a first offender: the first value, in the order of the document, that
breaks a rule itself and is not merely made of parts that do. Its kind tells the error. Members with
other names than those of the rules make no difference, at any depth.

* `GeoJson.Derives`: the rules, as an inductive relation of values and geometries.
* `GeoJson.HasParts`: the parts of a value that are read in turn, a geometry of a feature or the
  members of a collection.
* `GeoJson.FirstOffender`: the first value that is at fault itself, among parts of parts.
* `GeoJson.SameButUnknown`: the values that the rules cannot tell from one another.

A value has one of four forms (`GeoJson.Form`), and on each of them both the reader and the rules
come down to the parts, in the sections on reading and on acceptance. Parts are smaller than the
value, so that `GeoJson.induction_on_parts` carries acceptance, rejection and the uniqueness of the
offender from them to the whole. The reader of the members of a collection stops at the first
error, which is why the members before the first offender have to derive something and those behind
it need not.
-/

namespace TransitQuery

variable {R : Type}

/-- Values have smaller parts, so that a property of all values may be proved from that of their
parts. -/
theorem Json.sizeOf_lt_of_member? {name : String} {v w : Json R} (h : v.member? name = some w) :
    sizeOf w < sizeOf v := by
  cases v with
  | obj members =>
    replace h : Json.lookup name members = some w := h
    induction members with
    | nil => cases h
    | cons m rest ih =>
      obtain ⟨k, u⟩ := m
      rw [Json.lookup] at h
      split at h
      · obtain rfl := Option.some.inj h
        simp only [Json.obj.sizeOf_spec, List.cons.sizeOf_spec, Prod.mk.sizeOf_spec]
        omega
      · have := ih h
        simp only [Json.obj.sizeOf_spec, List.cons.sizeOf_spec] at this ⊢
        omega
  | _ => cases h

namespace GeoJson

open TransitQuery.Geometry

/-! ### Coordinates -/

/-- A value that is a number, and the scalar it stands for. -/
inductive IsNumber [Scalar R] : Json R → R → Prop
  | int (i : Int) : IsNumber (.int i) (Scalar.ofInt i)
  | real (x : R) : IsNumber (.real x) x

/-- An array whose items satisfy a rule. -/
inductive IsArrayOf {α : Type} (Rule : Json R → α → Prop) : Json R → List α → Prop
  | intro {items : List (Json R)} {as : List α} (h : List.Forall₂ Rule items as) :
    IsArrayOf Rule (.arr items) as

/-- An array that starts with two numbers. -/
inductive IsPosition [Scalar R] : Json R → Position R → Prop
  | intro {v w : Json R} {x y : R} (hx : IsNumber v x) (hy : IsNumber w y)
      (rest : List (Json R)) : IsPosition (.arr (v :: w :: rest)) ⟨x, y⟩

/-- A ring as it stands, and as it is closed. -/
inductive Closes [BEq R] : List (Position R) → List (Position R) → Prop
  | closed {ring : List (Position R)} (h : isClosed ring = true) : Closes ring ring
  | opened {p : Position R} {rest : List (Position R)} (h : isClosed (p :: rest) = false) :
    Closes (p :: rest) (p :: rest ++ [p])

/-- An array of at least one ring, each of which is closed. -/
inductive IsPolygon [Scalar R] : Json R → Polygon R → Prop
  | intro {v : Json R} {ring exterior : List (Position R)}
      {rings interiors : List (List (Position R))}
      (hrings : IsArrayOf (IsArrayOf IsPosition) v (ring :: rings))
      (hexterior : Closes ring exterior) (hinteriors : List.Forall₂ Closes rings interiors) :
    IsPolygon v ⟨exterior, interiors⟩

/-- The coordinates of a kind, and the geometry with them. -/
inductive IsCoordinates [Scalar R] : String → Json R → Geometry R → Prop
  | point {v : Json R} {p} (h : IsPosition v p) : IsCoordinates "Point" v (.point p)
  | multiPoint {v : Json R} {points} (h : IsArrayOf IsPosition v points) :
    IsCoordinates "MultiPoint" v (.multiPoint points)
  | lineString {v : Json R} {line} (h : IsArrayOf IsPosition v line) :
    IsCoordinates "LineString" v (.lineString line)
  | multiLineString {v : Json R} {lines} (h : IsArrayOf (IsArrayOf IsPosition) v lines) :
    IsCoordinates "MultiLineString" v (.multiLineString lines)
  | polygon {v : Json R} {g} (h : IsPolygon v g) : IsCoordinates "Polygon" v (.polygon g)
  | multiPolygon {v : Json R} {polygons} (h : IsArrayOf IsPolygon v polygons) :
    IsCoordinates "MultiPolygon" v (.multiPolygon polygons)

/-- The kinds that have coordinates. -/
def coordinateKinds : List String :=
  ["Point", "MultiPoint", "LineString", "MultiLineString", "Polygon", "MultiPolygon"]

/-! ### Objects -/

/-- A feature and its geometry. -/
structure IsFeature (v w : Json R) : Prop where
  type : v.member? "type" = some (.str "Feature")
  geometry : v.member? "geometry" = some w
  ne_null : w ≠ .null

/-- A collection and its members. -/
structure IsCollection (v : Json R) (items : List (Json R)) : Prop where
  type : v.member? "type" = some (.str "GeometryCollection")
  geometries : v.member? "geometries" = some (.arr items)

/-- An object of another kind, and its coordinates. -/
structure HasCoordinates (v : Json R) (kind : String) (w : Json R) : Prop where
  type : v.member? "type" = some (.str kind)
  ne_feature : kind ≠ "Feature"
  ne_collection : kind ≠ "GeometryCollection"
  coordinates : v.member? "coordinates" = some w

/-- The rules of the grammar. -/
inductive Derives [Scalar R] : Json R → Geometry R → Prop
  | feature {v w : Json R} {g} (h : IsFeature v w) (hg : Derives w g) : Derives v g
  | collection {v : Json R} {items gs} (h : IsCollection v items)
      (hgs : List.Forall₂ Derives items gs) : Derives v (.collection gs)
  | coordinates {v : Json R} {kind w g} (h : HasCoordinates v kind w)
      (hg : IsCoordinates kind w g) : Derives v g

/-- The parts of a value that have to derive something for it to do so, in their order. -/
inductive HasParts : Json R → List (Json R) → Prop
  | feature {v w : Json R} (h : IsFeature v w) : HasParts v [w]
  | collection {v : Json R} {items} (h : IsCollection v items) : HasParts v items

/-- The first value inside another that breaks a rule itself. All that stands before it derives
something. -/
inductive FirstOffender [Scalar R] : Json R → Json R → Prop
  | self {v : Json R} (hparts : ∀ parts, ¬ HasParts v parts) (h : ∀ g, ¬ Derives v g) :
    FirstOffender v v
  | part {v w offender : Json R} {before after} (hparts : HasParts v (before ++ w :: after))
      (hbefore : ∀ u ∈ before, ∃ g, Derives u g) (h : FirstOffender w offender) :
    FirstOffender v offender

/-- An object with coordinates whose kind is none of the grammar. -/
def HasUnknownKind (v : Json R) (kind : String) : Prop :=
  kind ∉ coordinateKinds ∧ ∃ w, HasCoordinates v kind w

/-- Values that differ in members with other names than those of the rules only. -/
inductive SameButUnknown : Json R → Json R → Prop
  | refl (v : Json R) : SameButUnknown v v
  | arr {items items' : List (Json R)} (h : List.Forall₂ SameButUnknown items items') :
    SameButUnknown (.arr items) (.arr items')
  | obj {members members' : List (String × Json R)}
      (htype : Json.lookup "type" members = Json.lookup "type" members')
      (hcoordinates : Json.lookup "coordinates" members = Json.lookup "coordinates" members')
      (hgeometry : Option.Rel SameButUnknown (Json.lookup "geometry" members)
        (Json.lookup "geometry" members'))
      (hgeometries : Option.Rel SameButUnknown (Json.lookup "geometries" members)
        (Json.lookup "geometries" members')) :
    SameButUnknown (.obj members) (.obj members')

/-! ### Reading coordinates -/

private theorem number?_eq_some_iff [Scalar R] {v : Json R} {x : R} :
    v.number? = some x ↔ IsNumber v x := by
  constructor
  · intro h
    cases v with
    | int i =>
      obtain rfl := Option.some.inj h
      exact .int i
    | real y =>
      obtain rfl := Option.some.inj h
      exact .real y
    | _ => cases h
  · rintro (i | x) <;> rfl

/-- A reader that works through the items of an array follows the rule for arrays of what the reader
of items follows. -/
theorem mapM_items_eq_ok_iff {α : Type} {read : Json R → Except (GeometryError R) α}
    {Rule : Json R → α → Prop} (hread : ∀ w a, read w = .ok a ↔ Rule w a) {v : Json R}
    {as : List α} :
    (do (← coordinateItems v).mapM read) = Except.ok as ↔ IsArrayOf Rule v as := by
  have hread' : (fun w a => read w = .ok a) = Rule := by
    ext w a
    exact hread w a
  constructor
  · intro h
    obtain ⟨items, hitems, h⟩ := bind_eq_ok_iff.mp h
    cases v with
    | arr items' =>
      obtain rfl : items' = items := Except.ok.inj hitems
      exact .intro (hread' ▸ mapM_eq_ok_iff.mp h)
    | _ => cases hitems
  · rintro ⟨h⟩
    exact mapM_eq_ok_iff.mpr (hread' ▸ h)

section

variable [Scalar R]

/-- Positions are read by the rule: further items of the array are left aside. -/
private theorem positionOf_eq_ok_iff (v : Json R) (p : Position R) :
    positionOf v = .ok p ↔ IsPosition v p := by
  constructor
  · intro h
    obtain ⟨items, hitems, h⟩ := bind_eq_ok_iff.mp h
    cases v with
    | arr items' =>
      obtain rfl : items' = items := Except.ok.inj hitems
      split at h
      · split at h
        · rename_i x y hx hy
          obtain rfl := Except.ok.inj h
          exact .intro (number?_eq_some_iff.mp hx) (number?_eq_some_iff.mp hy) _
        · cases h
      · cases h
    | _ => cases hitems
  · rintro ⟨hx, hy, rest⟩
    simp [positionOf, coordinateItems, Json.items?, number?_eq_some_iff.mpr hx,
      number?_eq_some_iff.mpr hy]

private theorem lineOf_eq_ok_iff (v : Json R) (line : List (Position R)) :
    lineOf v = .ok line ↔ IsArrayOf IsPosition v line :=
  mapM_items_eq_ok_iff positionOf_eq_ok_iff

private theorem linesOf_eq_ok_iff (v : Json R) (lines : List (List (Position R))) :
    linesOf v = .ok lines ↔ IsArrayOf (IsArrayOf IsPosition) v lines :=
  mapM_items_eq_ok_iff lineOf_eq_ok_iff

/-- A ring is closed by the rule: its first position is repeated unless it is the last one. -/
private theorem closes_iff {ring closed : List (Position R)} :
    Closes ring closed ↔ closeRing ring = closed := by
  unfold closeRing
  constructor
  · rintro (h | h)
    · rw [if_pos h]
    · simp [h]
  · rintro rfl
    cases h : isClosed ring with
    | true => exact .closed h
    | false =>
      cases ring with
      | nil => cases h
      | cons p rest => exact .opened h

/-- Polygons are read by the rule: there is an outer ring, and all rings are closed. -/
private theorem polygonOf_eq_ok_iff (v : Json R) (g : Polygon R) :
    polygonOf v = .ok g ↔ IsPolygon v g := by
  have hinteriors : ∀ {rings interiors : List (List (Position R))},
      List.Forall₂ Closes rings interiors ↔ rings.map closeRing = interiors := by
    intro rings interiors
    have hcloses : (Closes : List (Position R) → List (Position R) → Prop) =
        fun ring closed => closeRing ring = closed := by
      ext ring closed
      exact closes_iff
    rw [hcloses, ← List.forall₂_map_left_iff (R := Eq), List.forall₂_eq_eq_eq]
  constructor
  · intro h
    obtain ⟨lines, hlines, h⟩ := bind_eq_ok_iff.mp h
    cases lines with
    | nil => cases h
    | cons ring rings =>
      obtain rfl := Except.ok.inj h
      exact .intro ((linesOf_eq_ok_iff v _).mp hlines) (closes_iff.mpr rfl) (hinteriors.mpr rfl)
  · rintro ⟨hrings, hexterior, hrest⟩
    rw [polygonOf, (linesOf_eq_ok_iff v _).mpr hrings, ← closes_iff.mp hexterior,
      ← hinteriors.mp hrest]
    rfl

private theorem polygonsOf_eq_ok_iff (v : Json R) (polygons : List (Polygon R)) :
    polygonsOf v = .ok polygons ↔ IsArrayOf IsPolygon v polygons :=
  mapM_items_eq_ok_iff polygonOf_eq_ok_iff

private theorem ofCoordinates_eq_ok_iff {kind : String} {v : Json R} {g : Geometry R} :
    ofCoordinates kind v = .ok g ↔ IsCoordinates kind v g := by
  constructor
  · intro h
    -- The reader tries the kinds one after the other, a rule of the grammar for each.
    unfold ofCoordinates at h
    split at h
    · obtain ⟨p, hp, rfl⟩ := map_eq_ok_iff.mp h
      subst kind
      exact .point ((positionOf_eq_ok_iff v p).mp hp)
    split at h
    · obtain ⟨points, hpoints, rfl⟩ := map_eq_ok_iff.mp h
      subst kind
      exact .multiPoint ((lineOf_eq_ok_iff v points).mp hpoints)
    split at h
    · obtain ⟨line, hline, rfl⟩ := map_eq_ok_iff.mp h
      subst kind
      exact .lineString ((lineOf_eq_ok_iff v line).mp hline)
    split at h
    · obtain ⟨lines, hlines, rfl⟩ := map_eq_ok_iff.mp h
      subst kind
      exact .multiLineString ((linesOf_eq_ok_iff v lines).mp hlines)
    split at h
    · obtain ⟨g, hg, rfl⟩ := map_eq_ok_iff.mp h
      subst kind
      exact .polygon ((polygonOf_eq_ok_iff v g).mp hg)
    split at h
    · obtain ⟨polygons, hpolygons, rfl⟩ := map_eq_ok_iff.mp h
      subst kind
      exact .multiPolygon ((polygonsOf_eq_ok_iff v polygons).mp hpolygons)
    · cases h
  · rintro (h | h | h | h | h | h)
    · simp [ofCoordinates, (positionOf_eq_ok_iff _ _).mpr h, Except.map]
    · simp [ofCoordinates, (lineOf_eq_ok_iff _ _).mpr h, Except.map]
    · simp [ofCoordinates, (lineOf_eq_ok_iff _ _).mpr h, Except.map]
    · simp [ofCoordinates, (linesOf_eq_ok_iff _ _).mpr h, Except.map]
    · simp [ofCoordinates, (polygonOf_eq_ok_iff _ _).mpr h, Except.map]
    · simp [ofCoordinates, (polygonsOf_eq_ok_iff _ _).mpr h, Except.map]

end

/-! ### Errors -/

/-- An error of any sort but that of an unknown kind. -/
def IsInvalid : GeometryError R → Prop
  | .unsupportedKind _ => False
  | _ => True

/-- The items of an array raise no other error than each of them does. -/
private theorem isInvalid_of_mapM {α : Type} {read : Json R → Except (GeometryError R) α}
    (hread : ∀ w e, read w = .error e → IsInvalid e) {v : Json R} {e : GeometryError R}
    (h : (do (← coordinateItems v).mapM read) = Except.error e) : IsInvalid e := by
  cases v with
  | arr items =>
    obtain ⟨-, w, -, -, -, hw⟩ := exists_split_of_mapM_eq_error h
    exact hread w e hw
  | _ =>
    obtain rfl := Except.error.inj h
    trivial

section

variable [Scalar R]

/-- Such an error says so in its message. -/
private theorem message_of_isInvalid {e : GeometryError R} (h : IsInvalid e) :
    e.message = "invalid geometry: " ++ e.detail := by
  cases e with
  | unsupportedKind kind => exact h.elim
  | _ => rfl

private theorem isInvalid_of_positionOf (v : Json R) (e : GeometryError R)
    (h : positionOf v = .error e) : IsInvalid e := by
  cases v with
  | arr items =>
    unfold positionOf at h
    simp only [coordinateItems, Json.items?, ok_bind] at h
    split at h
    · split at h
      · cases h
      · obtain rfl := Except.error.inj h
        trivial
    · obtain rfl := Except.error.inj h
      trivial
  | _ =>
    obtain rfl := Except.error.inj h
    trivial

private theorem isInvalid_of_lineOf (v : Json R) (e : GeometryError R) (h : lineOf v = .error e) :
    IsInvalid e :=
  isInvalid_of_mapM isInvalid_of_positionOf h

private theorem isInvalid_of_linesOf (v : Json R) (e : GeometryError R) (h : linesOf v = .error e) :
    IsInvalid e :=
  isInvalid_of_mapM isInvalid_of_lineOf h

private theorem isInvalid_of_polygonOf (v : Json R) (e : GeometryError R)
    (h : polygonOf v = .error e) : IsInvalid e := by
  unfold polygonOf at h
  cases hlines : linesOf v with
  | error e' =>
    rw [hlines] at h
    obtain rfl := Except.error.inj h
    exact isInvalid_of_linesOf v _ hlines
  | ok lines =>
    rw [hlines, ok_bind] at h
    split at h
    · cases h
    · obtain rfl := Except.error.inj h
      trivial

/-- Coordinates of a known kind are at fault, never their kind. -/
theorem isInvalid_of_ofCoordinates {kind : String} (hkind : kind ∈ coordinateKinds) {v : Json R}
    {e : GeometryError R} (h : ofCoordinates kind v = .error e) : IsInvalid e := by
  have of_map : ∀ {α : Type} {f : α → Geometry R} {x : Except (GeometryError R) α},
      x.map f = .error e → x = .error e := by
    intro α f x hx
    cases x with
    | error e' => exact congrArg _ (Except.error.inj hx)
    | ok a => cases hx
  simp only [coordinateKinds, List.mem_cons, List.not_mem_nil, or_false] at hkind
  rcases hkind with rfl | rfl | rfl | rfl | rfl | rfl <;>
    simp only [ofCoordinates, ↓reduceIte, String.reduceEq] at h <;> replace h := of_map h
  · exact isInvalid_of_positionOf v e h
  · exact isInvalid_of_lineOf v e h
  · exact isInvalid_of_lineOf v e h
  · exact isInvalid_of_linesOf v e h
  · exact isInvalid_of_polygonOf v e h
  · exact isInvalid_of_mapM isInvalid_of_polygonOf h

private theorem ofCoordinates_eq_error {kind : String} (hkind : kind ∉ coordinateKinds)
    (v : Json R) :
    ofCoordinates kind v = .error (.unsupportedKind kind) := by
  simp only [coordinateKinds, List.mem_cons, List.not_mem_nil, or_false, not_or] at hkind
  obtain ⟨h₁, h₂, h₃, h₄, h₅, h₆⟩ := hkind
  simp only [ofCoordinates, h₁, h₂, h₃, h₄, h₅, h₆, ↓reduceIte]

end

/-! ### Reading objects -/

section

variable [Scalar R]

/-- A feature is read as its geometry, which must be there and not null. -/
private theorem ofFeature_eq (members : List (String × Json R)) :
    ofFeature members =
      match Json.lookup "geometry" members with
      | none | some .null => .error .featureWithoutGeometry
      | some w => ofGeoJson w := by
  induction members with
  | nil => rfl
  | cons m rest ih =>
    obtain ⟨k, u⟩ := m
    unfold ofFeature
    rw [Json.lookup]
    split
    · cases u <;> rfl
    · exact ih

/-- A collection is read member by member, from an array. -/
private theorem ofCollection_eq (members : List (String × Json R)) :
    ofCollection members =
      match Json.lookup "geometries" members with
      | some (.arr items) => (ofItems items).map .collection
      | _ => .error .collectionWithoutMembers := by
  induction members with
  | nil => rfl
  | cons m rest ih =>
    obtain ⟨k, u⟩ := m
    unfold ofCollection
    rw [Json.lookup]
    split
    · cases u <;> rfl
    · exact ih

private theorem ofGeoJson_of_isFeature {v w : Json R} (h : IsFeature v w) :
    ofGeoJson v = ofGeoJson w := by
  obtain ⟨htype, hgeometry, hw⟩ := h
  cases v with
  | obj members =>
    replace htype : Json.lookup "type" members = _ := htype
    simp only [ofGeoJson, htype, Option.bind_some, Json.string?, ↓reduceIte]
    rw [ofFeature_eq, show Json.lookup "geometry" members = some w from hgeometry]
    cases w <;> first | rfl | exact absurd rfl hw
  | _ => cases htype

private theorem ofGeoJson_of_isCollection {v : Json R} {items : List (Json R)}
    (h : IsCollection v items) : ofGeoJson v = (ofItems items).map .collection := by
  obtain ⟨htype, hgeometries⟩ := h
  cases v with
  | obj members =>
    replace htype : Json.lookup "type" members = _ := htype
    simp only [ofGeoJson, htype, Option.bind_some, Json.string?, String.reduceEq, ↓reduceIte]
    rw [ofCollection_eq, show Json.lookup "geometries" members = some (.arr items) from hgeometries]
  | _ => cases htype

private theorem ofGeoJson_of_hasCoordinates {v w : Json R} {kind : String}
    (h : HasCoordinates v kind w) : ofGeoJson v = ofCoordinates kind w := by
  obtain ⟨htype, hfeature, hcollection, hcoordinates⟩ := h
  cases v with
  | obj members =>
    replace htype : Json.lookup "type" members = _ := htype
    replace hcoordinates : Json.lookup "coordinates" members = _ := hcoordinates
    simp only [ofGeoJson, htype, Option.bind_some, Json.string?, hfeature, hcollection,
      hcoordinates, ↓reduceIte]
  | _ => cases htype

/-- A value is a feature, a collection or an object with coordinates, or it is read as none of
these. -/
inductive Form (v : Json R) : Prop
  | feature {w : Json R} (h : IsFeature v w)
  | collection {items : List (Json R)} (h : IsCollection v items)
  | coordinates {kind : String} {w : Json R} (h : HasCoordinates v kind w)
  | none (hfeature : ∀ w, ¬ IsFeature v w) (hcollection : ∀ items, ¬ IsCollection v items)
      (hcoordinates : ∀ kind w, ¬ HasCoordinates v kind w) (e : GeometryError R)
      (he : IsInvalid e) (hread : ofGeoJson v = .error e)

/-- Each value has a form, which its members of the three names of the rules tell. -/
theorem form (v : Json R) : Form v := by
  by_cases hfeature : ∃ w, IsFeature v w
  · exact .feature hfeature.choose_spec
  by_cases hcollection : ∃ items, IsCollection v items
  · exact .collection hcollection.choose_spec
  by_cases hcoordinates : ∃ kind w, HasCoordinates v kind w
  · exact .coordinates hcoordinates.choose_spec.choose_spec
  simp only [not_exists] at hfeature hcollection hcoordinates
  -- What has none of the three forms is refused, and by an error that no form has.
  obtain ⟨e, hread, he⟩ : ∃ e, ofGeoJson v = .error e ∧ IsInvalid e := by
    cases v with
    | obj members =>
      unfold ofGeoJson
      split
      · exact ⟨_, rfl, trivial⟩
      · rename_i kind hkind
        obtain ⟨u, htype, hu⟩ := Option.bind_eq_some_iff.mp hkind
        cases u with
        | str _ =>
          cases hu
          split
          · subst kind
            rw [ofFeature_eq]
            split
            · exact ⟨_, rfl, trivial⟩
            · exact ⟨_, rfl, trivial⟩
            · exact absurd ⟨htype, ‹_›, ‹_›⟩ (hfeature _)
          split
          · subst kind
            rw [ofCollection_eq]
            split
            · exact absurd ⟨htype, ‹_›⟩ (hcollection _)
            · exact ⟨_, rfl, trivial⟩
          split
          · exact ⟨_, rfl, trivial⟩
          · exact absurd ⟨htype, ‹_›, ‹_›, ‹_›⟩ (hcoordinates _ _)
        | _ => cases hu
    | _ => exact ⟨_, rfl, trivial⟩
  exact .none hfeature hcollection hcoordinates e he hread

end

/-! ### Acceptance -/

private theorem HasParts.sizeOf_lt {v : Json R} {parts : List (Json R)} (h : HasParts v parts) :
    ∀ w ∈ parts, sizeOf w < sizeOf v := by
  obtain h | h := h
  · intro w hw
    obtain rfl := List.mem_singleton.mp hw
    exact Json.sizeOf_lt_of_member? h.geometry
  · intro w hw
    have hitem := List.sizeOf_lt_of_mem hw
    have hitems := Json.sizeOf_lt_of_member? h.geometries
    simp only [Json.arr.sizeOf_spec] at hitems
    omega

/-- What holds of a value as soon as it holds of its parts holds of all values. -/
theorem induction_on_parts {P : Json R → Prop}
    (h : ∀ v, (∀ parts, HasParts v parts → ∀ w ∈ parts, P w) → P v) (v : Json R) : P v :=
  h v fun _ hparts w hw =>
    have := hparts.sizeOf_lt w hw
    induction_on_parts h w
termination_by sizeOf v

/-! A value has one kind only, so that the last step of a derivation is known from it. -/

private theorem kind_unique {v : Json R} {kind kind' : String}
    (h : v.member? "type" = some (.str kind))
    (h' : v.member? "type" = some (.str kind')) : kind = kind' :=
  Json.str.inj (Option.some.inj (h.symm.trans h'))

private theorem IsFeature.not_isCollection {v w : Json R} {items : List (Json R)}
    (h : IsFeature v w)
    (h' : IsCollection v items) : False :=
  absurd (kind_unique h.type h'.type) (by decide)

private theorem HasCoordinates.not_isFeature {v w w' : Json R} {kind : String}
    (h : HasCoordinates v kind w) (h' : IsFeature v w') : False :=
  h.ne_feature (kind_unique h.type h'.type)

private theorem HasCoordinates.not_isCollection {v w : Json R} {kind : String}
    {items : List (Json R)}
    (h : HasCoordinates v kind w) (h' : IsCollection v items) : False :=
  h.ne_collection (kind_unique h.type h'.type)

theorem IsFeature.eq {v w w' : Json R} (h : IsFeature v w) (h' : IsFeature v w') : w = w' :=
  Option.some.inj (h.geometry.symm.trans h'.geometry)

/-- A collection has its members in one order. -/
theorem IsCollection.eq {v : Json R} {items items' : List (Json R)} (h : IsCollection v items)
    (h' : IsCollection v items') : items = items' :=
  Json.arr.inj (Option.some.inj (h.geometries.symm.trans h'.geometries))

/-- The parts of a value are told by it. -/
theorem HasParts.eq {v : Json R} {parts parts' : List (Json R)} (h : HasParts v parts)
    (h' : HasParts v parts') : parts = parts' := by
  cases h with
  | feature h =>
    cases h' with
    | feature h' => rw [h.eq h']
    | collection h' => exact (h.not_isCollection h').elim
  | collection h =>
    cases h' with
    | feature h' => exact (h'.not_isCollection h).elim
    | collection h' => exact h.eq h'

section

variable [Scalar R]

private theorem derives_iff_of_isFeature {v w : Json R} (h : IsFeature v w) {g : Geometry R} :
    Derives v g ↔ Derives w g := by
  refine ⟨fun hg => ?_, .feature h⟩
  cases hg with
  | feature h' hg => exact h.eq h' ▸ hg
  | collection h' _ => exact (h.not_isCollection h').elim
  | coordinates h' _ => exact (h'.not_isFeature h).elim

private theorem derives_iff_of_isCollection {v : Json R} {items : List (Json R)}
    (h : IsCollection v items) {g : Geometry R} :
    Derives v g ↔ ∃ gs, List.Forall₂ Derives items gs ∧ .collection gs = g := by
  constructor
  · intro hg
    cases hg with
    | feature h' _ => exact (h'.not_isCollection h).elim
    | collection h' hgs => exact ⟨_, h.eq h' ▸ hgs, rfl⟩
    | coordinates h' _ => exact (h'.not_isCollection h).elim
  · rintro ⟨gs, hgs, rfl⟩
    exact .collection h hgs

private theorem derives_iff_of_hasCoordinates {v w : Json R} {kind : String}
    (h : HasCoordinates v kind w) {g : Geometry R} : Derives v g ↔ IsCoordinates kind w g := by
  refine ⟨fun hg => ?_, .coordinates h⟩
  cases hg with
  | feature h' _ => exact (h.not_isFeature h').elim
  | collection h' _ => exact (h.not_isCollection h').elim
  | coordinates h' hg =>
    obtain rfl := kind_unique h.type h'.type
    obtain rfl := Option.some.inj (h.coordinates.symm.trans h'.coordinates)
    exact hg

/-- Members are read one after the other, up to the first error. -/
private theorem ofItems_eq_mapM (items : List (Json R)) : ofItems items = items.mapM ofGeoJson := by
  induction items with
  | nil => rfl
  | cons v rest ih =>
    rw [ofItems, List.mapM_cons, ih]
    cases ofGeoJson v with
    | error e => rfl
    | ok g => cases rest.mapM ofGeoJson <;> rfl

/-- **Soundness and completeness**: the reader gives what the value derives. -/
private theorem ofGeoJson_eq_ok_iff (v : Json R) (g : Geometry R) :
    ofGeoJson v = .ok g ↔ Derives v g := by
  induction v using induction_on_parts generalizing g with
  | h v ih =>
    -- the form of the value decides what the reader does and which rule can come last
    cases form v with
    | feature h =>
      rw [ofGeoJson_of_isFeature h, derives_iff_of_isFeature h]
      exact ih _ (.feature h) _ (List.mem_singleton_self _) g
    | @collection items h =>
      have hitems : ∀ gs, ofItems items = .ok gs ↔ List.Forall₂ Derives items gs := by
        intro gs
        rw [ofItems_eq_mapM, mapM_eq_ok_iff]
        constructor
        · intro hgs
          exact ((List.forall₂_and_left _ _).mpr ⟨ih _ (.collection h), hgs⟩).imp
            fun w g ⟨hw, hg⟩ => (hw g).mp hg
        · intro hgs
          exact ((List.forall₂_and_left _ _).mpr ⟨ih _ (.collection h), hgs⟩).imp
            fun w g ⟨hw, hg⟩ => (hw g).mpr hg
      rw [ofGeoJson_of_isCollection h, derives_iff_of_isCollection h]
      exact map_eq_ok_iff.trans (exists_congr fun gs => and_congr_left' (hitems gs))
    | coordinates h =>
      rw [ofGeoJson_of_hasCoordinates h, derives_iff_of_hasCoordinates h, ofCoordinates_eq_ok_iff]
    | none hfeature hcollection hcoordinates e _ hread =>
      refine iff_of_false (by rw [hread]; rintro ⟨⟩) fun hg => ?_
      cases hg with
      | feature h _ => exact hfeature _ h
      | collection h _ => exact hcollection _ h
      | coordinates h _ => exact hcoordinates _ _ h

/-! ### Rejection -/

private theorem exists_derives_iff {v : Json R} : (∃ g, Derives v g) ↔ ∃ g, ofGeoJson v = .ok g :=
  exists_congr fun g => (ofGeoJson_eq_ok_iff v g).symm

/-- What is rejected is so because of a value in it that is read with the same error, and that is at
fault itself. -/
theorem exists_firstOffender {v : Json R} {e : GeometryError R} (h : ofGeoJson v = .error e) :
    ∃ offender, FirstOffender v offender ∧ ofGeoJson offender = .error e := by
  have hrejected : ∀ {v : Json R} {e : GeometryError R}, ofGeoJson v = .error e →
      ∀ g, ¬ Derives v g := by
    intro v e h g hg
    cases h.symm.trans ((ofGeoJson_eq_ok_iff v g).mpr hg)
  -- On the parts of the value: the first part that is refused holds the offender, or there is no
  -- part and the value is the offender itself.
  induction v using induction_on_parts with
  | h v ih =>
    by_cases hparts : ∃ parts, HasParts v parts
    · obtain ⟨parts, hparts⟩ := hparts
      cases hparts with
      | @feature w hfeature =>
        rw [ofGeoJson_of_isFeature hfeature] at h
        obtain ⟨offender, hoffender, he⟩ := ih _ (.feature hfeature) w (List.mem_singleton_self w) h
        exact ⟨offender, .part (.feature hfeature) (List.forall_mem_nil _) hoffender, he⟩
      | collection hcollection =>
        rw [ofGeoJson_of_isCollection hcollection] at h
        have hitems : parts.mapM ofGeoJson = .error e := by
          rw [← ofItems_eq_mapM]
          cases hread : ofItems parts with
          | error e' => rw [hread] at h; exact congrArg _ (Except.error.inj h)
          | ok gs => rw [hread] at h; cases h
        obtain ⟨before, w, after, rfl, hbefore, hw⟩ := exists_split_of_mapM_eq_error hitems
        obtain ⟨offender, hoffender, he⟩ := ih _ (.collection hcollection) w (by simp) hw
        exact ⟨offender, .part (.collection hcollection)
          (fun u hu => exists_derives_iff.mpr (hbefore u hu)) hoffender, he⟩
    · exact ⟨v, .self (not_exists.mp hparts) (hrejected h), h⟩

/-- What derives something has parts that all do. -/
theorem HasParts.exists_derives {v : Json R} {parts : List (Json R)} (h : HasParts v parts)
    {g : Geometry R} (hg : Derives v g) : ∀ w ∈ parts, ∃ g, Derives w g := by
  intro w hw
  cases h with
  | feature h =>
    obtain rfl := List.mem_singleton.mp hw
    exact ⟨g, (derives_iff_of_isFeature h).mp hg⟩
  | collection h =>
    obtain ⟨gs, hgs, -⟩ := (derives_iff_of_isCollection h).mp hg
    have hread := mapM_eq_ok_iff.mpr (hgs.imp fun w g => (ofGeoJson_eq_ok_iff w g).mpr)
    obtain ⟨g, -, hw⟩ := (exists_of_mapM_eq_ok hread).2 w hw
    exact ⟨g, (ofGeoJson_eq_ok_iff w g).mp hw⟩

/-- A value with an offender in it derives nothing. -/
private theorem FirstOffender.not_derives {v offender : Json R} (h : FirstOffender v offender) :
    ¬ ∃ g, Derives v g := by
  induction h with
  | self _ h => exact not_exists.mpr h
  | part hparts _ _ ih =>
    rintro ⟨g, hg⟩
    exact ih (hparts.exists_derives hg _ (by simp))

/-- The first of the members that fail a test is told by it. -/
theorem eq_of_split {α : Type} {P : α → Prop} {before before' after after' : List α} {a a' : α}
    (h : before ++ a :: after = before' ++ a' :: after') (hbefore : ∀ b ∈ before, P b)
    (ha : ¬ P a) (hbefore' : ∀ b ∈ before', P b) (ha' : ¬ P a') : a = a' := by
  induction before generalizing before' with
  | nil =>
    cases before' with
    | nil => exact (List.cons.inj h).1
    | cons b' rest' =>
      exact absurd ((List.cons.inj h).1 ▸ hbefore' b' List.mem_cons_self) ha
  | cons b rest ih =>
    cases before' with
    | nil => exact absurd ((List.cons.inj h).1 ▸ hbefore b List.mem_cons_self) ha'
    | cons b' rest' =>
      exact ih (List.cons.inj h).2 (List.forall_mem_cons.mp hbefore).2
        (List.forall_mem_cons.mp hbefore').2

private theorem FirstOffender.unique {v offender offender' : Json R} (h : FirstOffender v offender)
    (h' : FirstOffender v offender') : offender = offender' := by
  induction h with
  | self hparts _ =>
    cases h' with
    | self => rfl
    | part hparts' _ _ => exact absurd hparts' (hparts _)
  | part hparts hbefore ho ih =>
    cases h' with
    | self hparts' _ => exact absurd hparts (hparts' _)
    | part hparts' hbefore' ho' =>
      obtain rfl := eq_of_split (hparts.eq hparts') hbefore ho.not_derives hbefore'
        ho'.not_derives
      exact ih ho'

/-- What a first offender is read as tells whether its kind is unknown. -/
theorem FirstOffender.kind_of_error {v offender : Json R} (h : FirstOffender v offender)
    {e : GeometryError R} (he : ofGeoJson offender = .error e) :
    (∃ kind, HasUnknownKind offender kind ∧ e = .unsupportedKind kind) ∨
      (∀ kind, ¬ HasUnknownKind offender kind) ∧ IsInvalid e := by
  induction h with
  | part _ _ _ ih => exact ih he
  | @self v hparts _ =>
    cases form v with
    | feature h => exact absurd (.feature h) (hparts _)
    | collection h => exact absurd (.collection h) (hparts _)
    | @coordinates kind w h =>
      rw [ofGeoJson_of_hasCoordinates h] at he
      by_cases hkind : kind ∈ coordinateKinds
      · refine .inr ⟨?_, isInvalid_of_ofCoordinates hkind he⟩
        rintro kind' ⟨hkind', w', h'⟩
        exact hkind' (kind_unique h.type h'.type ▸ hkind)
      · rw [ofCoordinates_eq_error hkind] at he
        exact .inl ⟨kind, ⟨hkind, w, h⟩, (Except.error.inj he).symm⟩
    | none _ _ hcoordinates e' he' hread =>
      obtain rfl := Except.error.inj (he.symm.trans hread)
      exact .inr ⟨fun kind ⟨_, w, h⟩ => hcoordinates kind w h, he'⟩

end

/-! ### Members of other names -/

/-- Objects may differ in all members that have no name of a rule. -/
theorem SameButUnknown.of_lookup_eq {members members' : List (String × Json R)}
    (h : ∀ name ∈ ["type", "coordinates", "geometry", "geometries"],
      Json.lookup name members = Json.lookup name members') :
    SameButUnknown (.obj members) (.obj members') := by
  have hrel : ∀ o : Option (Json R), Option.Rel SameButUnknown o o := by
    rintro (_ | v)
    · exact .none
    · exact .some (.refl v)
  simp only [List.forall_mem_cons] at h
  obtain ⟨htype, hcoordinates, hgeometry, hgeometries, -⟩ := h
  exact .obj htype hcoordinates (hgeometry ▸ hrel _) (hgeometries ▸ hrel _)

section

variable [Scalar R] {members members' : List (String × Json R)}

/-- A feature is read from its member `geometry` alone. -/
private theorem ofFeature_congr
    (h : Option.Rel SameButUnknown (Json.lookup "geometry" members)
      (Json.lookup "geometry" members'))
    (hread : ∀ w w', Json.lookup "geometry" members = some w → SameButUnknown w w' →
      ofGeoJson w = ofGeoJson w') :
    ofFeature members = ofFeature members' := by
  rw [ofFeature_eq, ofFeature_eq]
  generalize Json.lookup "geometry" members = w at h hread
  generalize Json.lookup "geometry" members' = w' at h
  obtain hsame | - := h
  · have hread' := hread _ _ rfl hsame
    cases hsame with
    | refl => rfl
    | arr _ => exact hread'
    | obj _ _ _ _ => exact hread'
  · rfl

/-- A collection is read from its member `geometries` alone. -/
private theorem ofCollection_congr
    (h : Option.Rel SameButUnknown (Json.lookup "geometries" members)
      (Json.lookup "geometries" members'))
    (hread : ∀ items, Json.lookup "geometries" members = some (.arr items) → ∀ w ∈ items, ∀ w',
      SameButUnknown w w' → ofGeoJson w = ofGeoJson w') :
    ofCollection members = ofCollection members' := by
  rw [ofCollection_eq, ofCollection_eq]
  generalize Json.lookup "geometries" members = w at h hread
  generalize Json.lookup "geometries" members' = w' at h
  obtain hsame | - := h
  · cases hsame with
    | refl => rfl
    | obj _ _ _ _ => rfl
    | @arr items items' hitems =>
      have hitems' : ofItems items = ofItems items' := by
        replace hread := hread items rfl
        induction hitems with
        | nil => rfl
        | cons hsame _ ih =>
          obtain ⟨hw, hrest⟩ := List.forall_mem_cons.mp hread
          rw [ofItems, ofItems, hw _ hsame, ih hrest]
      simp only [hitems']
  · rfl

/-- Members that rules do not name make no difference, in the value or in any part of it. -/
theorem SameButUnknown.ofGeoJson_eq {v v' : Json R} (h : SameButUnknown v v') :
    ofGeoJson v = ofGeoJson v' := by
  cases h with
  | refl => rfl
  | arr _ => rfl
  | @obj members members' htype hcoordinates hgeometry hgeometries =>
    have hfeature : ofFeature members = ofFeature members' := by
      refine ofFeature_congr hgeometry fun w w' hw hsame => ?_
      have := Json.sizeOf_lt_of_member? (v := .obj members) hw
      exact hsame.ofGeoJson_eq
    have hcollection : ofCollection members = ofCollection members' := by
      refine ofCollection_congr hgeometries fun items hitems w hw w' hsame => ?_
      have hlt := Json.sizeOf_lt_of_member? (v := .obj members) hitems
      have := List.sizeOf_lt_of_mem hw
      exact hsame.ofGeoJson_eq
    simp only [ofGeoJson, htype, hcoordinates, hfeature, hcollection]
termination_by sizeOf v
decreasing_by
  · assumption
  · simp only [Json.arr.sizeOf_spec] at hlt
    omega

/-- The reader follows the grammar. It gives a geometry just if the value derives it. What it
rejects has one first offender, whose kind is unknown if the error is about that, and which breaks
another rule otherwise. Members of other names make no difference to either. -/
theorem ofGeoJson_exact (v : Json R) :
    (∀ g, ofGeoJson v = .ok g ↔ Derives v g) ∧
    (∀ e, ofGeoJson v = .error e → ∃! offender, FirstOffender v offender ∧
      ((∃ kind, HasUnknownKind offender kind ∧ e = .unsupportedKind kind) ∨
        (∀ kind, ¬ HasUnknownKind offender kind) ∧ IsInvalid e ∧
          e.message = "invalid geometry: " ++ e.detail)) ∧
    ∀ v', SameButUnknown v v' → ofGeoJson v' = ofGeoJson v := by
  refine ⟨ofGeoJson_eq_ok_iff v, fun e h => ?_, fun v' h => h.ofGeoJson_eq.symm⟩
  obtain ⟨offender, hoffender, he⟩ := exists_firstOffender h
  refine ⟨offender, ⟨hoffender, ?_⟩, fun o ho => ho.1.unique hoffender⟩
  exact (hoffender.kind_of_error he).imp_right
    fun ⟨hkind, hinvalid⟩ => ⟨hkind, hinvalid, message_of_isInvalid hinvalid⟩

end

/-- A feature with a ring that is not closed, a position with an altitude and a member of another
name. -/
def plaza (label : Json Float) : Json Float :=
  .obj [("geometry", .obj [("coordinates", .arr [.arr [.arr [.int 0, .int 0], .arr [.int 4, .int 0],
    .arr [.int 0, .int 3, .int 7]]]), ("type", .str "Polygon")]), ("label", label),
    ("type", .str "Feature")]

/-- A collection with a value of a kind without a rule, before one that is no object. -/
def crossing (label : Json Float) : Json Float :=
  .obj [("geometries", .arr [plaza label, .obj [("coordinates", .arr [.int 1, .int 1]),
    ("type", .str "Circle")], .arr []]), ("type", .str "GeometryCollection")]

/-- The ring of the plaza is closed, and its label makes no difference. The first offender of the
crossing is the circle. -/
theorem ofGeoJson_exact_plaza : ∀ label : Json Float,
    Derives (plaza label) (.polygon ⟨[⟨0, 0⟩, ⟨4, 0⟩, ⟨0, 3⟩, ⟨0, 0⟩], []⟩) ∧
    ofGeoJson (plaza label) = ofGeoJson (plaza .null) ∧
    ∃ offender, FirstOffender (crossing label) offender ∧ HasUnknownKind offender "Circle" := by
  intro label
  refine ⟨((ofGeoJson_exact (plaza label)).1 _).mp rfl, ?_, ?_⟩
  · exact (ofGeoJson_exact (plaza .null)).2.2 _ (.of_lookup_eq (by simp [Json.lookup]))
  · obtain ⟨offender, ⟨hoffender, ⟨kind, hkind, he⟩ | ⟨-, he, -⟩⟩, -⟩ :=
      (ofGeoJson_exact (crossing label)).2.1 (.unsupportedKind "Circle") rfl
    · cases he
      exact ⟨offender, hoffender, hkind⟩
    · exact he.elim

end GeoJson

end TransitQuery
