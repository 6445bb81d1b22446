import TransitQuery.Geometry.GeoJson
import TransitQuery.Proofs.Computation

/-!
# What geometries consist of

A geometry is made of positions and of polygons. What holds of all positions and polygons that are
read from arrays of coordinates holds throughout a geometry that is read from GeoJSON
(`Geometry.consists_of_ofGeoJson`). The arrays are parts of the value, so that a condition which
the parts of a value inherit from it may be used on the way (`Json.IsInherited`).

`Geometry.Consists` goes through the seven kinds and the members of collections, with one condition
for positions and one for polygons. `Geometry.Certifies` is the hypothesis that one has to prove:
coordinates that satisfy the inherited condition are read as positions and polygons that satisfy
the two others. Polygons have a condition of their own since there is more to them than positions:
their rings are closed, or their bounds contain them. It is used four times, for positions that are
finite, for rings that are closed, for boxes that contain what they belong to, and for geometries
that can be written. Each use proves something about coordinates only; the induction over features
and collections is here.

The induction follows the readers, which call each other for objects, features and collections, and
ends because the parts of a value are smaller than the value.
-/

namespace TransitQuery

variable {R : Type}

namespace Json

/-- A condition on values that the parts of a value inherit. -/
structure IsInherited (Holds : Json R → Prop) : Prop where
  of_items : ∀ items, Holds (arr items) → ∀ v ∈ items, Holds v
  of_members : ∀ members, Holds (obj members) → ∀ m ∈ members, Holds m.2

/-- What is found in an object is the value of a member. -/
private theorem mem_of_lookup {name : String} {v : Json R} {members : List (String × Json R)}
    (h : lookup name members = some v) : ∃ k, (k, v) ∈ members := by
  induction members with
  | nil => cases h
  | cons m rest ih =>
    obtain ⟨k, w⟩ := m
    rw [lookup] at h
    split at h
    · obtain rfl := Option.some.inj h
      exact ⟨k, List.mem_cons_self⟩
    · obtain ⟨k', hk'⟩ := ih h
      exact ⟨k', List.mem_cons_of_mem _ hk'⟩

theorem IsInherited.of_member? {Holds : Json R → Prop} (hinherited : IsInherited Holds)
    {v w : Json R} {name : String} (h : Holds v) (hw : v.member? name = some w) : Holds w := by
  cases v with
  | obj members =>
    obtain ⟨k, hk⟩ := mem_of_lookup hw
    exact hinherited.of_members members h _ hk
  | _ => cases hw

end Json

namespace Geometry

mutual

/-- A geometry whose positions satisfy one condition, and whose polygons another one. -/
def Consists (P : Position R → Prop) (A : Polygon R → Prop) : Geometry R → Prop
  | point p => P p
  | lineString line => ∀ p ∈ line, P p
  | polygon g => A g
  | multiPoint points => ∀ p ∈ points, P p
  | multiLineString lines => ∀ line ∈ lines, ∀ p ∈ line, P p
  | multiPolygon polygons => ∀ g ∈ polygons, A g
  | collection members => MembersConsist P A members

/-- Several such geometries. -/
def MembersConsist (P : Position R → Prop) (A : Polygon R → Prop) : List (Geometry R) → Prop
  | [] => True
  | g :: rest => Consists P A g ∧ MembersConsist P A rest

end

variable {Holds : Json R → Prop} {P : Position R → Prop} {A : Polygon R → Prop}

/-- Several geometries satisfy the conditions if each does. -/
theorem membersConsist_iff {members : List (Geometry R)} :
    MembersConsist P A members ↔ ∀ g ∈ members, Consists P A g := by
  induction members with
  | nil => simp [MembersConsist]
  | cons g rest ih => rw [MembersConsist, ih, List.forall_mem_cons]

/-! ### Coordinates -/

theorem eq_arr_of_coordinateItems {v : Json R} {items : List (Json R)}
    (h : coordinateItems v = .ok items) : v = .arr items := by
  unfold coordinateItems at h
  cases v with
  | arr items' => exact congrArg _ (Except.ok.inj h)
  | _ => cases h

/-- What is read from an array of coordinates comes from its items. -/
theorem exists_of_coordinates {α : Type} {read : Json R → Except (GeometryError R) α}
    {v : Json R} {as : List α} (hinherited : Json.IsInherited Holds) (hv : Holds v)
    (h : (do (← coordinateItems v).mapM read) = Except.ok as) :
    ∀ a ∈ as, ∃ w, Holds w ∧ read w = .ok a := by
  obtain ⟨items, hitems, h⟩ := bind_eq_ok_iff.mp h
  obtain rfl := eq_arr_of_coordinateItems hitems
  intro a ha
  obtain ⟨w, hw, hread⟩ := (exists_of_mapM_eq_ok h).1 a ha
  exact ⟨w, hinherited.of_items _ hv w hw, hread⟩

section

variable [Scalar R] (hinherited : Json.IsInherited Holds)
  (hP : ∀ v p, Holds v → positionOf v = .ok p → P p) {v : Json R} (hv : Holds v)
include hinherited hP hv

private theorem forall_of_lineOf {line : List (Position R)} (h : lineOf v = .ok line) :
    ∀ p ∈ line, P p := by
  intro p hp
  obtain ⟨w, hw, hread⟩ := exists_of_coordinates hinherited hv h p hp
  exact hP w p hw hread

private theorem forall_of_linesOf {lines : List (List (Position R))} (h : linesOf v = .ok lines) :
    ∀ line ∈ lines, ∀ p ∈ line, P p := by
  intro line hline
  obtain ⟨w, hw, hread⟩ := exists_of_coordinates hinherited hv h line hline
  exact forall_of_lineOf hinherited hP hw hread

/-- A polygon that is read is made of rings that are read. -/
theorem exists_of_polygonOf {g : Polygon R} (h : polygonOf v = .ok g) :
    ∃ exterior interiors, g = Polygon.ofRings exterior interiors ∧
      ∀ ring ∈ exterior :: interiors, ∀ p ∈ ring, P p := by
  obtain ⟨lines, hlines, h⟩ := bind_eq_ok_iff.mp h
  split at h
  · rename_i exterior interiors
    exact ⟨exterior, interiors, (Except.ok.inj h).symm, forall_of_linesOf hinherited hP hv hlines⟩
  · cases h

end

/-- A condition on values that makes the positions which are read from them satisfy one condition,
and the polygons another one. -/
structure Certifies [Scalar R] (Holds : Json R → Prop) (P : Position R → Prop)
    (A : Polygon R → Prop) : Prop where
  isInherited : Json.IsInherited Holds
  of_positionOf : ∀ v p, Holds v → positionOf v = .ok p → P p
  of_polygonOf : ∀ v g, Holds v → polygonOf v = .ok g → A g

variable [Scalar R]

/-- What holds of the polygons that are made of rings holds of those that are read. -/
theorem certifies_of_ofRings (h : ∀ exterior interiors, A (Polygon.ofRings exterior interiors)) :
    Certifies (fun _ => True) (fun _ => True) A := by
  have hinherited : Json.IsInherited fun _ : Json R => True :=
    ⟨fun _ _ _ _ => trivial, fun _ _ _ _ => trivial⟩
  have hposition : ∀ (v : Json R) p, True → positionOf v = .ok p → True := fun _ _ _ _ => trivial
  refine ⟨hinherited, hposition, fun v g hv hg => ?_⟩
  obtain ⟨exterior, interiors, rfl, -⟩ := exists_of_polygonOf hinherited hposition hv hg
  exact h exterior interiors

/-- What is read from coordinates satisfies the conditions, whatever the kind. -/
private theorem consists_of_ofCoordinates (hholds : Certifies Holds P A) {kind : String}
    {v : Json R}
    {g : Geometry R} (hv : Holds v) (h : ofCoordinates kind v = .ok g) : g.Consists P A := by
  unfold ofCoordinates at h
  split at h
  · obtain ⟨p, hp, rfl⟩ := map_eq_ok_iff.mp h
    exact hholds.of_positionOf v p hv hp
  split at h
  · obtain ⟨points, hpoints, rfl⟩ := map_eq_ok_iff.mp h
    exact forall_of_lineOf hholds.isInherited hholds.of_positionOf hv hpoints
  split at h
  · obtain ⟨line, hline, rfl⟩ := map_eq_ok_iff.mp h
    exact forall_of_lineOf hholds.isInherited hholds.of_positionOf hv hline
  split at h
  · obtain ⟨lines, hlines, rfl⟩ := map_eq_ok_iff.mp h
    exact forall_of_linesOf hholds.isInherited hholds.of_positionOf hv hlines
  split at h
  · obtain ⟨g, hg, rfl⟩ := map_eq_ok_iff.mp h
    exact hholds.of_polygonOf v g hv hg
  split at h
  · obtain ⟨polygons, hpolygons, rfl⟩ := map_eq_ok_iff.mp h
    intro g hg
    obtain ⟨w, hw, hread⟩ := exists_of_coordinates hholds.isInherited hv hpolygons g hg
    exact hholds.of_polygonOf w g hw hread
  · cases h

/-! ### Objects -/

mutual

/-- What is read from a value satisfies the conditions. -/
theorem consists_of_ofGeoJson (hholds : Certifies Holds P A) (v : Json R) {g : Geometry R}
    (hv : Holds v) (h : ofGeoJson v = .ok g) : g.Consists P A := by
  match v with
  | .obj members =>
    have hmembers := hholds.isInherited.of_members members hv
    rw [ofGeoJson] at h
    split at h
    · cases h
    split at h
    · exact consists_of_ofFeature hholds members hmembers h
    split at h
    · exact consists_of_ofCollection hholds members hmembers h
    split at h
    · cases h
    · rename_i w hw
      obtain ⟨k, hk⟩ := Json.mem_of_lookup hw
      exact consists_of_ofCoordinates hholds (hmembers _ hk) h
  | .null | .bool _ | .int _ | .real _ | .str _ | .arr _ => cases h

private theorem consists_of_ofFeature (hholds : Certifies Holds P A)
    (members : List (String × Json R))
    {g : Geometry R} (hmembers : ∀ m ∈ members, Holds m.2)
    (h : ofFeature members = .ok g) : g.Consists P A := by
  match members with
  | [] => cases h
  | (name, v) :: rest =>
    obtain ⟨hv, hrest⟩ := List.forall_mem_cons.mp hmembers
    unfold ofFeature at h
    split at h
    · split at h
      · cases h
      · exact consists_of_ofGeoJson hholds v hv h
    · exact consists_of_ofFeature hholds rest hrest h

private theorem consists_of_ofCollection (hholds : Certifies Holds P A)
    (members : List (String × Json R))
    {g : Geometry R} (hmembers : ∀ m ∈ members, Holds m.2)
    (h : ofCollection members = .ok g) : g.Consists P A := by
  match members with
  | [] => cases h
  | (name, v) :: rest =>
    obtain ⟨hv, hrest⟩ := List.forall_mem_cons.mp hmembers
    unfold ofCollection at h
    split at h
    · match v with
      | .arr items =>
        obtain ⟨gs, hgs, rfl⟩ := map_eq_ok_iff.mp h
        exact membersConsist_of_ofItems hholds items (hholds.isInherited.of_items items hv) hgs
      | .null | .bool _ | .int _ | .real _ | .str _ | .obj _ => cases h
    · exact consists_of_ofCollection hholds rest hrest h

private theorem membersConsist_of_ofItems (hholds : Certifies Holds P A) (items : List (Json R))
    {gs : List (Geometry R)} (hitems : ∀ v ∈ items, Holds v) (h : ofItems items = .ok gs) :
    MembersConsist P A gs := by
  match items with
  | [] =>
    obtain rfl := Except.ok.inj h
    trivial
  | v :: rest =>
    obtain ⟨hv, hrest⟩ := List.forall_mem_cons.mp hitems
    rw [ofItems] at h
    split at h
    · cases h
    · rename_i g hg
      split at h
      · cases h
      · rename_i gs' hgs
        obtain rfl := Except.ok.inj h
        exact ⟨consists_of_ofGeoJson hholds v hv hg,
          membersConsist_of_ofItems hholds rest hrest hgs⟩

end

end Geometry

end TransitQuery
