import TransitQuery.Geometry.Cell
import TransitQuery.Proofs.Geometry.Enclosure

/-!
# Closed rings

All rings of a polygon are closed when it is read, whatever the encoding of the cell that holds it
(`Geometry.hasClosedRings_of_ofCell`). For a value that is GeoJSON this is one of the conditions
that coordinates certify; for a text in Well-Known Text it goes through the readers of its parts.

The readers of Well-Known Text close what is open, ring by ring, when a polygon is put together
(`hasClosedRings_polygonOfRings`). So nothing has to be known of the tokens: what a reader of items
yields for each item holds of all items of a group (`forall_of_readMany`), and the readers of
bodies and of geometries are followed along their own recursion, the latter over its fuel.
Coordinates in JSON are different, as open rings are refused there; here the condition is certified
together with those on positions.

That rings are closed is needed where a polygon is measured: only a ring that ends where it starts
has a winding number, and an inside.
-/

namespace TransitQuery

/-- The rings of a polygon are closed. -/
def Polygon.HasClosedRings {R : Type} (g : Polygon R) : Prop :=
  ∀ ring ∈ g.rings, ring.head? = ring.getLast?

/-- A polygon that is made of rings has them closed. -/
theorem Polygon.hasClosedRings_ofRings (exterior : List (Position Exact))
    (interiors : List (List (Position Exact))) : (ofRings exterior interiors).HasClosedRings :=
  List.forall_mem_cons.mpr
    ⟨head?_closeRing, List.forall_mem_map.mpr fun _ _ => head?_closeRing⟩

/-- A geometry whose polygons have closed rings. -/
def Geometry.HasClosedRings {R : Type} (g : Geometry R) : Prop :=
  g.Consists (fun _ => True) Polygon.HasClosedRings

namespace Wkt

section Readers

variable {R α : Type} {item : Reader R α} {P : α → Prop}

/-- What a reader of items preserves holds of all items. -/
theorem forall_of_readMany (h : ∀ rest a rest', item rest = some (a, rest') → P a) {fuel : Nat}
    {rest rest' : Rest R} {as : List α} (hread : readMany item fuel rest = some (as, rest')) :
    ∀ a ∈ as, P a := by
  induction fuel generalizing rest as with
  | zero => cases hread
  | succ fuel ih =>
    rw [readMany] at hread
    split at hread
    · cases hread
    · rename_i a rest hitem
      obtain ⟨⟨as, rest⟩, hmany, heq⟩ := Option.map_eq_some_iff.mp hread
      obtain ⟨rfl, rfl⟩ := Prod.mk.inj heq
      exact List.forall_mem_cons.mpr ⟨h _ _ _ hitem, ih hmany⟩
    · rename_i a rest hitem
      obtain ⟨rfl, rfl⟩ := Prod.mk.inj (Option.some.inj hread)
      exact List.forall_mem_singleton.mpr (h _ _ _ hitem)

/-- What a reader of items preserves holds of a group. -/
private theorem forall_of_readGroup (h : ∀ rest a rest', item rest = some (a, rest') → P a)
    {rest rest' : Rest R} {as : List α} (hread : readGroup item rest = some (as, rest')) :
    ∀ a ∈ as, P a := by
  unfold readGroup at hread
  split at hread
  · split at hread
    · rename_i hmany
      obtain ⟨rfl, rfl⟩ := Prod.mk.inj (Option.some.inj hread)
      exact forall_of_readMany h hmany
    · cases hread
  · split at hread
    · obtain ⟨rfl, rfl⟩ := Prod.mk.inj (Option.some.inj hread)
      exact List.forall_mem_nil _
    · cases hread
  · cases hread

end Readers

private theorem hasClosedRings_polygonOfRings (rings : List (List (Position Exact))) :
    (polygonOfRings rings).HasClosedRings := by
  cases rings with
  | nil => exact Polygon.hasClosedRings_ofRings _ _
  | cons exterior interiors => exact Polygon.hasClosedRings_ofRings _ _

/-- A body that is read has closed rings, whatever its kind. -/
private theorem hasClosedRings_of_readBody {kind : Kind} {extra : Extra} {rest rest' : Rest Exact}
    {g : Geometry Exact} (h : readBody kind extra rest = some (g, rest')) : g.HasClosedRings := by
  cases kind <;> rw [readBody] at h
  case point =>
    obtain ⟨⟨p, _⟩, -, heq⟩ := Option.map_eq_some_iff.mp h
    obtain ⟨rfl, -⟩ := Prod.mk.inj heq
    cases p <;> simp [Geometry.HasClosedRings, Geometry.Consists]
  case polygon =>
    obtain ⟨⟨rings, _⟩, -, heq⟩ := Option.map_eq_some_iff.mp h
    obtain ⟨rfl, -⟩ := Prod.mk.inj heq
    exact hasClosedRings_polygonOfRings rings
  case multiPolygon =>
    obtain ⟨⟨polygons, _⟩, -, heq⟩ := Option.map_eq_some_iff.mp h
    obtain ⟨rfl, -⟩ := Prod.mk.inj heq
    exact List.forall_mem_map.mpr fun rings _ => hasClosedRings_polygonOfRings rings
  case collection => cases h
  all_goals
    obtain ⟨_, -, heq⟩ := Option.map_eq_some_iff.mp h
    obtain ⟨rfl, -⟩ := Prod.mk.inj heq
    simp [Geometry.HasClosedRings, Geometry.Consists]

private theorem hasClosedRings_of_readGeometry {fuel : Nat} {rest rest' : Rest Exact}
    {g : Geometry Exact} (h : readGeometry fuel rest = some (g, rest')) : g.HasClosedRings := by
  induction fuel generalizing rest rest' g with
  | zero => cases h
  | succ fuel ih =>
    unfold readGeometry at h
    split at h
    · split at h
      · cases h
      split at h
      · cases h
      split at h
      · obtain ⟨⟨members, _⟩, hgroup, heq⟩ := Option.map_eq_some_iff.mp h
        obtain ⟨rfl, -⟩ := Prod.mk.inj heq
        exact Geometry.membersConsist_iff.mpr
          (forall_of_readGroup (fun _ _ _ hread => ih hread) hgroup)
      · exact hasClosedRings_of_readBody h
    · cases h

end Wkt

private theorem Geometry.hasClosedRings_of_ofWkt? {text : String} {g : Geometry Exact}
    (h : ofWkt? text = some g) : g.HasClosedRings := by
  unfold ofWkt? ofWktChars? at h
  obtain ⟨⟨read, rest⟩, hread, hg⟩ := Option.map_eq_some_iff.mp h
  rw [← hg]
  exact Wkt.hasClosedRings_of_readGeometry hread

/-! ### Cells -/

/-- Rings are closed when they are read. -/
theorem Geometry.hasClosedRings_of_ofCell {v : Json Exact} {g : Geometry Exact}
    (h : ofCell v = .ok g) : g.HasClosedRings := by
  have hgeoJson : ∀ v, ofGeoJson v = .ok g → g.HasClosedRings := fun v h =>
    consists_of_ofGeoJson (certifies_of_ofRings Polygon.hasClosedRings_ofRings) v trivial h
  unfold ofCell at h
  split at h
  · exact hgeoJson _ h
  · dsimp only at h
    split at h
    · unfold ofGeoJsonText at h
      split at h
      · exact hgeoJson _ h
      · cases h
    · unfold ofWkt at h
      split at h
      · rename_i hread
        exact hasClosedRings_of_ofWkt? (Except.ok.inj h ▸ hread)
      · cases h
  · cases h

end TransitQuery
