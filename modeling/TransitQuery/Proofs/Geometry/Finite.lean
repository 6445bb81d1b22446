import TransitQuery.Geometry.Box
import TransitQuery.Proofs.Geometry.Consists
import TransitQuery.Proofs.Json.Fields

/-!
# Geometries with finite coordinates

The numbers in a text are finite, so all positions of a geometry that is read from one are. The
sides of its box are coordinates of its positions and finite, too
(`Geometry.isFinite_of_box?`).

An infinite side would be worthless in a condition, since no literal stands for it, and it could
not be put into a column. The proof has three stages, one in each section.

* `Json.isHeld_of_ofText?`: the values in a text are finite, at any depth. A property of this kind
  is inherited by the parts of a value (`Json.isInherited_isHeld`), which is how it reaches the
  coordinates.
* `Geometry.isFinite_of_ofGeoJson`: what is read keeps the scalars as they are, and closing a ring
  only repeats its first position.
* `Geometry.isFinite_of_box?`: to widen a box is to choose one of two scalars, for each side.

The geometry need not be what the text says in any other respect: the statements hold for rings
that cross themselves, for holes outside of their outer rings and for collections of collections.
-/

namespace TransitQuery

variable {R : Type} [Scalar R]

/-! ### Values that a text can hold -/

namespace Json

/-- A text can hold the value. -/
def IsHeld (v : Json R) : Prop :=
  ∃ depth, v.Fits .any depth

/-- What holds a value holds its parts, so the property passes to items and members. -/
theorem isInherited_isHeld : IsInherited (IsHeld (R := R)) where
  of_items := fun _ ⟨_, inner, _, hitems⟩ v hv => ⟨inner, hitems.forall_fits rfl v hv⟩
  of_members := fun _ ⟨_, inner, _, hmembers⟩ m hm => ⟨inner, membersFit_iff.mp hmembers m hm⟩

/-- The numbers in what a text can hold are finite. -/
theorem IsHeld.hasFiniteNumbers {v : Json R} (h : v.IsHeld) : v.hasFiniteNumbers = true :=
  h.elim fun _ hfits => hfits.hasFiniteNumbers

variable [SteadyScalar R]

/-- What has been read from a text can be held by one. -/
theorem isHeld_of_ofText? {text : String} {v : Json R} (h : ofText? text = some v) :
    v.IsHeld := by
  obtain ⟨w, hw, rfl⟩ := Option.map_eq_some_iff.mp h
  exact ⟨maxDepth, (fits_of_parse? hw).normalize⟩

private theorem IsHeld.isFinite_number {v : Json R} {x : R} (h : v.IsHeld)
    (hx : v.number? = some x) :
    Scalar.isFinite x = true := by
  obtain ⟨depth, hfits⟩ := h
  exact reads_number? _ depth v x hfits hx

end Json

/-! ### Positions that are read -/

/-- Whether both coordinates are finite. -/
def Position.isFinite (p : Position R) : Bool :=
  Scalar.isFinite p.x && Scalar.isFinite p.y

/-- Whether all positions of the outer ring are finite. -/
def Polygon.isFinite (g : Polygon R) : Bool :=
  g.exterior.all Position.isFinite

omit [Scalar R] in
/-- To close a ring adds no position that it does not have. -/
theorem mem_of_mem_closeRing [BEq R] {ring : List (Position R)} {p : Position R}
    (h : p ∈ closeRing ring) : p ∈ ring := by
  unfold closeRing at h
  split at h
  · exact h
  · obtain h | h := List.mem_append.mp h
    · exact h
    · exact List.mem_of_mem_head? (Option.mem_toList.mp h)

namespace Geometry

/-- A geometry whose box is made of finite coordinates. -/
def IsFinite : Geometry R → Prop :=
  Consists (·.isFinite = true) (·.isFinite = true)

variable [SteadyScalar R] {v : Json R}

/-- Positions take their coordinates from the value as they are. -/
theorem isFinite_of_positionOf {p : Position R} (hv : v.IsHeld) (h : positionOf v = .ok p) :
    p.isFinite = true := by
  obtain ⟨items, hitems, hread⟩ := bind_eq_ok_iff.mp h
  obtain rfl := eq_arr_of_coordinateItems hitems
  have hheld := Json.isInherited_isHeld.of_items _ hv
  split at hread
  · rename_i x y rest
    split at hread
    · rename_i x' y' hx hy
      obtain rfl := Except.ok.inj hread
      exact Bool.and_eq_true_iff.mpr
        ⟨(hheld x (by simp)).isFinite_number hx, (hheld y (by simp)).isFinite_number hy⟩
    · cases hread
  · cases hread

private theorem isFinite_of_polygonOf {g : Polygon R} (hv : v.IsHeld) (h : polygonOf v = .ok g) :
    g.isFinite = true := by
  obtain ⟨exterior, interiors, rfl, hfinite⟩ := exists_of_polygonOf Json.isInherited_isHeld
    (fun _ _ hv h => isFinite_of_positionOf hv h) hv h
  exact List.all_eq_true.mpr fun p hp =>
    hfinite exterior List.mem_cons_self p (mem_of_mem_closeRing hp)

/-- The coordinates in a value that a text can hold are finite. -/
theorem isFinite_of_ofGeoJson {g : Geometry R} (hv : v.IsHeld) (h : ofGeoJson v = .ok g) :
    g.IsFinite :=
  consists_of_ofGeoJson ⟨Json.isInherited_isHeld, fun _ _ => isFinite_of_positionOf,
    fun _ _ => isFinite_of_polygonOf⟩ v hv h

end Geometry

/-! ### Boxes -/

namespace Box

/-- Whether all four sides are finite. -/
def isFinite (b : Box R) : Bool :=
  Scalar.isFinite b.minx && Scalar.isFinite b.miny && Scalar.isFinite b.maxx &&
    Scalar.isFinite b.maxy

/-- A box is finite if its four sides are. -/
theorem isFinite_iff {b : Box R} :
    b.isFinite = true ↔ (Scalar.isFinite b.minx = true ∧ Scalar.isFinite b.maxx = true) ∧
      Scalar.isFinite b.miny = true ∧ Scalar.isFinite b.maxy = true := by
  simp only [isFinite, Bool.and_eq_true]
  tauto

/-- Each end of a widened interval is one of its ends or the value. -/
private theorem isFinite_widen {v low high : R} (hv : Scalar.isFinite v = true)
    (h : Scalar.isFinite low = true ∧ Scalar.isFinite high = true) :
    Scalar.isFinite (widen v low high).1 = true ∧ Scalar.isFinite (widen v low high).2 = true := by
  unfold widen
  split
  · exact ⟨h.1, hv⟩
  split
  · exact ⟨hv, h.2⟩
  · exact h

private theorem isFinite_including {b : Box R} {p : Position R} (hb : b.isFinite = true)
    (hp : p.isFinite = true) : (b.including p).isFinite = true := by
  obtain ⟨hx, hy⟩ := Bool.and_eq_true_iff.mp hp
  obtain ⟨hacross, hup⟩ := isFinite_iff.mp hb
  exact isFinite_iff.mpr ⟨isFinite_widen hx hacross, isFinite_widen hy hup⟩

private theorem isFinite_of_ofPositions {ps : List (Position R)} {b : Box R}
    (hps : ∀ p ∈ ps, p.isFinite = true) (h : ofPositions ps = some b) : b.isFinite = true := by
  cases ps with
  | nil => cases h
  | cons p rest =>
    obtain rfl := Option.some.inj h
    obtain ⟨hp, hrest⟩ := List.forall_mem_cons.mp hps
    obtain ⟨hx, hy⟩ := Bool.and_eq_true_iff.mp hp
    have hstart : (⟨p.x, p.y, p.x, p.y⟩ : Box R).isFinite = true :=
      isFinite_iff.mpr ⟨⟨hx, hx⟩, hy, hy⟩
    exact List.foldlRecOn (motive := fun b => b.isFinite = true) rest including hstart
      fun b hb q hq => isFinite_including hb (hrest q hq)

private theorem isFinite_join {a b : Box R} (ha : a.isFinite = true) (hb : b.isFinite = true) :
    (join a b).isFinite = true := by
  obtain ⟨⟨h₁, h₂⟩, h₃, h₄⟩ := isFinite_iff.mp ha
  obtain ⟨⟨h₁', h₂'⟩, h₃', h₄'⟩ := isFinite_iff.mp hb
  refine isFinite_iff.mpr ⟨⟨?_, ?_⟩, ?_, ?_⟩ <;> unfold join <;> dsimp only <;> split <;> assumption

/-- Sides of a join are sides of one of the two boxes. -/
private theorem isFinite_of_joinOptions {a b : Option (Box R)} (ha : ∀ x ∈ a, x.isFinite = true)
    (hb : ∀ x ∈ b, x.isFinite = true) : ∀ x ∈ joinOptions a b, x.isFinite = true := by
  cases a with
  | none => exact hb
  | some a =>
    cases b with
    | none => exact ha
    | some b =>
      rintro x hx
      obtain rfl := Option.some.inj hx
      exact isFinite_join (ha a rfl) (hb b rfl)

end Box

namespace Geometry

mutual

/-- The sides of a box are coordinates of what it holds. -/
theorem isFinite_of_box? (g : Geometry R) (hg : g.IsFinite) :
    ∀ b ∈ g.box?, b.isFinite = true := by
  intro b hb
  match g with
  | .point p => exact Box.isFinite_of_ofPositions (List.forall_mem_singleton.mpr hg) hb
  | .lineString line => exact Box.isFinite_of_ofPositions hg hb
  | .polygon g => exact Box.isFinite_of_ofPositions (List.all_eq_true.mp hg) hb
  | .multiPoint points => exact Box.isFinite_of_ofPositions hg hb
  | .multiLineString lines =>
    refine Box.isFinite_of_ofPositions (fun p hp => ?_) hb
    obtain ⟨line, hline, hp⟩ := List.mem_flatten.mp hp
    exact hg line hline p hp
  | .multiPolygon polygons =>
    refine Box.isFinite_of_ofPositions (fun p hp => ?_) hb
    obtain ⟨g, hmem, hp⟩ := List.mem_flatMap.mp hp
    exact List.all_eq_true.mp (hg g hmem) p hp
  | .collection members =>
    exact isFinite_of_membersBox? members none hg (by simp) b hb

private theorem isFinite_of_membersBox? (members : List (Geometry R)) (acc : Option (Box R))
    (hmembers : MembersConsist (·.isFinite = true) (·.isFinite = true) members)
    (hacc : ∀ b ∈ acc, b.isFinite = true) :
    ∀ b ∈ membersBox? members acc, b.isFinite = true := by
  match members with
  | [] => exact hacc
  | g :: rest =>
    rw [membersBox?]
    exact isFinite_of_membersBox? rest _ hmembers.2
      (Box.isFinite_of_joinOptions hacc (isFinite_of_box? g hmembers.1))

end

end Geometry

end TransitQuery
