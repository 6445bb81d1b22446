import TransitQuery.Geometry.Cell
import TransitQuery.Proofs.Wkt.ReadBack

/-!
# Which geometries are kept

A geometry is kept by its text if it is read back as it was (`Geometry.IsKept`). Where a part is
empty it may not be: the text may be refused (`Geometry.IsAccepted` says when it is not), and a
polygon without an outer ring is read as another one if it has holes.

`Geometry.IsKept` goes through the kinds: a line of several, a hole or the ring of a polygon among
others has to have positions, a collection has to have members that are kept, and anything with a
name of its own may be empty, since the word for nothing is written then. `Geometry.IsAccepted`
asks for less, because a polygon whose outer ring is empty is accepted with its first hole in place
of it.
-/

namespace TransitQuery

variable {R : Type}

theorem closeRing_eq_nil_iff [BEq R] {ring : List (Position R)} :
    closeRing ring = [] ↔ ring = [] := by
  unfold closeRing
  split
  · exact Iff.rfl
  · rw [List.append_eq_nil_iff]
    exact and_iff_left_of_imp fun h => by rw [h]; rfl

namespace Wkt

/-- A line is read back unless it is empty. -/
private theorem reread?_eq_some_iff {line read : List (Position R)} :
    reread? line = some read ↔ read = line ∧ line ≠ [] := by
  cases line <;> simp [reread?, eq_comm]

/-- Lines in parentheses are read back as they are, or refused. -/
theorem mapM_reread?_eq_some_iff {lines read : List (List (Position R))} :
    lines.mapM reread? = some read ↔ read = lines ∧ ∀ line ∈ lines, line ≠ [] := by
  induction lines generalizing read with
  | nil => simp [eq_comm]
  | cons line lines ih =>
    simp only [mapM_cons_eq_some_iff, reread?_eq_some_iff, ih, List.forall_mem_cons]
    constructor
    · rintro ⟨_, _, ⟨rfl, hline⟩, ⟨rfl, hlines⟩, rfl⟩
      exact ⟨rfl, hline, hlines⟩
    · rintro ⟨rfl, hline, hlines⟩
      exact ⟨_, _, ⟨rfl, hline⟩, ⟨rfl, hlines⟩, rfl⟩

variable [Scalar R]

/-- A polygon is read from its rings if none of them is empty. -/
private theorem rereadPolygon?_eq_some_iff {rings : List (List (Position R))} {g : Polygon R} :
    rereadPolygon? rings = some g ↔ (∀ ring ∈ rings, ring ≠ []) ∧ polygonOfRings rings = g := by
  simp only [rereadPolygon?, Option.map_eq_some_iff, mapM_reread?_eq_some_iff]
  constructor
  · rintro ⟨_, ⟨rfl, hrings⟩, rfl⟩
    exact ⟨hrings, rfl⟩
  · rintro ⟨hrings, rfl⟩
    exact ⟨_, ⟨rfl, hrings⟩, rfl⟩

end Wkt

open Wkt

namespace Polygon

variable {g : Polygon R}

/-- A polygon whose rings have positions. -/
def IsFull (g : Polygon R) : Prop :=
  ∀ ring ∈ g.rings, ring ≠ []

/-- An empty outer ring is not written. -/
theorem writtenRings_of_nil (h : g.exterior = []) : writtenRings g = g.interiors := by
  rw [writtenRings, h]
  rfl

theorem writtenRings_of_ne_nil (h : g.exterior ≠ []) : writtenRings g = g.rings := by
  rw [writtenRings, List.isEmpty_eq_false_iff.mpr h]
  rfl

/-- Only holes can be written without positions. -/
theorem forall_mem_writtenRings :
    (∀ ring ∈ writtenRings g, ring ≠ []) ↔ ∀ ring ∈ g.interiors, ring ≠ [] := by
  by_cases h : g.exterior = []
  · rw [writtenRings_of_nil h]
  · rw [writtenRings_of_ne_nil h, rings, List.forall_mem_cons]
    exact and_iff_right h

/-- Nothing is written just for a polygon without a hole whose outer ring is empty. -/
private theorem writtenRings_eq_nil_iff : writtenRings g = [] ↔ g.rings = [[]] := by
  by_cases h : g.exterior = []
  · rw [writtenRings_of_nil h, rings, h, List.cons_inj_right]
  · rw [writtenRings_of_ne_nil h, rings]
    exact iff_of_false (List.cons_ne_nil _ _) fun heq => h (List.cons.inj heq).1

variable [Scalar R]

/-- A sound polygon is made of its own rings. -/
private theorem polygonOfRings_rings (hg : g.IsSound) : polygonOfRings g.rings = g := by
  have hclosed : ∀ ring ∈ g.rings, closeRing ring = ring :=
    fun ring hring => if_pos (hg ring hring).1
  obtain ⟨hexterior, hinteriors⟩ := List.forall_mem_cons.mp hclosed
  have hmap : g.interiors.map closeRing = g.interiors :=
    (List.map_congr_left hinteriors).trans (List.map_id _)
  change Polygon.ofRings g.exterior g.interiors = g
  rw [ofRings, hexterior, hmap]

/-- Without an outer ring the first hole takes its place, if there is one. -/
theorem eq_nil_of_polygonOfRings (hexterior : g.exterior = [])
    (hinteriors : ∀ ring ∈ g.interiors, ring ≠ []) (h : polygonOfRings g.interiors = g) :
    g.interiors = [] := by
  cases hcase : g.interiors with
  | nil => rfl
  | cons ring rest =>
    rw [hcase] at h hinteriors
    have hring : closeRing ring = [] := (congrArg exterior h).trans hexterior
    exact absurd (closeRing_eq_nil_iff.mp hring) (hinteriors ring List.mem_cons_self)

/-- A polygon of its own is read back if its rings have positions, or if it has none at all. -/
theorem rereadPolygon?_writtenRings (hg : g.IsSound) :
    rereadPolygon? (writtenRings g) = some g ↔ g.IsFull ∨ g.rings = [[]] := by
  rw [rereadPolygon?_eq_some_iff]
  constructor
  · rintro ⟨hrings, heq⟩
    by_cases hexterior : g.exterior = []
    · rw [writtenRings_of_nil hexterior] at hrings heq
      have hinteriors := eq_nil_of_polygonOfRings hexterior hrings heq
      exact .inr (by rw [rings, hexterior, hinteriors])
    · rw [writtenRings_of_ne_nil hexterior] at hrings
      exact .inl hrings
  · rintro (hfull | hnothing)
    · rw [writtenRings_of_ne_nil (hfull g.exterior List.mem_cons_self)]
      exact ⟨hfull, polygonOfRings_rings hg⟩
    · have hself := polygonOfRings_rings hg
      rw [writtenRings_eq_nil_iff.mpr hnothing]
      rw [hnothing] at hself
      exact ⟨List.forall_mem_nil _, hself⟩

/-- A polygon is accepted if none of its rings is empty. -/
private theorem isSome_rereadPolygon? {rings : List (List (Position R))} :
    (rereadPolygon? rings).isSome = true ↔ ∀ ring ∈ rings, ring ≠ [] := by
  simp [Option.isSome_iff_exists, rereadPolygon?_eq_some_iff]

/-- A polygon among others has to have a ring besides. -/
theorem isSome_rereadPolygon?_shownLines :
    (rereadPolygon? (shownLines (writtenRings g))).isSome = true ↔
      g.rings ≠ [[]] ∧ ∀ ring ∈ g.interiors, ring ≠ [] := by
  rw [isSome_rereadPolygon?, ← forall_mem_writtenRings, Ne, ← writtenRings_eq_nil_iff]
  unfold shownLines
  cases writtenRings g <;> simp

/-- A polygon among others is read back if all its rings have positions. -/
private theorem rereadPolygon?_shownLines (hg : g.IsSound) :
    rereadPolygon? (shownLines (writtenRings g)) = some g ↔ g.IsFull := by
  by_cases hnothing : g.rings = [[]]
  · have hrefused : rereadPolygon? (shownLines (writtenRings g)) = none := by
      rw [writtenRings_eq_nil_iff.mpr hnothing]
      rfl
    rw [hrefused]
    refine iff_of_false (fun h => by cases h) fun hfull => ?_
    exact hfull [] (by rw [hnothing]; exact List.mem_singleton_self []) rfl
  · have hshown : shownLines (writtenRings g) = writtenRings g := by
      rw [shownLines, List.isEmpty_eq_false_iff.mpr (mt writtenRings_eq_nil_iff.mp hnothing)]
      rfl
    rw [hshown, rereadPolygon?_writtenRings hg, or_iff_left hnothing]

end Polygon

namespace Geometry

variable [Scalar R]

mutual

/-- A geometry whose text is read as this geometry. -/
def IsKept : Geometry R → Prop
  | polygon g => g.IsFull ∨ g.rings = [[]]
  | multiLineString lines => ∀ line ∈ lines, line ≠ []
  | multiPolygon polygons => ∀ g ∈ polygons, g.IsFull
  | collection members => MembersAreKept members
  | _ => True

/-- Several such geometries. -/
def MembersAreKept : List (Geometry R) → Prop
  | [] => True
  | g :: rest => IsKept g ∧ MembersAreKept rest

end

mutual

/-- A geometry whose text is read as some geometry. -/
def IsAccepted : Geometry R → Prop
  | polygon g => ∀ ring ∈ g.interiors, ring ≠ []
  | multiLineString lines => ∀ line ∈ lines, line ≠ []
  | multiPolygon polygons =>
    ∀ g ∈ polygons, g.rings ≠ [[]] ∧ ∀ ring ∈ g.interiors, ring ≠ []
  | collection members => MembersAreAccepted members
  | _ => True

/-- Several such geometries. -/
def MembersAreAccepted : List (Geometry R) → Prop
  | [] => True
  | g :: rest => IsAccepted g ∧ MembersAreAccepted rest

end

private theorem map_eq_some_iff_of_injective {α β : Type} {f : α → β} (hf : Function.Injective f)
    {o : Option α} {a : α} : o.map f = some (f a) ↔ o = some a := by
  rw [← Option.map_some, (Option.map_injective hf).eq_iff]

mutual

/-- A sound geometry is read back from its text just if it is kept. -/
private theorem reread?_eq_some_self_iff (g : Geometry R) (hg : g.IsSound) :
    g.reread? = some g ↔ g.IsKept := by
  match g with
  | .point p => exact iff_of_true rfl trivial
  | .lineString line => exact iff_of_true rfl trivial
  | .multiPoint points => exact iff_of_true rfl trivial
  | .polygon g =>
    refine (map_eq_some_iff_of_injective fun _ _ h => ?_).trans
      (Polygon.rereadPolygon?_writtenRings hg)
    exact polygon.inj h
  | .multiLineString lines =>
    refine (map_eq_some_iff_of_injective fun _ _ h => ?_).trans
      (mapM_reread?_eq_some_iff.trans (and_iff_right rfl))
    exact multiLineString.inj h
  | .multiPolygon polygons =>
    refine (map_eq_some_iff_of_injective fun _ _ h => ?_).trans (mapM_eq_some_self_iff.trans ?_)
    · exact multiPolygon.inj h
    · exact forall₂_congr fun g hmem => Polygon.rereadPolygon?_shownLines (hg g hmem)
  | .collection members =>
    refine (map_eq_some_iff_of_injective fun _ _ h => ?_).trans
      (rereadMembers?_eq_some_self_iff members hg)
    exact collection.inj h

private theorem rereadMembers?_eq_some_self_iff (members : List (Geometry R))
    (h : MembersConsist (·.isFinite = true) Polygon.IsSound members) :
    rereadMembers? members = some members ↔ MembersAreKept members := by
  match members with
  | [] => exact iff_of_true rfl trivial
  | g :: rest =>
    rw [rereadMembers?_eq_mapM, mapM_cons_eq_some_iff, ← rereadMembers?_eq_mapM, MembersAreKept,
      ← reread?_eq_some_self_iff g h.1, ← rereadMembers?_eq_some_self_iff rest h.2]
    simp

end

mutual

private theorem isSome_reread?_iff (g : Geometry R) : g.reread?.isSome = true ↔ g.IsAccepted := by
  match g with
  | .point p => exact iff_of_true rfl trivial
  | .lineString line => exact iff_of_true rfl trivial
  | .multiPoint points => exact iff_of_true rfl trivial
  | .polygon g =>
    rw [reread?, Option.isSome_map, Polygon.isSome_rereadPolygon?, Polygon.forall_mem_writtenRings]
    rfl
  | .multiLineString lines =>
    rw [reread?, Option.isSome_map, isSome_mapM_iff]
    exact forall₂_congr fun line _ => by cases line <;> simp [Wkt.reread?]
  | .multiPolygon polygons =>
    rw [reread?, Option.isSome_map, isSome_mapM_iff]
    exact forall₂_congr fun _ _ => Polygon.isSome_rereadPolygon?_shownLines
  | .collection members =>
    rw [reread?, Option.isSome_map, isSome_rereadMembers?_iff]
    rfl

private theorem isSome_rereadMembers?_iff (members : List (Geometry R)) :
    (rereadMembers? members).isSome = true ↔ MembersAreAccepted members := by
  match members with
  | [] => exact iff_of_true rfl trivial
  | g :: rest =>
    rw [rereadMembers?_eq_mapM, isSome_mapM_iff, List.forall_mem_cons, ← isSome_mapM_iff,
      ← rereadMembers?_eq_mapM, MembersAreAccepted, isSome_reread?_iff, isSome_rereadMembers?_iff]

end

section

variable [ReadableScalar R] [WrittenScalar R] {g : Geometry R}

/-- A text is accepted if none of its parts is empty. -/
theorem isOk_ofWkt_toWkt_iff (hg : g.IsSound) :
    (ofWkt (R := R) g.toWkt).isOk = true ↔ g.IsAccepted := by
  rw [← isSome_reread?_iff, ofWkt, ofWkt?_toWkt hg]
  cases g.reread? <;> exact Iff.rfl

/-- It is read as the geometry that was written if no ring is lost, either. -/
theorem ofWkt_toWkt_eq_ok_iff (hg : g.IsSound) : ofWkt g.toWkt = .ok g ↔ g.IsKept := by
  rw [← reread?_eq_some_self_iff g hg, ofWkt, ofWkt?_toWkt hg]
  cases g.reread? <;> simp

end

end Geometry

end TransitQuery
