import TransitQuery.Proofs.Geometry.Winding

/-!
# What is nearest in a geometry

The distance in degrees from a position to a geometry, over exact coordinates. It is zero strictly
inside a polygon; else it is the least distance to a position of the geometry, with all positions of
its segments, and this is attained (`Geometry.isLeast_degrees`). Members without positions are
passed over, and only a geometry that has none at all has no distance.

The statement is about a set of real numbers, `gaps`: the distances to all positions of the lines
and rings, and zero where the position is strictly inside of a polygon. `IsLeastOf` says that an
optional value is the least of a set, or none if the set is empty, so that the empty parts of a
geometry need no case of their own.

* `isLeastOf_closest`: on a segment, the place that is measured is at the least distance.
* `isLeastOf_leastOf_filterMap`: the least of the least values of several sets is the least of
  their union.
* `Polygon.isLeastOf_degrees?`: a polygon has the gaps of its rings, and zero inside of them.

The induction over geometries applies the second of these to the members of a collection. What is
inside is not what the count of crossings says but what the way around the rings says
(`Polygon.Encloses`), for which the rings have to be closed; they are when they are read.
-/

namespace TransitQuery

/-! ### Least values -/

/-- A value that is the least of a set, or none if the set is empty. -/
def IsLeastOf (D : Set ℝ) : Option Exact → Prop
  | none => D = ∅
  | some d => IsLeast D d.toReal

namespace IsLeastOf

variable {D D' : Set ℝ} {o : Option Exact}

/-- What is above the least of a set may be added to it. -/
theorem of_forall_exists_le (h : IsLeastOf D o) (hsub : D ⊆ D')
    (hle : ∀ r ∈ D', ∃ s ∈ D, s ≤ r) : IsLeastOf D' o := by
  cases o with
  | none =>
    refine Set.eq_empty_of_forall_notMem fun r hr => ?_
    obtain ⟨s, hs, -⟩ := hle r hr
    rw [show D = ∅ from h] at hs
    exact hs
  | some d =>
    refine ⟨hsub h.1, fun r hr => ?_⟩
    obtain ⟨s, hs, hsr⟩ := hle r hr
    exact (h.2 hs).trans hsr

/-- A set with a member has a least value, not above that member. -/
private theorem exists_le (h : IsLeastOf D o) {r : ℝ} (hr : r ∈ D) :
    ∃ d, o = some d ∧ d.toReal ≤ r := by
  cases o with
  | none =>
    rw [show D = ∅ from h] at hr
    exact absurd hr (Set.notMem_empty r)
  | some d => exact ⟨d, rfl, h.2 hr⟩

end IsLeastOf

/-- The lesser of two scalars is the lesser of their values. -/
private theorem toReal_least (x y : Exact) : (Scalar.least x y).toReal = min x.toReal y.toReal := by
  unfold Scalar.least
  split
  · rename_i h
    exact (min_eq_left ((Exact.le_def ..).mp h)).symm
  · rename_i h
    rw [Exact.le_def, not_le] at h
    rw [if_pos ((Exact.le_def ..).mpr h.le), min_eq_right h.le]

/-- A value that is folded in is not below the least one. -/
private theorem foldl_least_le (xs : List Exact) (x : Exact) :
    (xs.foldl Scalar.least x).toReal ≤ x.toReal ∧
      ∀ y ∈ xs, (xs.foldl Scalar.least x).toReal ≤ y.toReal := by
  induction xs generalizing x with
  | nil => exact ⟨le_rfl, by simp⟩
  | cons y ys ih =>
    obtain ⟨hleast, hall⟩ := ih (Scalar.least x y)
    rw [toReal_least, le_min_iff] at hleast
    exact ⟨hleast.1, List.forall_mem_cons.mpr ⟨hleast.2, hall⟩⟩

/-- The least of a list is the least of its values. -/
theorem isLeastOf_leastOf (xs : List Exact) :
    IsLeastOf {r | ∃ x ∈ xs, x.toReal = r} (Scalar.leastOf xs) := by
  cases xs with
  | nil => simp [Scalar.leastOf, IsLeastOf]
  | cons x xs =>
    refine ⟨⟨_, Scalar.mem_of_leastOf rfl, rfl⟩, ?_⟩
    rintro _ ⟨y, hy, rfl⟩
    obtain ⟨hx, hxs⟩ := foldl_least_le xs x
    obtain rfl | hy := List.mem_cons.mp hy
    exacts [hx, hxs y hy]

/-- The least of the least values of several sets; empty sets are passed over. -/
theorem isLeastOf_leastOf_filterMap {α : Type} {as : List α} {f : α → Option Exact}
    {D : α → Set ℝ} (h : ∀ a ∈ as, IsLeastOf (D a) (f a)) :
    IsLeastOf {r | ∃ a ∈ as, r ∈ D a} (Scalar.leastOf (as.filterMap f)) := by
  refine (isLeastOf_leastOf (as.filterMap f)).of_forall_exists_le ?_ ?_
  · rintro _ ⟨x, hx, rfl⟩
    obtain ⟨a, ha, hfa⟩ := List.mem_filterMap.mp hx
    have hleast := h a ha
    rw [hfa] at hleast
    exact ⟨a, ha, hleast.1⟩
  · rintro r ⟨a, ha, hr⟩
    obtain ⟨d, hd, hle⟩ := (h a ha).exists_le hr
    exact ⟨_, ⟨d, List.mem_filterMap.mpr ⟨a, ha, hd⟩, rfl⟩, hle⟩

/-! ### Lines and polygons -/

section Parts

variable {p : Position Exact}

/-- The distances from a position to those of a set. -/
def distancesTo (p : Position Exact) (S : Set (Position Exact)) : Set ℝ :=
  (fun q => (q.distance p).toReal) '' S

/-- On a segment, the place that is measured is at the least distance. -/
private theorem isLeastOf_closest (s : Segment Exact) (p : Position Exact) :
    IsLeastOf (distancesTo p s.points) (some ((s.closest p).distance p)) := by
  refine ⟨⟨_, (s.closest_spec p).1, rfl⟩, ?_⟩
  rintro _ ⟨q, hq, rfl⟩
  exact Segment.distance_closest_le hq

private theorem isLeastOf_lineDegrees? (line : List (Position Exact)) (p : Position Exact) :
    IsLeastOf (distancesTo p (linePoints line)) (lineDegrees? line p) := by
  unfold lineDegrees?
  split
  · rename_i q
    simp [IsLeastOf, distancesTo]
  · rename_i hline
    have hsegments : ∀ s ∈ segments line,
        IsLeastOf (distancesTo p s.points) (some ((s.closest p).distance p)) :=
      fun s _ => isLeastOf_closest s p
    have hleast := isLeastOf_leastOf_filterMap hsegments
    rw [List.filterMap_eq_map'] at hleast
    have hset : distancesTo p (linePoints line) =
        {r | ∃ s ∈ segments line, r ∈ distancesTo p s.points} := by
      ext r
      simp only [distancesTo, Set.mem_image, mem_linePoints_iff hline, Set.mem_ofPred_eq]
      tauto
    rwa [hset]

/-- The distances from a position to figures that are made of lines, and zero inside of some
polygons. -/
def gaps (p : Position Exact) (lines : List (List (Position Exact)))
    (polygons : List (Polygon Exact)) : Set ℝ :=
  {r | ((∃ g ∈ polygons, g.Encloses p) ∧ r = 0) ∨
    ∃ line ∈ lines, r ∈ distancesTo p (linePoints line)}

/-- The parts of figures count each by itself. -/
theorem mem_gaps_flatMap {α : Type} {as : List α} {lines : α → List (List (Position Exact))}
    {polygons : α → List (Polygon Exact)} {r : ℝ} :
    r ∈ gaps p (as.flatMap lines) (as.flatMap polygons) ↔
      ∃ a ∈ as, r ∈ gaps p (lines a) (polygons a) := by
  induction as with
  | nil => simp [gaps]
  | cons a as ih =>
    rw [List.exists_mem_cons_iff, ← ih]
    simp only [gaps, List.flatMap_cons, List.mem_append, or_and_right, exists_or,
      Set.mem_ofPred_eq]
    exact or_or_or_comm

private theorem isLeastOf_lines (lines : List (List (Position Exact))) (p : Position Exact) :
    IsLeastOf (gaps p lines []) (Scalar.leastOf (lines.filterMap (lineDegrees? · p))) := by
  have hset : gaps p lines [] = {r | ∃ line ∈ lines, r ∈ distancesTo p (linePoints line)} := by
    simp [gaps]
  rw [hset]
  exact isLeastOf_leastOf_filterMap fun line _ => isLeastOf_lineDegrees? line p

private theorem distance_nonneg (p q : Position Exact) : 0 ≤ (p.distance q).toReal :=
  Real.sqrt_nonneg _

private theorem nonneg_of_mem_gaps {lines : List (List (Position Exact))}
    {polygons : List (Polygon Exact)} {r : ℝ} (h : r ∈ gaps p lines polygons) : 0 ≤ r := by
  obtain ⟨-, rfl⟩ | ⟨line, -, q, -, rfl⟩ := h
  · exact le_rfl
  · exact distance_nonneg q p

/-- A polygon has the gaps of its rings, and zero strictly inside. -/
private theorem Polygon.isLeastOf_degrees? {g : Polygon Exact} (hclosed : g.HasClosedRings)
    (p : Position Exact) : IsLeastOf (gaps p g.rings [g]) (g.degrees? p) := by
  unfold degrees?
  split
  · rename_i hinside
    have hencloses := (contains_iff hclosed).mp hinside
    refine ⟨.inl ⟨⟨g, List.mem_cons_self, hencloses⟩, Exact.toReal_zero⟩, fun r hr => ?_⟩
    rw [Exact.toReal_zero]
    exact nonneg_of_mem_gaps hr
  · rename_i hinside
    rw [contains_iff hclosed] at hinside
    have hset : gaps p g.rings [g] = gaps p g.rings [] := by
      simp [gaps, hinside]
    rw [hset]
    exact isLeastOf_lines g.rings p

end Parts

/-! ### Geometries -/

namespace Geometry

section Parts

variable {R : Type}

mutual

/-- The lines and rings of a geometry. A position is a line of its own. -/
def lines : Geometry R → List (List (Position R))
  | point p => [[p]]
  | lineString line => [line]
  | polygon g => g.rings
  | multiPoint points => points.map fun p => [p]
  | multiLineString lines => lines
  | multiPolygon polygons => polygons.flatMap Polygon.rings
  | collection members => memberLines members

/-- The lines and rings of several geometries. -/
def memberLines : List (Geometry R) → List (List (Position R))
  | [] => []
  | g :: rest => lines g ++ memberLines rest

end

mutual

/-- The polygons of a geometry. -/
def polygons : Geometry R → List (Polygon R)
  | polygon g => [g]
  | multiPolygon polygons => polygons
  | collection members => memberPolygons members
  | _ => []

/-- The polygons of several geometries. -/
def memberPolygons : List (Geometry R) → List (Polygon R)
  | [] => []
  | g :: rest => polygons g ++ memberPolygons rest

end

mutual

/-- The lines and rings have the positions of the geometry, in their order. -/
private theorem flatten_lines (g : Geometry R) : g.lines.flatten = g.positions := by
  match g with
  | point _ | lineString _ | polygon _ | multiLineString _ => simp [lines, positions]
  | multiPoint points => simp [lines, positions, ← List.flatMap_def]
  | multiPolygon polygons =>
    rw [lines, positions, List.flatMap_def, List.flatten_flatten, List.map_map, List.flatMap_def]
    rfl
  | collection members => exact flatten_memberLines members

private theorem flatten_memberLines (members : List (Geometry R)) :
    (memberLines members).flatten = memberPositions members := by
  match members with
  | [] => rfl
  | g :: rest =>
    rw [memberLines, memberPositions, List.flatten_append, flatten_lines g,
      flatten_memberLines rest]

end

mutual

/-- The rings of the polygons are among the lines. -/
theorem rings_subset_lines (g : Geometry R) {a : Polygon R} (ha : a ∈ g.polygons) :
    a.rings ⊆ g.lines := by
  match g with
  | polygon g =>
    obtain rfl := List.mem_singleton.mp ha
    exact List.Subset.refl _
  | multiPolygon polygons => exact fun ring hring => List.mem_flatMap.mpr ⟨a, ha, hring⟩
  | collection members => exact rings_subset_memberLines members ha
  | point _ | lineString _ | multiPoint _ | multiLineString _ => cases ha

private theorem rings_subset_memberLines (members : List (Geometry R)) {a : Polygon R}
    (ha : a ∈ memberPolygons members) : a.rings ⊆ memberLines members := by
  match members with
  | [] => cases ha
  | g :: rest =>
    obtain ha | ha := List.mem_append.mp ha
    · exact List.subset_append_of_subset_left _ (rings_subset_lines g ha)
    · exact List.subset_append_of_subset_right _ (rings_subset_memberLines rest ha)

end

end Parts

/-- The positions of a geometry, with all of its segments. -/
def points (g : Geometry Exact) : Set (Position Exact) :=
  {q | ∃ line ∈ g.lines, q ∈ linePoints line}

private theorem memberLines_eq {R : Type} (members : List (Geometry R)) :
    memberLines members = members.flatMap lines := by
  induction members with
  | nil => rfl
  | cons g rest ih => rw [memberLines, ih, List.flatMap_cons]

private theorem memberPolygons_eq {R : Type} (members : List (Geometry R)) :
    memberPolygons members = members.flatMap polygons := by
  induction members with
  | nil => rfl
  | cons g rest ih => rw [memberPolygons, ih, List.flatMap_cons]

private theorem memberDegrees_eq (p : Position Exact) (members : List (Geometry Exact)) :
    memberDegrees p members = members.filterMap (degrees? p) := by
  induction members with
  | nil => rfl
  | cons g rest ih =>
    rw [memberDegrees, ih, List.filterMap_cons]
    cases degrees? p g <;> rfl

mutual

/-- The distance to a geometry is the least of its gaps. -/
private theorem isLeastOf_degrees? (g : Geometry Exact) (p : Position Exact)
    (hclosed : g.HasClosedRings) :
    IsLeastOf (gaps p g.lines g.polygons) (g.degrees? p) := by
  match g with
  | .point q => simp [IsLeastOf, gaps, lines, polygons, degrees?, distancesTo]
  | .lineString line =>
    have hset : gaps p [line] [] = distancesTo p (linePoints line) := by simp [gaps]
    change IsLeastOf (gaps p [line] []) (lineDegrees? line p)
    rw [hset]
    exact isLeastOf_lineDegrees? line p
  | .polygon g => exact g.isLeastOf_degrees? hclosed p
  | .multiPoint points =>
    have hset : gaps p (points.map fun q => [q]) [] =
        {r | ∃ x ∈ points.map (·.distance p), x.toReal = r} := by
      simp [gaps, distancesTo, eq_comm]
    change IsLeastOf (gaps p (points.map fun q => [q]) []) _
    rw [hset]
    exact isLeastOf_leastOf _
  | .multiLineString lines => exact isLeastOf_lines lines p
  -- From here on the gaps of the whole are those of the members together.
  | .multiPolygon polygons =>
    have hset : gaps p (polygons.flatMap Polygon.rings) (polygons.flatMap fun g => [g]) =
        {r | ∃ g ∈ polygons, r ∈ gaps p g.rings [g]} := Set.ext fun r => mem_gaps_flatMap
    rw [List.flatMap_singleton'] at hset
    change IsLeastOf (gaps p (polygons.flatMap Polygon.rings) polygons) _
    rw [hset]
    exact isLeastOf_leastOf_filterMap fun g hg => g.isLeastOf_degrees? (hclosed g hg) p
  | .collection members =>
    have hset : gaps p (members.flatMap lines) (members.flatMap polygons) =
        {r | ∃ g ∈ members, r ∈ gaps p g.lines g.polygons} := Set.ext fun r => mem_gaps_flatMap
    change IsLeastOf (gaps p (memberLines members) (memberPolygons members))
      (Scalar.leastOf (memberDegrees p members))
    rw [memberLines_eq, memberPolygons_eq, hset, memberDegrees_eq]
    exact isLeastOf_leastOf_filterMap (isLeastOf_degrees?_of_mem members p hclosed)

private theorem isLeastOf_degrees?_of_mem (members : List (Geometry Exact)) (p : Position Exact)
    (hclosed : MembersConsist (fun _ => True) Polygon.HasClosedRings members) :
    ∀ g ∈ members, IsLeastOf (gaps p g.lines g.polygons) (g.degrees? p) := by
  match members with
  | [] => exact List.forall_mem_nil _
  | g :: rest =>
    exact List.forall_mem_cons.mpr
      ⟨isLeastOf_degrees? g p hclosed.1, isLeastOf_degrees?_of_mem rest p hclosed.2⟩

end

/-- There is something at a distance unless a geometry has no position at all. -/
theorem gaps_eq_empty_iff {g : Geometry Exact} {p : Position Exact} :
    gaps p g.lines g.polygons = ∅ ↔ g.positions = [] := by
  rw [← flatten_lines, List.flatten_eq_nil_iff]
  constructor
  · intro hempty line hline
    refine List.eq_nil_iff_forall_not_mem.mpr fun v hv => ?_
    have hgap : (v.distance p).toReal ∈ gaps p g.lines g.polygons :=
      .inr ⟨line, hline, v, .inl hv, rfl⟩
    rw [hempty] at hgap
    exact hgap
  · intro hnil
    refine Set.eq_empty_of_forall_notMem fun r hr => ?_
    obtain ⟨⟨a, ha, -, hsweep, -⟩, -⟩ | ⟨line, hline, q, hq, -⟩ := hr
    · have hexterior := hnil _ (rings_subset_lines g ha List.mem_cons_self)
      rw [hexterior] at hsweep
      exact hsweep rfl
    · rw [hnil line hline, linePoints_nil] at hq
      exact hq

/-- The distance in degrees to a geometry with closed rings, such as any that a cell is read as
(`hasClosedRings_of_ofCell`). There is none just if the geometry has no position; it is zero
strictly inside a polygon; and elsewhere it is the least of the distances to the positions of the
geometry, its lines and its rings. -/
theorem isLeast_degrees {g : Geometry Exact} (hclosed : g.HasClosedRings) (p : Position Exact) :
    (g.degrees? p = none ↔ g.positions = []) ∧
    ∀ d, g.degrees? p = some d →
      ((∃ a ∈ g.polygons, a.Encloses p) → d = Scalar.zero) ∧
      ((∀ a ∈ g.polygons, ¬a.Encloses p) →
        IsLeast ((fun q => (q.distance p).toReal) '' g.points) d.toReal) := by
  have hleast := isLeastOf_degrees? g p hclosed
  rw [← gaps_eq_empty_iff (p := p)]
  constructor
  · cases hd : g.degrees? p with
    | none =>
      rw [hd] at hleast
      exact iff_of_true rfl hleast
    | some d =>
      rw [hd] at hleast
      exact iff_of_false (by simp) (Set.Nonempty.ne_empty ⟨_, hleast.1⟩)
  · intro d hd
    rw [hd] at hleast
    constructor
    · intro hinside
      have hle : d.toReal ≤ 0 := hleast.2 (.inl ⟨hinside, rfl⟩)
      have hge := nonneg_of_mem_gaps hleast.1
      exact Exact.ext (by rw [Exact.toReal_zero]; exact le_antisymm hle hge)
    · intro houtside
      -- Outside all areas the gaps are the distances to the points of the lines and nothing else.
      have hset : gaps p g.lines g.polygons = (fun q => (q.distance p).toReal) '' g.points := by
        ext r
        simp only [gaps, distancesTo, points, Set.mem_image, Set.mem_ofPred_eq]
        constructor
        · rintro (⟨⟨a, ha, hinside⟩, -⟩ | ⟨line, hline, q, hq, hr⟩)
          · exact absurd hinside (houtside a ha)
          · exact ⟨q, ⟨line, hline, hq⟩, hr⟩
        · rintro ⟨q, ⟨line, hline, hq⟩, hr⟩
          exact .inr ⟨line, hline, q, hq, hr⟩
      rw [← hset]
      exact hleast

/-- A square with sides of four degrees, given without its last position. -/
noncomputable def square : Polygon Exact :=
  .ofRings [⟨⟨0⟩, ⟨0⟩⟩, ⟨⟨4⟩, ⟨0⟩⟩, ⟨⟨4⟩, ⟨4⟩⟩, ⟨⟨0⟩, ⟨4⟩⟩] []

private theorem contains_square : square.contains ⟨⟨2⟩, ⟨2⟩⟩ = true := by
  have hclose : closeRing [(⟨⟨0⟩, ⟨0⟩⟩ : Position Exact), ⟨⟨4⟩, ⟨0⟩⟩, ⟨⟨4⟩, ⟨4⟩⟩, ⟨⟨0⟩, ⟨4⟩⟩] =
      [⟨⟨0⟩, ⟨0⟩⟩, ⟨⟨4⟩, ⟨0⟩⟩, ⟨⟨4⟩, ⟨4⟩⟩, ⟨⟨0⟩, ⟨4⟩⟩, ⟨⟨0⟩, ⟨0⟩⟩] := by
    simp [closeRing, isClosed]
  have hturn : compare (8 : ℝ) 0 = .gt := compare_gt_iff_gt.mpr (by norm_num)
  rw [square, Polygon.contains, decide_eq_true_iff, Polygon.ofRings, Polygon.locate]
  simp only [hclose]
  norm_num [locateInRing, segments, locateBySegments, Segment.crossing, turn_eq, Exact.le_def,
    hturn]
  rfl

/-- In the middle of the square the distance is zero, with an empty line beside it. -/
theorem isLeast_degrees_square :
    (collection [polygon square, lineString []]).HasClosedRings ∧
    (collection [polygon square, lineString []]).degrees? ⟨⟨2⟩, ⟨2⟩⟩ = some Scalar.zero := by
  have hrings : square.HasClosedRings := Polygon.hasClosedRings_ofRings _ _
  have hclosed : (collection [polygon square, lineString []]).HasClosedRings :=
    ⟨hrings, by simp [Consists], trivial⟩
  obtain ⟨hnone, hsome⟩ := isLeast_degrees hclosed ⟨⟨2⟩, ⟨2⟩⟩
  refine ⟨hclosed, ?_⟩
  cases hd : (collection [polygon square, lineString []]).degrees? ⟨⟨2⟩, ⟨2⟩⟩ with
  | none =>
    have hcorner : (⟨⟨0⟩, ⟨0⟩⟩ : Position Exact) ∈
        (collection [polygon square, lineString []]).positions := by
      simp [positions, memberPositions, square, Polygon.ofRings, Polygon.rings, closeRing, isClosed]
    rw [hnone.mp hd] at hcorner
    cases hcorner
  | some d =>
    have hinside := (Polygon.contains_iff hrings).mp contains_square
    rw [(hsome d hd).1 ⟨square, List.mem_cons_self, hinside⟩]

end Geometry

end TransitQuery
