import TransitQuery.Geometry.Box
import TransitQuery.Geometry.Distance
import TransitQuery.Proofs.Geometry.Consists
import TransitQuery.Proofs.Scalar.Exact
import Mathlib.Tactic.Linarith

/-!
# Boxes enclose geometries

The box of a geometry holds its positions, and with two of them the segment between them, since it
is convex. It also holds every position inside a closed ring: a ring does not wind around a position
beyond a side of its box, because its segments cross the level of such a position as often upwards
as downwards, or not at all. So what is nearest to a point in a geometry lies in the box of the
geometry (`Geometry.exists_nearest`), as long as the holes of its polygons do not reach out of their
outer rings.

The module works over `Exact`, where a distance is a number and not the double next to it, and
where `toReal` gives the value of a coordinate.

* `Box.contains_of_ofPositions`, `Box.exists_ofPositions`: the box of positions is the least one
  that holds them.
* `Box.contains_closest`: it holds what is nearest on a segment between two of them.
* `contains_of_locateInRing`: it holds what lies inside a ring of them.
* `Geometry.exists_nearest`: it holds what is nearest in a geometry, at the distance that is
  measured.

For a ring, `locateBySegments_eq` sums up what its segments count. On three sides of the box no
segment counts at all. On the fourth one a segment counts as the difference of `isAbove` at its two
ends, and these differences cancel out around a closed ring. A hole only takes away from the
inside, but its boundary is measured as well, so it has to stay in the box of the outer ring: this
is `Polygon.HoldsHoles`.
-/

namespace TransitQuery

/-! ### Exact coordinates -/

open scoped Classical in
instance : LawfulBEq Exact where
  eq_of_beq h := of_decide_eq_true h
  rfl := decide_eq_true rfl

instance : LawfulBEq (Position Exact) where
  eq_of_beq {p q} h := by
    obtain ⟨hx, hy⟩ := Bool.and_eq_true_iff.mp h
    cases p
    cases q
    congr
    · exact eq_of_beq hx
    · exact eq_of_beq hy
  rfl {p} := Bool.and_eq_true_iff.mpr ⟨beq_self_eq_true p.x, beq_self_eq_true p.y⟩

namespace Exact

/-- What is clamped lies between nought and one. -/
theorem clampUnit_mem_unit (x : Exact) :
    0 ≤ (Scalar.clampUnit x).toReal ∧ (Scalar.clampUnit x).toReal ≤ 1 := by
  unfold Scalar.clampUnit
  split
  · simp
  split
  · simp
  · rename_i hlow hhigh
    rw [lt_def, not_lt] at hlow hhigh
    simpa using And.intro hlow hhigh

end Exact

namespace Scalar

variable {R : Type} [Scalar R]

private theorem least_eq_or (x y : R) : least x y = x ∨ least x y = y := by
  unfold least
  split
  · exact .inl rfl
  split
  · exact .inr rfl
  split
  · exact .inl rfl
  · exact .inr rfl

/-- The least member of a list is a member. -/
theorem mem_of_leastOf {xs : List R} {x : R} (h : leastOf xs = some x) : x ∈ xs := by
  cases xs with
  | nil => cases h
  | cons y ys =>
    obtain rfl := Option.some.inj h
    refine List.foldlRecOn (motive := fun z => z ∈ y :: ys) ys least List.mem_cons_self
      fun z hz w hw => ?_
    obtain h | h := least_eq_or z w
    · rwa [h]
    · rw [h]
      exact List.mem_cons_of_mem y hw

end Scalar

/-! ### What boxes hold -/

namespace Box

variable {a b : Box Exact} {p q : Position Exact}

/-- A box holds a position if both coordinates lie between its sides, as real numbers. -/
theorem contains_iff :
    b.contains p = true ↔
      (b.minx.toReal ≤ p.x.toReal ∧ p.x.toReal ≤ b.maxx.toReal) ∧
        b.miny.toReal ≤ p.y.toReal ∧ p.y.toReal ≤ b.maxy.toReal := by
  simp [contains, Exact.le_def, and_assoc]

/-- An interval that is widened by a value holds what it held, and the value. -/
private theorem widen_spec {v low high x : Exact}
    (h : low.toReal ≤ x.toReal ∧ x.toReal ≤ high.toReal) :
    ((widen v low high).1.toReal ≤ x.toReal ∧ x.toReal ≤ (widen v low high).2.toReal) ∧
      (widen v low high).1.toReal ≤ v.toReal ∧ v.toReal ≤ (widen v low high).2.toReal := by
  unfold widen
  split
  · rename_i hv
    rw [Exact.lt_def] at hv
    refine ⟨⟨h.1, ?_⟩, ?_, ?_⟩ <;> dsimp only <;> linarith
  split
  · rename_i hv
    rw [Exact.lt_def] at hv
    refine ⟨⟨?_, h.2⟩, ?_, ?_⟩ <;> dsimp only <;> linarith
  · rename_i hhigh hlow
    rw [Exact.lt_def, not_lt] at hhigh hlow
    exact ⟨h, hlow, hhigh⟩

/-- A box that is widened holds what it held and the new position. -/
theorem contains_including (h : b.contains q = true) :
    (b.including p).contains q = true ∧ (b.including p).contains p = true := by
  obtain ⟨hx, hy⟩ := contains_iff.mp h
  obtain ⟨hqx, hpx⟩ := widen_spec (v := p.x) hx
  obtain ⟨hqy, hpy⟩ := widen_spec (v := p.y) hy
  exact ⟨contains_iff.mpr ⟨hqx, hqy⟩, contains_iff.mpr ⟨hpx, hpy⟩⟩

/-- Widened by several positions, a box holds what it held, and all of these. -/
private theorem contains_foldl_including (h : b.contains q = true) (ps : List (Position Exact)) :
    (ps.foldl including b).contains q = true ∧
      ∀ p ∈ ps, (ps.foldl including b).contains p = true := by
  induction ps generalizing b q with
  | nil => exact ⟨h, by simp⟩
  | cons p rest ih =>
    obtain ⟨hq, hp⟩ := contains_including (p := p) h
    exact ⟨(ih hq).1, List.forall_mem_cons.mpr ⟨(ih hp).1, (ih hp).2⟩⟩

/-- The box of positions holds them. -/
theorem exists_ofPositions {ps : List (Position Exact)} (h : ps ≠ []) :
    ∃ b, ofPositions ps = some b ∧ ∀ p ∈ ps, b.contains p = true := by
  cases ps with
  | nil => exact absurd rfl h
  | cons p rest =>
    have hp : (⟨p.x, p.y, p.x, p.y⟩ : Box Exact).contains p = true :=
      contains_iff.mpr ⟨⟨le_rfl, le_rfl⟩, le_rfl, le_rfl⟩
    obtain ⟨hfirst, hrest⟩ := contains_foldl_including hp rest
    exact ⟨_, rfl, List.forall_mem_cons.mpr ⟨hfirst, hrest⟩⟩

/-- An interval that is widened starts and ends where it did, or at what it is widened by. -/
theorem widen_eq_or (v low high : Exact) :
    ((widen v low high).1 = low ∨ (widen v low high).1 = v) ∧
      ((widen v low high).2 = high ∨ (widen v low high).2 = v) := by
  unfold widen
  split
  · exact ⟨.inl rfl, .inr rfl⟩
  split
  · exact ⟨.inr rfl, .inl rfl⟩
  · exact ⟨.inl rfl, .inl rfl⟩

/-- A box that is widened has its corners where a box has them that holds both. -/
theorem corners_including
    (hb : a.contains ⟨b.minx, b.miny⟩ = true ∧ a.contains ⟨b.maxx, b.maxy⟩ = true)
    (hp : a.contains p = true) :
    a.contains ⟨(b.including p).minx, (b.including p).miny⟩ = true ∧
      a.contains ⟨(b.including p).maxx, (b.including p).maxy⟩ = true := by
  obtain ⟨hminx, hmaxx⟩ := widen_eq_or p.x b.minx b.maxx
  obtain ⟨hminy, hmaxy⟩ := widen_eq_or p.y b.miny b.maxy
  simp only [contains_iff, including] at hb hp ⊢
  refine ⟨⟨?_, ?_⟩, ?_, ?_⟩
  · rcases hminx with h | h <;> rw [h]
    exacts [hb.1.1, hp.1]
  · rcases hminy with h | h <;> rw [h]
    exacts [hb.1.2, hp.2]
  · rcases hmaxx with h | h <;> rw [h]
    exacts [hb.2.1, hp.1]
  · rcases hmaxy with h | h <;> rw [h]
    exacts [hb.2.2, hp.2]

/-- The box of positions lies in every box that holds them. -/
theorem contains_of_ofPositions {ps : List (Position Exact)} (hb : ofPositions ps = some b)
    (ha : ∀ p ∈ ps, a.contains p = true) (hq : b.contains q = true) : a.contains q = true := by
  cases ps with
  | nil => cases hb
  | cons p rest =>
    obtain rfl := Option.some.inj hb
    obtain ⟨hp, hrest⟩ := List.forall_mem_cons.mp ha
    -- the sides never leave the box on the way
    have hsides : a.contains ⟨(rest.foldl including ⟨p.x, p.y, p.x, p.y⟩).minx,
          (rest.foldl including ⟨p.x, p.y, p.x, p.y⟩).miny⟩ = true ∧
        a.contains ⟨(rest.foldl including ⟨p.x, p.y, p.x, p.y⟩).maxx,
          (rest.foldl including ⟨p.x, p.y, p.x, p.y⟩).maxy⟩ = true :=
      List.foldlRecOn (motive := fun b : Box Exact => a.contains ⟨b.minx, b.miny⟩ = true ∧
        a.contains ⟨b.maxx, b.maxy⟩ = true) rest including ⟨hp, hp⟩
        fun b hb v hv => corners_including hb (hrest v hv)
    obtain ⟨hlow, hhigh⟩ := hsides
    obtain ⟨⟨h₁, -⟩, h₂, -⟩ := contains_iff.mp hlow
    obtain ⟨⟨-, h₃⟩, -, h₄⟩ := contains_iff.mp hhigh
    obtain ⟨⟨h₅, h₆⟩, h₇, h₈⟩ := contains_iff.mp hq
    exact contains_iff.mpr ⟨⟨h₁.trans h₅, h₆.trans h₃⟩, h₂.trans h₇, h₈.trans h₄⟩

/-- The join of two boxes holds what either of them does. -/
private theorem contains_join (h : a.contains p = true ∨ b.contains p = true) :
    (join a b).contains p = true := by
  have hmin : ∀ x y : Exact, (if x < y then x else y).toReal = min x.toReal y.toReal := by
    intro x y
    split
    · rename_i hxy
      exact (min_eq_left_of_lt hxy).symm
    · rename_i hxy
      exact (min_eq_right (not_lt.mp hxy)).symm
  have hmax : ∀ x y : Exact, (if y < x then x else y).toReal = max x.toReal y.toReal := by
    intro x y
    split
    · rename_i hxy
      exact (max_eq_left_of_lt hxy).symm
    · rename_i hxy
      exact (max_eq_right (not_lt.mp hxy)).symm
  simp only [contains_iff, join, hmin, hmax, min_le_iff, le_max_iff] at h ⊢
  tauto

private theorem joinOptions_contains {a b : Option (Box Exact)} {p : Position Exact}
    (h : (∃ x ∈ a, x.contains p = true) ∨ ∃ x ∈ b, x.contains p = true) :
    ∃ x ∈ joinOptions a b, x.contains p = true := by
  cases a with
  | none =>
    refine h.resolve_left ?_
    rintro ⟨x, hx, -⟩
    cases hx
  | some a =>
    cases b with
    | none =>
      refine h.resolve_right ?_
      rintro ⟨x, hx, -⟩
      cases hx
    | some b => exact ⟨join a b, rfl, contains_join (by simpa using h)⟩

/-! ### Segments -/

/-- A box that holds the ends of a segment holds what is nearest on it. -/
theorem contains_closest {s : Segment Exact} (hstart : b.contains s.start = true)
    (hstop : b.contains s.stop = true) (p : Position Exact) :
    b.contains (s.closest p) = true := by
  unfold Segment.closest
  dsimp only
  split
  · exact hstart
  generalize ht : Scalar.clampUnit (R := Exact) _ = t
  have hunit : 0 ≤ t.toReal ∧ t.toReal ≤ 1 := ht ▸ Exact.clampUnit_mem_unit _
  obtain ⟨⟨h₁, h₂⟩, h₃, h₄⟩ := contains_iff.mp hstart
  obtain ⟨⟨h₅, h₆⟩, h₇, h₈⟩ := contains_iff.mp hstop
  rw [contains_iff]
  simp only [Exact.toReal_add, Exact.toReal_mul, Exact.toReal_sub]
  refine ⟨⟨?_, ?_⟩, ?_, ?_⟩ <;> nlinarith

end Box

/-- The ends of a segment of a line are positions of the line. -/
theorem mem_of_mem_segments {R : Type} {line : List (Position R)} {s : Segment R}
    (h : s ∈ segments line) : s.start ∈ line ∧ s.stop ∈ line := by
  induction line with
  | nil => cases h
  | cons a rest ih =>
    cases rest with
    | nil => cases h
    | cons b rest =>
      rw [segments] at h
      obtain rfl | h := List.mem_cons.mp h
      · simp
      · exact ⟨List.mem_cons_of_mem a (ih h).1, List.mem_cons_of_mem a (ih h).2⟩

/-- A box that holds the positions of a line holds what is nearest on it. -/
theorem exists_of_lineDegrees? {b : Box Exact} {line : List (Position Exact)}
    {p : Position Exact} {d : Exact} (hb : ∀ v ∈ line, b.contains v = true)
    (h : lineDegrees? line p = some d) : ∃ q, b.contains q = true ∧ q.distance p = d := by
  unfold lineDegrees? at h
  split at h
  · rename_i q
    exact ⟨q, hb q List.mem_cons_self, Option.some.inj h⟩
  · obtain ⟨s, hs, hd⟩ := List.mem_map.mp (Scalar.mem_of_leastOf h)
    obtain ⟨hstart, hstop⟩ := mem_of_mem_segments hs
    exact ⟨_, Box.contains_closest (hb _ hstart) (hb _ hstop) p, hd⟩

/-! ### Rings -/

/-- A ring that has been closed ends where it starts. -/
theorem head?_closeRing {ring : List (Position Exact)} :
    (closeRing ring).head? = (closeRing ring).getLast? := by
  unfold closeRing
  split
  · rename_i h
    exact eq_of_beq h
  · cases ring with
    | nil => rfl
    | cons p rest => exact List.getLast?_concat.symm

section Winding

variable {R : Type} [Coordinate R] {p : Position R}

/-- If each segment of a ring counts as the difference of a value at its ends, the whole ring counts
as the difference of that value at its own ends. -/
theorem locateBySegments_eq {value : Position R → Int} {first : Position R}
    {rest : List (Position R)}
    (h : ∀ s ∈ segments (first :: rest), s.crossing p = .turns (value s.stop - value s.start))
    (winding : Int) :
    locateBySegments p (segments (first :: rest)) winding =
      if winding + (value ((first :: rest).getLast (by simp)) - value first) = 0 then .outside
      else .inside := by
  induction rest generalizing first winding with
  | nil => simp [segments, locateBySegments]
  | cons second rest ih =>
    obtain ⟨hfirst, hrest⟩ := List.forall_mem_cons.mp h
    rw [segments, locateBySegments, hfirst]
    dsimp only
    rw [ih hrest, List.getLast_cons (List.cons_ne_nil second rest)]
    congr 2
    omega

/-- So a closed ring does not wind around the position. -/
theorem locateInRing_ne_inside (value : Position R → Int) {ring : List (Position R)}
    (hclosed : ring.head? = ring.getLast?)
    (h : ∀ s ∈ segments ring, s.crossing p = .turns (value s.stop - value s.start)) :
    locateInRing ring p ≠ .inside := by
  unfold locateInRing
  split
  · simp
  · split <;> simp
  · cases ring with
    | nil => simp [segments, locateBySegments]
    | cons first rest =>
      have hends : (first :: rest).getLast (by simp) = first := by
        rw [List.head?_cons, List.getLast?_eq_some_getLast (List.cons_ne_nil first rest)] at hclosed
        exact (Option.some.inj hclosed).symm
      rw [locateBySegments_eq h, hends, sub_self, add_zero, if_pos rfl]
      simp

end Winding

/-! ### Sides of a box -/

section Sides

variable {s : Segment Exact} {p : Position Exact}

/-- The direction of a turn is the sign of a determinant. -/
theorem turn_eq (a b c : Position Exact) :
    turn a b c = compare ((a.x.toReal - c.x.toReal) * (b.y.toReal - c.y.toReal) -
      (a.y.toReal - c.y.toReal) * (b.x.toReal - c.x.toReal)) 0 := rfl

/-- A segment below a position does not count. -/
theorem crossing_of_below (hstart : s.start.y.toReal < p.y.toReal)
    (hstop : s.stop.y.toReal < p.y.toReal) : s.crossing p = .turns 0 := by
  rw [Segment.crossing, if_pos ((Exact.le_def ..).mpr hstart.le), if_neg]
  rw [Exact.le_def]
  linarith

/-- A segment above a position does not count. -/
theorem crossing_of_above (hstart : p.y.toReal < s.start.y.toReal)
    (hstop : p.y.toReal < s.stop.y.toReal) : s.crossing p = .turns 0 := by
  rw [Segment.crossing, if_neg, if_neg]
  · rw [Exact.le_def]
    linarith
  · rw [Exact.le_def]
    linarith

/-- A value on one side of both ends does not lie between them. -/
private theorem not_isBetween {v a b : Exact}
    (h : (v.toReal < a.toReal ∧ v.toReal < b.toReal) ∨
      (a.toReal < v.toReal ∧ b.toReal < v.toReal)) : isBetween v a b = false := by
  unfold isBetween
  split
  · rw [Bool.and_eq_false_iff, decide_eq_false_iff_not, decide_eq_false_iff_not, Exact.le_def,
      Exact.le_def, not_le, not_le]
    exact h.imp And.left And.right
  · rw [Bool.and_eq_false_iff, decide_eq_false_iff_not, decide_eq_false_iff_not, Exact.le_def,
      Exact.le_def, not_le, not_le]
    exact h.imp And.right And.left

/-- A segment to the left of a position does not count. -/
theorem crossing_of_left (hstart : s.start.x.toReal < p.x.toReal)
    (hstop : s.stop.x.toReal < p.x.toReal) : s.crossing p = .turns 0 := by
  have hbetween := not_isBetween (.inr ⟨hstart, hstop⟩)
  -- The position lies right of an upward segment and left of a downward one: neither counts.
  unfold Segment.crossing
  split
  · rename_i h₁
    split
    · rename_i h₂
      rw [Exact.le_def] at h₁ h₂
      split
      · rename_i hturn
        rw [turn_eq, compare_gt_iff_gt] at hturn
        nlinarith
      · rw [if_neg (by simp [hbetween])]
      · rfl
    · rfl
  · rename_i h₁
    split
    · rename_i h₂
      rw [Exact.le_def] at h₁ h₂
      split
      · rename_i hturn
        rw [turn_eq, compare_lt_iff_lt] at hturn
        nlinarith
      · rw [if_neg (by simp [hbetween])]
      · rfl
    · rfl

open scoped Classical in
/-- Whether a position lies above the level of another one. -/
noncomputable def isAbove (p q : Position Exact) : Int :=
  if p.y.toReal < q.y.toReal then 1 else 0

/-- A segment to the right of a position counts if one of its ends lies above the position and the
other one does not. -/
theorem crossing_of_right (hstart : p.x.toReal < s.start.x.toReal)
    (hstop : p.x.toReal < s.stop.x.toReal) :
    s.crossing p = .turns (isAbove p s.stop - isAbove p s.start) := by
  have hbetween := not_isBetween (.inl ⟨hstart, hstop⟩)
  unfold Segment.crossing
  split
  -- it starts on the level of the position or below
  · rename_i h₁
    rw [Exact.le_def] at h₁
    have hbelow : isAbove p s.start = 0 := if_neg (not_lt.mpr h₁)
    split
    · rename_i h₂
      rw [Exact.le_def] at h₂
      split
      · split
        · rename_i heq
          have hlevel : isAbove p s.stop = 0 := if_neg (by rw [eq_of_beq heq]; exact lt_irrefl _)
          rw [hbelow, hlevel, sub_self]
        · rename_i hne
          have hne' : p.y.toReal ≠ s.stop.y.toReal := fun h =>
            hne (beq_iff_eq.mpr (Exact.ext h.symm))
          have habove : isAbove p s.stop = 1 := if_pos (lt_of_le_of_ne h₂ hne')
          rw [hbelow, habove, sub_zero]
      · rename_i hturn
        rw [turn_eq, compare_eq_iff_eq] at hturn
        have hlevel : isAbove p s.stop = 0 := if_neg (by nlinarith)
        rw [if_neg (by simp [hbetween]), hbelow, hlevel, sub_self]
      · rename_i hturn
        rw [turn_eq, compare_lt_iff_lt] at hturn
        nlinarith
    · rename_i h₂
      rw [Exact.le_def] at h₂
      have hlevel : isAbove p s.stop = 0 := if_neg (by linarith)
      rw [hbelow, hlevel, sub_self]
  -- it starts above
  · rename_i h₁
    rw [Exact.le_def, not_le] at h₁
    have habove : isAbove p s.start = 1 := if_pos h₁
    split
    · rename_i h₂
      rw [Exact.le_def] at h₂
      have hlevel : isAbove p s.stop = 0 := if_neg (not_lt.mpr h₂)
      split
      · rw [habove, hlevel, zero_sub]
      · rename_i hturn
        rw [turn_eq, compare_eq_iff_eq] at hturn
        nlinarith
      · rename_i hturn
        rw [turn_eq, compare_gt_iff_gt] at hturn
        nlinarith
    · rename_i h₂
      rw [Exact.le_def, not_le] at h₂
      have habove' : isAbove p s.stop = 1 := if_pos h₂
      rw [habove, habove', sub_self]

end Sides

/-- A box that holds the positions of a closed ring holds all that lies inside. -/
theorem contains_of_locateInRing {b : Box Exact} {ring : List (Position Exact)}
    {p : Position Exact} (hclosed : ring.head? = ring.getLast?)
    (hb : ∀ v ∈ ring, b.contains v = true) (h : locateInRing ring p = .inside) :
    b.contains p = true := by
  have hends : ∀ s ∈ segments ring, b.contains s.start = true ∧ b.contains s.stop = true :=
    fun s hs => ⟨hb _ (mem_of_mem_segments hs).1, hb _ (mem_of_mem_segments hs).2⟩
  by_contra hout
  -- beyond each of the four sides, the segments count for nothing together
  simp only [Box.contains_iff] at hends hout
  by_cases hright : b.minx.toReal ≤ p.x.toReal
  swap
  · refine locateInRing_ne_inside (isAbove p) hclosed (fun s hs => ?_) h
    obtain ⟨⟨⟨h₁, -⟩, -⟩, ⟨h₂, -⟩, -⟩ := hends s hs
    exact crossing_of_right (by linarith) (by linarith)
  refine locateInRing_ne_inside (fun _ => 0) hclosed (fun s hs => ?_) h
  rw [sub_self]
  obtain ⟨⟨⟨-, h₁⟩, h₂, h₃⟩, ⟨-, h₄⟩, h₅, h₆⟩ := hends s hs
  by_cases hleft : p.x.toReal ≤ b.maxx.toReal
  swap
  · exact crossing_of_left (by linarith) (by linarith)
  by_cases habove : b.miny.toReal ≤ p.y.toReal
  swap
  · exact crossing_of_above (by linarith) (by linarith)
  · have hbelow : b.maxy.toReal < p.y.toReal := by
      rw [← not_le]
      exact fun h => hout ⟨⟨hright, hleft⟩, habove, h⟩
    exact crossing_of_below (by linarith) (by linarith)

/-! ### Polygons -/

/-- The outer ring of a polygon is closed. -/
def Polygon.IsClosed {R : Type} (g : Polygon R) : Prop :=
  g.exterior.head? = g.exterior.getLast?

/-- The holes of a polygon do not reach out of the box of its outer ring. -/
def Polygon.HoldsHoles {R : Type} [Coordinate R] (g : Polygon R) : Prop :=
  ∀ hole ∈ g.interiors, ∀ v ∈ hole, ∃ b ∈ Box.ofPositions g.exterior, b.contains v = true

theorem Position.distance_self (p : Position Exact) : p.distance p = Scalar.zero := by
  ext
  rw [Exact.toReal_zero]
  change √((p.x.toReal - p.x.toReal) ^ 2 + (p.y.toReal - p.y.toReal) ^ 2) = 0
  simp

/-- What is nearest in a polygon lies in the box of its outer ring. -/
theorem Polygon.exists_nearest {g : Polygon Exact} {p : Position Exact} {d : Exact}
    (hclosed : g.IsClosed) (hholes : g.HoldsHoles) (h : g.degrees? p = some d) :
    ∃ b ∈ Box.ofPositions g.exterior, ∃ q, b.contains q = true ∧ q.distance p = d := by
  unfold degrees? at h
  split at h
  -- a position inside the polygon is inside its outer ring, and nearest to itself
  · rename_i hinside
    obtain rfl := Option.some.inj h
    have hring : locateInRing g.exterior p = .inside := by
      have hlocate : g.locate p = .inside := of_decide_eq_true hinside
      unfold locate at hlocate
      split at hlocate
      · assumption
      · exact hlocate
    have hne : g.exterior ≠ [] := by
      intro hnil
      rw [hnil] at hring
      cases hring
    obtain ⟨b, hb, hall⟩ := Box.exists_ofPositions hne
    exact ⟨b, hb, p, contains_of_locateInRing hclosed hall hring, p.distance_self⟩
  -- else one of the rings is nearest: the outer one, or a hole, which does not reach out of its box
  · obtain ⟨ring, hring, hd⟩ := List.mem_filterMap.mp (Scalar.mem_of_leastOf h)
    have hne : ring ≠ [] := by
      rintro rfl
      cases hd
    obtain rfl | hring := List.mem_cons.mp hring
    · obtain ⟨b, hb, hall⟩ := Box.exists_ofPositions hne
      exact ⟨b, hb, exists_of_lineDegrees? hall hd⟩
    · obtain ⟨v, rest, rfl⟩ := List.exists_cons_of_ne_nil hne
      obtain ⟨b, hb, -⟩ := hholes _ hring v List.mem_cons_self
      refine ⟨b, hb, exists_of_lineDegrees? (fun w hw => ?_) hd⟩
      obtain ⟨b', hb', hw⟩ := hholes _ hring w hw
      obtain rfl := Option.some.inj (hb.symm.trans hb')
      exact hw

/-! ### Geometries -/

namespace Geometry

/-- Rings are closed when they are read. -/
theorem certifies_isClosed :
    Certifies (R := Exact) (fun _ => True) (fun _ => True) Polygon.IsClosed :=
  certifies_of_ofRings fun _ _ => head?_closeRing

/-- What a box holds, the box of several geometries beside it holds, too. -/
theorem exists_membersBox?_of_mem (members : List (Geometry Exact)) {acc : Option (Box Exact)}
    {q : Position Exact} (h : ∃ b ∈ acc, b.contains q = true) :
    ∃ b ∈ membersBox? members acc, b.contains q = true := by
  induction members generalizing acc with
  | nil => exact h
  | cons g rest ih =>
    rw [membersBox?]
    exact ih (Box.joinOptions_contains (.inl h))

mutual

/-- What is nearest to a position in a geometry lies in the box of the geometry. -/
theorem exists_nearest (g : Geometry Exact) {p : Position Exact} {d : Exact}
    (hclosed : g.Consists (fun _ => True) Polygon.IsClosed)
    (hholes : g.Consists (fun _ => True) Polygon.HoldsHoles) (h : g.degrees? p = some d) :
    ∃ b ∈ g.box?, ∃ q, b.contains q = true ∧ q.distance p = d := by
  match g with
  | .point v =>
    obtain ⟨b, hb, hall⟩ := Box.exists_ofPositions (List.cons_ne_nil v [])
    exact ⟨b, hb, v, hall v List.mem_cons_self, Option.some.inj h⟩
  | .lineString line =>
    have hne : line ≠ [] := by
      rintro rfl
      cases h
    obtain ⟨b, hb, hall⟩ := Box.exists_ofPositions hne
    exact ⟨b, hb, exists_of_lineDegrees? hall h⟩
  | .polygon g => exact g.exists_nearest hclosed hholes h
  | .multiPoint points =>
    obtain ⟨v, hv, hd⟩ := List.mem_map.mp (Scalar.mem_of_leastOf h)
    obtain ⟨b, hb, hall⟩ := Box.exists_ofPositions (List.ne_nil_of_mem hv)
    exact ⟨b, hb, v, hall v hv, hd⟩
  | .multiLineString lines =>
    obtain ⟨line, hline, hd⟩ := List.mem_filterMap.mp (Scalar.mem_of_leastOf h)
    have hmem : ∀ v ∈ line, v ∈ lines.flatten := fun v hv => List.mem_flatten.mpr ⟨line, hline, hv⟩
    obtain ⟨v, hv⟩ : ∃ v, v ∈ line := List.exists_mem_of_ne_nil line (by rintro rfl; cases hd)
    obtain ⟨b, hb, hall⟩ := Box.exists_ofPositions (List.ne_nil_of_mem (hmem v hv))
    exact ⟨b, hb, exists_of_lineDegrees? (fun v hv => hall v (hmem v hv)) hd⟩
  | .multiPolygon polygons =>
    obtain ⟨g, hg, hd⟩ := List.mem_filterMap.mp (Scalar.mem_of_leastOf h)
    obtain ⟨b, hb, q, hq, hqd⟩ := g.exists_nearest (hclosed g hg) (hholes g hg) hd
    -- the box is that of all outer rings, so it holds the one of this polygon
    have hmem : ∀ v ∈ g.exterior, v ∈ polygons.flatMap Polygon.exterior :=
      fun v hv => List.mem_flatMap.mpr ⟨g, hg, hv⟩
    obtain ⟨v, hv⟩ : ∃ v, v ∈ g.exterior :=
      List.exists_mem_of_ne_nil _ (by intro hnil; rw [hnil] at hb; cases hb)
    obtain ⟨b', hb', hall⟩ := Box.exists_ofPositions (List.ne_nil_of_mem (hmem v hv))
    exact ⟨b', hb', q, Box.contains_of_ofPositions hb (fun v hv => hall v (hmem v hv)) hq, hqd⟩
  | .collection members =>
    exact exists_nearest_of_mem members none hclosed hholes (Scalar.mem_of_leastOf h)

private theorem exists_nearest_of_mem (members : List (Geometry Exact)) (acc : Option (Box Exact))
    {p : Position Exact} {d : Exact}
    (hclosed : MembersConsist (fun _ => True) Polygon.IsClosed members)
    (hholes : MembersConsist (fun _ => True) Polygon.HoldsHoles members)
    (h : d ∈ memberDegrees p members) :
    ∃ b ∈ membersBox? members acc, ∃ q, b.contains q = true ∧ q.distance p = d := by
  match members with
  | [] => cases h
  | g :: rest =>
    rw [membersBox?]
    obtain h | h := List.mem_append.mp h
    · obtain ⟨b, hb, q, hq, hd⟩ :=
        exists_nearest g hclosed.1 hholes.1 (Option.mem_toList.mp h)
      obtain ⟨b', hb', hq'⟩ := exists_membersBox?_of_mem rest
        (Box.joinOptions_contains (a := acc) (.inr ⟨b, hb, hq⟩))
      exact ⟨b', hb', q, hq', hd⟩
    · exact exists_nearest_of_mem rest _ hclosed.2 hholes.2 h

end

end Geometry

end TransitQuery
