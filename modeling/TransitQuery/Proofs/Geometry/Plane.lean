import TransitQuery.Proofs.Geometry.Enclosure

/-!
# Segments and lines as sets of positions

What a segment and a line cover in the plane, over exact coordinates. The position of a segment that
is nearest to a given one is told by angles: no way from it along the segment leads towards the
given position (`Segment.closest_spec`).

A position of a segment is at some part of the way along it (`Segment.partway`). The foot of the
perpendicular is at a quotient of two inner products, and the segment is left where the quotient is
moved into the unit interval. Moving it there keeps it on the side of the quotient that the rest of
the interval is on (`clampUnit_spec`), so the angle at the place that comes out is never
acute, whichever of the three cases it is. That is all that the modules on distances need: in
degrees it makes the place the nearest one (`Segment.distance_closest_le`), and in meters it bounds
how much nearer another one can be.

A line is the union of its segments, with the position of a line of one position, which has no
segment.
-/

namespace TransitQuery

namespace Position

/-- The inner product of the ways from a position to two others. -/
noncomputable def inner (c p q : Position Exact) : ℝ :=
  (p.x.toReal - c.x.toReal) * (q.x.toReal - c.x.toReal) +
    (p.y.toReal - c.y.toReal) * (q.y.toReal - c.y.toReal)

variable {c p q : Position Exact}

/-- Positions are equal if their coordinates have the same values. -/
theorem eq_of_toReal (hx : p.x.toReal = q.x.toReal) (hy : p.y.toReal = q.y.toReal) : p = q := by
  cases p
  cases q
  congr
  exacts [Exact.ext hx, Exact.ext hy]

/-- The distance of two positions, by the coordinates. -/
private theorem toReal_distance (p q : Position Exact) :
    (p.distance q).toReal = √((p.x.toReal - q.x.toReal) ^ 2 + (p.y.toReal - q.y.toReal) ^ 2) :=
  rfl

/-- A position from which the way to another one is not acute is nearer than this. -/
theorem distance_le_of_inner_nonpos (h : inner c p q ≤ 0) :
    (c.distance p).toReal ≤ (q.distance p).toReal := by
  rw [toReal_distance, toReal_distance]
  rw [inner] at h
  refine Real.sqrt_le_sqrt ?_
  nlinarith [sq_nonneg (q.x.toReal - c.x.toReal), sq_nonneg (q.y.toReal - c.y.toReal)]

end Position

namespace Segment

/-- The position at a part of the way along a segment. -/
noncomputable def partway (s : Segment Exact) (t : ℝ) : Position Exact where
  x := ⟨s.start.x.toReal + t * (s.stop.x.toReal - s.start.x.toReal)⟩
  y := ⟨s.start.y.toReal + t * (s.stop.y.toReal - s.start.y.toReal)⟩

/-- The positions of a segment, its ends included. -/
def points (s : Segment Exact) : Set (Position Exact) :=
  s.partway '' Set.Icc 0 1

variable {s : Segment Exact} {p q : Position Exact}

/-- None of the way is the start. -/
theorem partway_zero (s : Segment Exact) : s.partway 0 = s.start := by
  simp [partway]

theorem partway_one (s : Segment Exact) : s.partway 1 = s.stop := by
  simp [partway]

theorem start_mem_points (s : Segment Exact) : s.start ∈ s.points :=
  ⟨0, Set.left_mem_Icc.mpr zero_le_one, s.partway_zero⟩

theorem stop_mem_points (s : Segment Exact) : s.stop ∈ s.points :=
  ⟨1, Set.right_mem_Icc.mpr zero_le_one, s.partway_one⟩

/-- A position is on a segment if its coordinates are at the same part of the way. -/
theorem mem_points_of {t : ℝ} (ht : t ∈ Set.Icc (0 : ℝ) 1)
    (hx : s.start.x.toReal + t * (s.stop.x.toReal - s.start.x.toReal) = p.x.toReal)
    (hy : s.start.y.toReal + t * (s.stop.y.toReal - s.start.y.toReal) = p.y.toReal) :
    p ∈ s.points :=
  ⟨t, ht, Position.eq_of_toReal hx hy⟩

/-- Moving a number into the unit interval takes it towards every number there. -/
theorem clampUnit_spec {x : Exact} {u : ℝ} (hu : u ∈ Set.Icc (0 : ℝ) 1) :
    (u - (Scalar.clampUnit x).toReal) * (x.toReal - (Scalar.clampUnit x).toReal) ≤ 0 := by
  obtain ⟨h₀, h₁⟩ := hu
  unfold Scalar.clampUnit
  split
  · rename_i h
    rw [Exact.lt_def, Exact.toReal_zero] at h
    rw [Exact.toReal_zero]
    nlinarith
  split
  · rename_i h
    rw [Exact.lt_def, Exact.toReal_one] at h
    rw [Exact.toReal_one]
    nlinarith
  · rw [sub_self, mul_zero]

/-- The inner product at one part of the way, towards another one and the given position. -/
private theorem inner_partway (s : Segment Exact) (p : Position Exact) (t u : ℝ) :
    (s.partway t).inner p (s.partway u) =
      (u - t) * (s.start.inner p s.stop - t * s.start.inner s.stop s.stop) := by
  simp only [Position.inner, partway]
  ring

/-- The nearest position is at the start of a segment without length, and else where the foot of the
perpendicular is, or at the end next to it. -/
theorem closest_eq (s : Segment Exact) (p : Position Exact) :
    (s.start.inner s.stop s.stop = 0 ∧ s.closest p = s.start) ∨
      ∃ τ : Exact, s.start.inner p s.stop = τ.toReal * s.start.inner s.stop s.stop ∧
        s.closest p = s.partway (Scalar.clampUnit τ).toReal := by
  unfold closest
  dsimp only
  split
  · rename_i hzero
    have hlength := congrArg Exact.toReal (eq_of_beq hzero)
    rw [Exact.toReal_zero] at hlength
    exact .inl ⟨hlength, rfl⟩
  · rename_i hlength
    have hne : s.start.inner s.stop s.stop ≠ 0 := by
      refine fun heq => hlength (beq_iff_eq.mpr (Exact.ext ?_))
      rw [Exact.toReal_zero]
      exact heq
    exact .inr ⟨_, (div_mul_cancel₀ _ hne).symm, rfl⟩

/-- The nearest position is on the segment, and no way along the segment leads from it towards the
given one. -/
theorem closest_spec (s : Segment Exact) (p : Position Exact) :
    s.closest p ∈ s.points ∧ ∀ q ∈ s.points, (s.closest p).inner p q ≤ 0 := by
  obtain ⟨hlength, heq⟩ | ⟨τ, hτ, heq⟩ := s.closest_eq p
  · rw [heq, ← s.partway_zero]
    refine ⟨s.partway_zero ▸ s.start_mem_points, ?_⟩
    rintro _ ⟨u, -, rfl⟩
    obtain ⟨hx, hy⟩ := mul_self_add_mul_self_eq_zero.mp hlength
    rw [inner_partway, hlength, Position.inner, hx, hy]
    simp
  · rw [heq]
    refine ⟨⟨_, Exact.clampUnit_mem_unit τ, rfl⟩, ?_⟩
    rintro _ ⟨u, hu, rfl⟩
    have hclamp := clampUnit_spec (x := τ) hu
    have hlength : 0 ≤ s.start.inner s.stop s.stop :=
      add_nonneg (mul_self_nonneg _) (mul_self_nonneg _)
    rw [inner_partway, hτ, ← sub_mul, ← mul_assoc]
    exact mul_nonpos_of_nonpos_of_nonneg hclamp hlength

/-- No position of the segment is nearer. -/
theorem distance_closest_le (hq : q ∈ s.points) :
    ((s.closest p).distance p).toReal ≤ (q.distance p).toReal :=
  Position.distance_le_of_inner_nonpos ((s.closest_spec p).2 q hq)

end Segment

/-! ### Lines -/

/-- The positions of a line: its own ones and those of its segments. -/
def linePoints (line : List (Position Exact)) : Set (Position Exact) :=
  {q | q ∈ line ∨ ∃ s ∈ segments line, q ∈ s.points}

@[simp]
theorem linePoints_nil : linePoints [] = ∅ := by
  simp [linePoints, segments]

@[simp]
theorem linePoints_singleton (q : Position Exact) : linePoints [q] = {q} := by
  simp [linePoints, segments]

/-- A line of several positions is what its segments are. -/
theorem mem_linePoints_iff {line : List (Position Exact)} (h : ∀ q, line ≠ [q])
    {q : Position Exact} : q ∈ linePoints line ↔ ∃ s ∈ segments line, q ∈ s.points := by
  refine or_iff_right_of_imp fun hq => ?_
  induction line with
  | nil => cases hq
  | cons a rest ih =>
    cases rest with
    | nil => exact absurd rfl (h a)
    | cons b rest =>
      rw [segments]
      obtain rfl | hq := List.mem_cons.mp hq
      · exact ⟨_, List.mem_cons_self, Segment.start_mem_points _⟩
      cases rest with
      | nil =>
        obtain rfl := List.mem_singleton.mp hq
        exact ⟨_, List.mem_cons_self, Segment.stop_mem_points _⟩
      | cons c rest =>
        obtain ⟨s, hs, hqs⟩ := ih (by simp) hq
        exact ⟨s, List.mem_cons_of_mem _ hs, hqs⟩

end TransitQuery
