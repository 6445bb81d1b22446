import TransitQuery.Proofs.Geometry.Closed
import TransitQuery.Proofs.Geometry.Plane

/-!
# What lies inside a ring

Seen from a position off a closed ring, the way around the ring sweeps some full turns. The position
lies inside just if these do not cancel (`locateInRing_eq`): the count of segments that cross the
ray to the east of the position is the number of turns. A polygon has a position strictly inside if
its outer ring goes around it and none of its holes does (`Polygon.contains_iff`).

The bearing of a position is taken so that it jumps by a full turn where a segment crosses that ray,
and nowhere else.

* `Segment.sweep`: the angle of one segment, the argument of the quotient of the two ways to its
  ends. It is less than half a turn on either side, unless the segment passes through the position
  (`Segment.sweep_lt_pi`).
* `Segment.exists_crossing_eq`: what a segment counts, times a full turn, is its sweep less the
  difference of the bearings of its ends.
* `exists_locateBySegments_eq`: along a line the bearings in between cancel, and around a closed
  ring all of them do.

So far the position is off the ring. A position on it is told by the segment that stops there or
passes through it (`exists_crossing_eq_on`), which is why a segment need not notice its own start.

The sweep does not depend on how the count is made, in particular not on the direction of the ray:
two rings with the same sweep at a position are told the same of it.
-/

namespace TransitQuery

open Real

namespace Position

/-- The way from a position to another one. -/
noncomputable def way (p q : Position Exact) : ℂ :=
  ⟨q.x.toReal - p.x.toReal, q.y.toReal - p.y.toReal⟩

/-- The direction from a position to another one, as an angle that is zero towards the west. -/
noncomputable def bearing (p q : Position Exact) : ℝ :=
  Complex.arg (-p.way q)

variable {p q : Position Exact}

/-- There is no way from a position to itself. -/
private theorem way_eq_zero_iff : p.way q = 0 ↔ q = p := by
  rw [way, Complex.ext_iff]
  simp only [Complex.zero_re, Complex.zero_im, sub_eq_zero]
  constructor
  · rintro ⟨hx, hy⟩
    exact eq_of_toReal hx hy
  · rintro rfl
    exact ⟨rfl, rfl⟩

/-- At the level of a position or below it, the bearing is in the upper half turn. -/
private theorem bearing_nonneg (h : q.y.toReal ≤ p.y.toReal) : 0 ≤ p.bearing q := by
  rw [bearing, Complex.arg_nonneg_iff, way]
  simpa using h

/-- Above that level, it is in the lower half turn. -/
private theorem bearing_neg (h : p.y.toReal < q.y.toReal) : p.bearing q < 0 := by
  rw [bearing, Complex.arg_neg_iff, way]
  simpa using h

private theorem neg_pi_lt_bearing (p q : Position Exact) : -π < p.bearing q :=
  Complex.neg_pi_lt_arg _

private theorem bearing_le_pi (p q : Position Exact) : p.bearing q ≤ π :=
  Complex.arg_le_pi _

end Position

namespace Segment

/-- Twice the signed area of the triangle of a position and a segment. -/
noncomputable def area (s : Segment Exact) (p : Position Exact) : ℝ :=
  (s.start.x.toReal - p.x.toReal) * (s.stop.y.toReal - p.y.toReal) -
    (s.start.y.toReal - p.y.toReal) * (s.stop.x.toReal - p.x.toReal)

/-- The angle that a segment sweeps, seen from a position. -/
noncomputable def sweep (s : Segment Exact) (p : Position Exact) : ℝ :=
  Complex.arg (p.way s.stop / p.way s.start)

variable {s : Segment Exact} {p : Position Exact}

/-- The direction of a turn is the sign of the area. -/
private theorem turn_eq_compare (s : Segment Exact) (p : Position Exact) :
    turn s.start s.stop p = compare (s.area p) 0 := rfl

private theorem im_way_div_way (s : Segment Exact) (p : Position Exact) :
    (p.way s.stop / p.way s.start).im = s.area p / Complex.normSq (p.way s.start) := by
  rw [Complex.div_im, area, ← sub_div]
  simp only [Position.way]
  congr 1
  ring

/-- Off a segment, there is a way to each position of it. -/
private theorem way_ne_zero (hp : p ∉ s.points) {q : Position Exact} (hq : q ∈ s.points) :
    p.way q ≠ 0 :=
  fun heq => hp (Position.way_eq_zero_iff.mp heq ▸ hq)

/-- The sweep has the sign of the area. -/
private theorem sweep_nonneg (h : 0 ≤ s.area p) : 0 ≤ s.sweep p := by
  rw [sweep, Complex.arg_nonneg_iff, im_way_div_way]
  exact div_nonneg h (Complex.normSq_nonneg _)

private theorem sweep_neg (hp : p ∉ s.points) (h : s.area p < 0) : s.sweep p < 0 := by
  have hstart := way_ne_zero hp s.start_mem_points
  rw [sweep, Complex.arg_neg_iff, im_way_div_way]
  exact div_neg_of_neg_of_pos h (Complex.normSq_pos.mpr hstart)

/-- The angle is less than half a turn, unless the segment goes through the position. -/
theorem sweep_lt_pi (hp : p ∉ s.points) : s.sweep p < π := by
  refine (Complex.arg_le_pi _).lt_of_ne fun heq => hp ?_
  have hstart := way_ne_zero hp s.start_mem_points
  obtain ⟨hre, him⟩ := Complex.arg_eq_pi_iff.mp heq
  -- the ways to the two ends are opposite
  generalize hz : p.way s.stop / p.way s.start = z at hre him
  have hstop : p.way s.stop = z * p.way s.start := (div_eq_iff hstart).mp hz
  have hx := congrArg Complex.re hstop
  have hy := congrArg Complex.im hstop
  rw [Complex.mul_re, him, zero_mul, sub_zero] at hx
  rw [Complex.mul_im, him, zero_mul, add_zero] at hy
  simp only [Position.way] at hx hy
  have hpos : 0 < 1 - z.re := by linarith
  have hpart : (1 - z.re)⁻¹ ≤ 1 := inv_le_one_of_one_le₀ (by linarith)
  refine mem_points_of ⟨by positivity, hpart⟩ ?_ ?_
  · field_simp
    linarith
  · field_simp
    linarith

/-- Up to full turns, the sweep is the difference of the bearings. -/
private theorem exists_sweep_eq (hp : p ∉ s.points) :
    ∃ k : ℤ, s.sweep p = p.bearing s.stop - p.bearing s.start + 2 * π * k := by
  have hstart := way_ne_zero hp s.start_mem_points
  have hstop := way_ne_zero hp s.stop_mem_points
  have hangle : (s.sweep p : Real.Angle) =
      ((p.bearing s.stop - p.bearing s.start : ℝ) : Real.Angle) := by
    rw [sweep, ← neg_div_neg_eq, Complex.arg_div_coe_angle (neg_ne_zero.mpr hstop)
      (neg_ne_zero.mpr hstart), Real.Angle.coe_sub]
    rfl
  obtain ⟨k, hk⟩ := Real.Angle.angle_eq_iff_two_pi_dvd_sub.mp hangle
  exact ⟨k, by linarith⟩

/-! ### Crossings -/

/-- To be between two values is to be between them in one order or the other. -/
private theorem isBetween_iff {v a b : Exact} :
    isBetween v a b = true ↔
      (a.toReal ≤ v.toReal ∧ v.toReal ≤ b.toReal) ∨ b.toReal ≤ v.toReal ∧ v.toReal ≤ a.toReal := by
  unfold isBetween
  split
  · rename_i h
    rw [Exact.lt_def] at h
    rw [Bool.and_eq_true_iff, decide_eq_true_iff, decide_eq_true_iff, Exact.le_def, Exact.le_def]
    exact ⟨.inl, fun h => h.elim id fun h => by constructor <;> linarith⟩
  · rename_i h
    rw [Exact.lt_def, not_lt] at h
    rw [Bool.and_eq_true_iff, decide_eq_true_iff, decide_eq_true_iff, Exact.le_def, Exact.le_def]
    exact ⟨.inr, fun h => h.elim (fun h => by constructor <;> linarith) id⟩

/-- A segment that crosses the level of a position in the position itself. -/
theorem mem_points_of_area_eq_zero (harea : s.area p = 0)
    (h : (s.start.y.toReal ≤ p.y.toReal ∧ p.y.toReal < s.stop.y.toReal) ∨
      s.stop.y.toReal ≤ p.y.toReal ∧ p.y.toReal < s.start.y.toReal) : p ∈ s.points := by
  have hne : s.stop.y.toReal - s.start.y.toReal ≠ 0 := by
    rcases h with h | h <;> intro heq <;> linarith [h.1, h.2]
  rw [area] at harea
  refine mem_points_of (t := (p.y.toReal - s.start.y.toReal) /
    (s.stop.y.toReal - s.start.y.toReal)) ⟨?_, ?_⟩ ?_ ?_
  · rcases h with h | h
    · exact div_nonneg (by linarith) (by linarith)
    · exact div_nonneg_of_nonpos (by linarith) (by linarith)
  · rcases h with h | h
    · rw [div_le_one (by linarith)]
      linarith
    · rw [div_le_one_of_neg (by linarith)]
      linarith
  · field_simp
    linarith
  · field_simp
    ring

/-- A level segment on the level of a position, with the position between its ends. -/
theorem mem_points_of_isBetween (hstart : s.start.y.toReal = p.y.toReal)
    (hstop : s.stop.y.toReal = p.y.toReal)
    (h : isBetween p.x s.start.x s.stop.x = true) : p ∈ s.points := by
  by_cases heq : s.stop.x.toReal - s.start.x.toReal = 0
  · have hx : s.start.x.toReal = p.x.toReal := by
      rcases isBetween_iff.mp h with h | h <;> linarith [h.1, h.2]
    exact mem_points_of (t := 0) ⟨le_rfl, zero_le_one⟩ (by simpa using hx) (by simpa using hstart)
  · refine mem_points_of (t := (p.x.toReal - s.start.x.toReal) /
      (s.stop.x.toReal - s.start.x.toReal)) ⟨?_, ?_⟩ ?_ ?_
    · rcases isBetween_iff.mp h with h | h
      · exact div_nonneg (by linarith) (by linarith)
      · exact div_nonneg_of_nonpos (by linarith) (by linarith)
    · rcases isBetween_iff.mp h with h | h
      · exact div_le_one_of_le₀ (by linarith) (by linarith)
      · exact div_le_one_of_ge (by linarith) (by linarith)
    · field_simp
      ring
    · rw [hstart, hstop]
      ring

/-- A segment that does not get above the level of the position does not count. -/
private theorem crossing_of_not_above (hp : p ∉ s.points) (hstart : s.start.y.toReal ≤ p.y.toReal)
    (hstop : s.stop.y.toReal ≤ p.y.toReal) : s.crossing p = .turns 0 := by
  rw [crossing, if_pos ((Exact.le_def ..).mpr hstart)]
  split
  · rename_i hle
    have hlevel : s.stop.y.toReal = p.y.toReal := le_antisymm hstop hle
    rw [turn_eq_compare]
    split
    · rw [if_pos (beq_iff_eq.mpr (Exact.ext hlevel))]
    · rename_i harea
      rw [compare_eq_iff_eq, area, hlevel, sub_self, mul_zero, zero_sub, neg_eq_zero,
        mul_eq_zero, sub_eq_zero, sub_eq_zero] at harea
      rw [if_neg]
      intro hbetween
      -- the segment ends in the position or is level with it
      rcases harea with hy | hx
      · exact hp (mem_points_of_isBetween hy hlevel hbetween)
      · exact hp (Position.eq_of_toReal hx hlevel ▸ s.stop_mem_points)
    · rfl
  · rfl

/-- One that goes up counts if the position is on its left. -/
private theorem crossing_upward (hp : p ∉ s.points) (hstart : s.start.y.toReal ≤ p.y.toReal)
    (hstop : p.y.toReal < s.stop.y.toReal) :
    (0 < s.area p ∧ s.crossing p = .turns 1) ∨ s.area p < 0 ∧ s.crossing p = .turns 0 := by
  rw [crossing, if_pos ((Exact.le_def ..).mpr hstart), if_pos ((Exact.le_def ..).mpr hstop.le),
    turn_eq_compare]
  rcases lt_trichotomy (s.area p) 0 with harea | harea | harea
  · rw [compare_lt_iff_lt.mpr harea]
    exact .inr ⟨harea, rfl⟩
  · exact absurd (mem_points_of_area_eq_zero harea (.inl ⟨hstart, hstop⟩)) hp
  · rw [compare_gt_iff_gt.mpr harea]
    refine .inl ⟨harea, if_neg fun h => ?_⟩
    rw [eq_of_beq h] at hstop
    exact lt_irrefl _ hstop

/-- One that goes down counts the other way if the position is on its right. -/
private theorem crossing_downward (hp : p ∉ s.points) (hstart : p.y.toReal < s.start.y.toReal)
    (hstop : s.stop.y.toReal ≤ p.y.toReal) :
    (s.area p < 0 ∧ s.crossing p = .turns (-1)) ∨ 0 < s.area p ∧ s.crossing p = .turns 0 := by
  have hnot : ¬s.start.y ≤ p.y := by
    rw [Exact.le_def]
    exact not_le.mpr hstart
  rw [crossing, if_neg hnot, if_pos ((Exact.le_def ..).mpr hstop), turn_eq_compare]
  rcases lt_trichotomy (s.area p) 0 with harea | harea | harea
  · rw [compare_lt_iff_lt.mpr harea]
    exact .inl ⟨harea, rfl⟩
  · exact absurd (mem_points_of_area_eq_zero harea (.inr ⟨hstop, hstart⟩)) hp
  · rw [compare_gt_iff_gt.mpr harea]
    exact .inr ⟨harea, rfl⟩

/-- Off a segment, what it sweeps is the difference of the bearings of its ends, and the full turns
for which it counts. -/
theorem exists_crossing_eq (hp : p ∉ s.points) :
    ∃ n : ℤ, s.crossing p = .turns n ∧
      s.sweep p = p.bearing s.stop - p.bearing s.start + 2 * π * n := by
  obtain ⟨k, hk⟩ := exists_sweep_eq hp
  -- an angle that is less than a full turn off tells the number of turns
  have hcount : ∀ n : ℤ, s.crossing p = .turns n → 2 * π * (n - 1) < 2 * π * k →
      2 * π * k < 2 * π * (n + 1) → s.crossing p = .turns k := by
    intro n hn hlow hhigh
    have hlow' := lt_of_mul_lt_mul_left hlow (by positivity)
    have hhigh' := lt_of_mul_lt_mul_left hhigh (by positivity)
    have heq : n = k := by
      have h₁ : n - 1 < k := by exact_mod_cast hlow'
      have h₂ : k < n + 1 := by exact_mod_cast hhigh'
      omega
    rw [hn, heq]
  refine ⟨k, ?_, hk⟩
  have hpi := pi_pos
  have hsweep := sweep_lt_pi hp
  have hsweep' : -π < s.sweep p := Complex.neg_pi_lt_arg _
  have hstart₁ := p.neg_pi_lt_bearing s.start
  have hstart₂ := p.bearing_le_pi s.start
  have hstop₁ := p.neg_pi_lt_bearing s.stop
  have hstop₂ := p.bearing_le_pi s.stop
  rcases le_or_gt s.start.y.toReal p.y.toReal with hstart | hstart <;>
    rcases le_or_gt s.stop.y.toReal p.y.toReal with hstop | hstop
  · have h₁ := Position.bearing_nonneg hstart
    have h₂ := Position.bearing_nonneg hstop
    exact hcount 0 (crossing_of_not_above hp hstart hstop) (by push_cast; linarith)
      (by push_cast; linarith)
  · have h₁ := Position.bearing_nonneg hstart
    have h₂ := Position.bearing_neg hstop
    rcases crossing_upward hp hstart hstop with ⟨harea, hturns⟩ | ⟨harea, hturns⟩
    · have h₃ := sweep_nonneg harea.le
      exact hcount 1 hturns (by push_cast; linarith) (by push_cast; linarith)
    · have h₃ := sweep_neg hp harea
      exact hcount 0 hturns (by push_cast; linarith) (by push_cast; linarith)
  · have h₁ := Position.bearing_neg hstart
    have h₂ := Position.bearing_nonneg hstop
    rcases crossing_downward hp hstart hstop with ⟨harea, hturns⟩ | ⟨harea, hturns⟩
    · have h₃ := sweep_neg hp harea
      exact hcount (-1) hturns (by push_cast; linarith) (by push_cast; linarith)
    · have h₃ := sweep_nonneg harea.le
      exact hcount 0 hturns (by push_cast; linarith) (by push_cast; linarith)
  · have h₁ := Position.bearing_neg hstart
    have h₂ := Position.bearing_neg hstop
    exact hcount 0 (crossing_of_above hstart hstop) (by push_cast; linarith)
      (by push_cast; linarith)

/-- A segment that goes through a position says so, unless it starts there. -/
theorem crossing_partway {t : ℝ} (h₀ : 0 < t) (h₁ : t ≤ 1) : s.crossing (s.partway t) = .on := by
  have harea : s.area (s.partway t) = 0 := by
    rw [area, partway]
    ring
  have hbetween : isBetween (s.partway t).x s.start.x s.stop.x = true := by
    rw [isBetween_iff, partway]
    rcases le_total s.start.x.toReal s.stop.x.toReal with h | h
    · exact .inl ⟨by nlinarith, by nlinarith⟩
    · exact .inr ⟨by nlinarith, by nlinarith⟩
  have hturn : turn s.start s.stop (s.partway t) = .eq := by
    rw [turn_eq_compare, harea, compare_eq_iff_eq]
  have hy : (s.partway t).y.toReal =
      s.start.y.toReal + t * (s.stop.y.toReal - s.start.y.toReal) := rfl
  unfold crossing
  rw [hturn]
  simp only [hbetween, if_true, Exact.le_def]
  rcases le_or_gt s.start.y.toReal (s.partway t).y.toReal with h | h
  · rw [if_pos h, if_pos (by nlinarith)]
  · rw [if_neg (not_le.mpr h), if_pos (by nlinarith)]

end Segment

/-! ### Rings -/

section Rings

variable {p : Position Exact} {ring : List (Position Exact)}

/-- The angle that a line sweeps, seen from a position. -/
noncomputable def lineSweep (line : List (Position Exact)) (p : Position Exact) : ℝ :=
  ((segments line).map (·.sweep p)).sum

/-- Off a line, the segments count for the full turns that it sweeps besides the difference of the
bearings of its ends. -/
theorem exists_locateBySegments_eq {first : Position Exact} {rest : List (Position Exact)}
    (hp : ∀ s ∈ segments (first :: rest), p ∉ s.points) :
    ∃ n : ℤ, lineSweep (first :: rest) p =
        p.bearing ((first :: rest).getLast (List.cons_ne_nil first rest)) - p.bearing first +
          2 * π * n ∧
      ∀ winding, locateBySegments p (segments (first :: rest)) winding =
        if winding + n = 0 then .outside else .inside := by
  induction rest generalizing first with
  | nil =>
    exact ⟨0, by simp [lineSweep, segments], fun winding => by simp [segments, locateBySegments]⟩
  | cons second rest ih =>
    rw [segments] at hp
    obtain ⟨hfirst, hrest⟩ := List.forall_mem_cons.mp hp
    obtain ⟨k, hcrossing, hsegment⟩ := Segment.exists_crossing_eq hfirst
    obtain ⟨n, hsweep, hlocate⟩ := ih hrest
    refine ⟨k + n, ?_, fun winding => ?_⟩
    · rw [List.getLast_cons (List.cons_ne_nil second rest)]
      rw [lineSweep] at hsweep ⊢
      rw [segments, List.map_cons, List.sum_cons, hsweep, hsegment]
      push_cast
      ring
    · rw [segments, locateBySegments, hcrossing]
      dsimp only
      rw [hlocate, add_assoc]

/-- One segment that goes through the position is enough. -/
theorem locateBySegments_of_on {segs : List (Segment Exact)} {s : Segment Exact} (hs : s ∈ segs)
    (hon : s.crossing p = .on) (winding : Int) :
    locateBySegments p segs winding = .onBoundary := by
  induction segs generalizing winding with
  | nil => cases hs
  | cons s' rest ih =>
    rw [locateBySegments]
    obtain rfl | hs := List.mem_cons.mp hs
    · rw [hon]
    · cases s'.crossing p with
      | on => rfl
      | turns n => exact ih hs (winding + n)

/-- A segment stops at each position of a line but the first. -/
theorem exists_stop_eq {first v : Position Exact} {rest : List (Position Exact)} (h : v ∈ rest) :
    ∃ s ∈ segments (first :: rest), s.stop = v := by
  induction rest generalizing first with
  | nil => cases h
  | cons second rest ih =>
    rw [segments]
    obtain rfl | h := List.mem_cons.mp h
    · exact ⟨_, List.mem_cons_self, rfl⟩
    · obtain ⟨s, hs, hstop⟩ : ∃ s ∈ segments (second :: rest), s.stop = v := ih h
      exact ⟨s, List.mem_cons_of_mem _ hs, hstop⟩

/-- Of a closed ring through a position, some segment says so: if none but its own start is there,
the one before does. -/
theorem exists_crossing_eq_on {first second : Position Exact} {rest : List (Position Exact)}
    (hclosed : (first :: second :: rest).head? = (first :: second :: rest).getLast?)
    (hp : p ∈ linePoints (first :: second :: rest)) :
    ∃ s ∈ segments (first :: second :: rest), s.crossing p = .on := by
  obtain ⟨s, hs, t, ht, rfl⟩ := (mem_linePoints_iff (by simp)).mp hp
  rcases ht.1.eq_or_lt with rfl | hpos
  · have hlast : first ∈ second :: rest := by
      rw [List.head?_cons, List.getLast?_cons_cons] at hclosed
      exact List.mem_of_getLast? hclosed.symm
    have hstart : s.start ∈ second :: rest := by
      obtain hstart | hstart := List.mem_cons.mp (mem_of_mem_segments hs).1
      · exact hstart ▸ hlast
      · exact hstart
    obtain ⟨s', hs', hstop⟩ : ∃ s' ∈ segments (first :: second :: rest), s'.stop = s.start :=
      exists_stop_eq hstart
    refine ⟨s', hs', ?_⟩
    rw [Segment.partway_zero, ← hstop, ← Segment.partway_one]
    exact Segment.crossing_partway zero_lt_one le_rfl
  · exact ⟨s, hs, Segment.crossing_partway hpos ht.2⟩

open scoped Classical in
/-- A position off a closed ring lies inside just if the way around the ring sweeps an angle. -/
theorem locateInRing_eq (hclosed : ring.head? = ring.getLast?) (p : Position Exact) :
    locateInRing ring p =
      if p ∈ linePoints ring then .onBoundary else if lineSweep ring p = 0 then .outside
      else .inside := by
  match ring with
  | [] => simp [locateInRing, lineSweep, segments]
  | [q] => simp [locateInRing, lineSweep, segments]
  | first :: second :: rest =>
    have hring : locateInRing (first :: second :: rest) p =
        locateBySegments p (segments (first :: second :: rest)) 0 := rfl
    rw [hring]
    by_cases hp : p ∈ linePoints (first :: second :: rest)
    · obtain ⟨s, hs, hon⟩ := exists_crossing_eq_on hclosed hp
      rw [if_pos hp, locateBySegments_of_on hs hon]
    · have hoff : ∀ s ∈ segments (first :: second :: rest), p ∉ s.points :=
        fun s hs hps => hp (.inr ⟨s, hs, hps⟩)
      obtain ⟨n, hsweep, hlocate⟩ := exists_locateBySegments_eq hoff
      -- The ring is closed, so the bearings at both ends cancel and whole turns are left.
      have hends : (first :: second :: rest).getLast (List.cons_ne_nil _ _) = first := by
        rw [List.head?_cons, List.getLast?_eq_some_getLast (List.cons_ne_nil _ _)] at hclosed
        exact (Option.some.inj hclosed).symm
      rw [hends, sub_self, zero_add] at hsweep
      have hzero : lineSweep (first :: second :: rest) p = 0 ↔ n = 0 := by
        rw [hsweep, mul_eq_zero, or_iff_right two_pi_pos.ne', Int.cast_eq_zero]
      rw [if_neg hp, hlocate, zero_add]
      simp only [hzero]

end Rings

/-! ### Polygons -/

/-- A position is strictly inside a polygon: off its rings, with the outer ring going around it and
no hole doing so. -/
def Polygon.Encloses (g : Polygon Exact) (p : Position Exact) : Prop :=
  (∀ ring ∈ g.rings, p ∉ linePoints ring) ∧ lineSweep g.exterior p ≠ 0 ∧
    ∀ hole ∈ g.interiors, lineSweep hole p = 0

section Polygons

variable {p : Position Exact} {ring : List (Position Exact)}

/-- Inside a closed ring is what is off it and swept around. -/
private theorem locateInRing_eq_inside_iff (hclosed : ring.head? = ring.getLast?) :
    locateInRing ring p = .inside ↔ p ∉ linePoints ring ∧ lineSweep ring p ≠ 0 := by
  rw [locateInRing_eq hclosed]
  split
  · simp_all
  split <;> simp_all

/-- Outside is what is off it and not swept around. -/
private theorem locateInRing_eq_outside_iff (hclosed : ring.head? = ring.getLast?) :
    locateInRing ring p = .outside ↔ p ∉ linePoints ring ∧ lineSweep ring p = 0 := by
  rw [locateInRing_eq hclosed]
  split
  · simp_all
  split <;> simp_all

/-- Holes leave inside what is outside of each of them. -/
private theorem locateAmongHoles_eq_inside_iff {R : Type} [Coordinate R] {p : Position R}
    {holes : List (List (Position R))} :
    locateAmongHoles p holes = .inside ↔ ∀ hole ∈ holes, locateInRing hole p = .outside := by
  induction holes with
  | nil => simp [locateAmongHoles]
  | cons hole rest ih =>
    rw [locateAmongHoles, List.forall_mem_cons, ← ih]
    cases locateInRing hole p <;> simp

/-- What the count says is inside a polygon is what lies strictly inside. -/
theorem Polygon.contains_iff {g : Polygon Exact} (hclosed : g.HasClosedRings) :
    g.contains p = true ↔ g.Encloses p := by
  obtain ⟨hexterior, hinteriors⟩ := List.forall_mem_cons.mp hclosed
  have hlocate : g.contains p = true ↔ locateInRing g.exterior p = .inside ∧
      locateAmongHoles p g.interiors = .inside := by
    rw [contains, decide_eq_true_iff, locate]
    cases locateInRing g.exterior p <;> simp
  have hholes : (∀ hole ∈ g.interiors, locateInRing hole p = .outside) ↔
      ∀ hole ∈ g.interiors, p ∉ linePoints hole ∧ lineSweep hole p = 0 :=
    forall₂_congr fun hole hhole => locateInRing_eq_outside_iff (hinteriors hole hhole)
  rw [hlocate, locateInRing_eq_inside_iff hexterior, locateAmongHoles_eq_inside_iff, hholes,
    Encloses, rings, List.forall_mem_cons]
  simp only [forall_and]
  tauto

end Polygons

end TransitQuery
