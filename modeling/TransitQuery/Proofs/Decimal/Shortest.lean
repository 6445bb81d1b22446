import TransitQuery.Decimal.Shortest
import TransitQuery.Proofs.Decimal.Numeral
import Mathlib.Algebra.Order.Field.Power
import Mathlib.Tactic.Linarith

/-!
# Shortest decimals tell doubles apart

The values that round to a double make up an interval, and each value belongs to the interval of
one double only: neighbouring intervals share an end, which belongs to the one with the even
mantissa. `Binary64.shortest` writes a member of the interval, be it a hit on one of the twenty
grids that it tries or the value cut off on the last of them, which is finer than the interval.
So a double is known from the value of its shortest decimal, and that is known from its text,
in JSON (`Binary64.eq_of_shortest_json_eq`) and among words (`Binary64.eq_of_shortest_plain_eq`).

Intervals are given by multiples of a quarter of a unit of the mantissa, so that all ends are
integers, and membership (`Binary64.Interval.Contains`) is a comparison of rationals. A decimal is
compared with the ends after both have been brought to one scale (`Binary64.exists_scale_factors`).
The last grid has to be finer than the interval, or a cut-off value could fall out of it:
`Binary64.ten_zpow_gridAbove_le` proves this from two estimates of powers of ten by powers of two
that are good enough over the whole range of exponents.

The ends of neighbouring intervals are compared in `Binary64.high_lt_low_later`. Where they
coincide one of the two is open, since of two neighbouring mantissas one is odd. That gives the
order of the intervals, and from it that a value belongs to one of them only
(`Binary64.eq_of_contains`).
-/

namespace TransitQuery

namespace Binary64

/-- The mantissas and exponents that doubles have: only with the least exponent may the mantissa
be small. -/
structure IsCanonical (mantissa : Nat) (exponent : Int) : Prop where
  mantissa_lt : mantissa < 2 * minMantissa
  minExponent_le : minExponent ≤ exponent
  exponent_le : exponent ≤ 971
  minMantissa_le : minExponent < exponent → minMantissa ≤ mantissa

/-- The mantissas and exponents to which values are rounded before it is known whether a double is
large enough for them. -/
structure IsRounded (mantissa : Nat) (exponent : Int) : Prop where
  mantissa_lt : mantissa < 2 * minMantissa
  minExponent_le : minExponent ≤ exponent
  minMantissa_le : minExponent < exponent → minMantissa ≤ mantissa

theorem IsCanonical.isRounded {mantissa : Nat} {exponent : Int}
    (h : IsCanonical mantissa exponent) : IsRounded mantissa exponent :=
  ⟨h.mantissa_lt, h.minExponent_le, h.minMantissa_le⟩

/-- Zero has the least exponent. -/
theorem IsCanonical.exponent_of_zero {exponent : Int} (h : IsCanonical 0 exponent) :
    exponent = minExponent := by
  have hmin := h.minExponent_le
  have hle := h.minMantissa_le
  have hpos : 0 < minMantissa := by decide
  omega

theorem minMantissa_eq : minMantissa = 2 ^ 52 := rfl

/-- The parts of a double are canonical. -/
theorem ofBits_isCanonical {bits : UInt64} {negative : Bool} {mantissa : Nat} {exponent : Int}
    (h : ofBits bits = finite negative mantissa exponent) : IsCanonical mantissa exponent := by
  have hpos : 0 < minMantissa := by decide
  have hfraction := Nat.mod_lt bits.toNat hpos
  have hbiased := Nat.mod_lt (bits.toNat >>> 52) (by omega : 0 < 2048)
  unfold ofBits at h
  dsimp only at h
  split at h
  · split at h <;> cases h
  split at h
  · cases h
    exact ⟨by omega, le_refl _, by decide, fun h => absurd h (lt_irrefl _)⟩
  · cases h
    exact ⟨by omega, by unfold minExponent; omega, by omega, fun _ => by omega⟩

/-- A finite double has only one pattern of bits. -/
theorem ofBits_inj {bits bits' : UInt64} {negative : Bool} {mantissa : Nat} {exponent : Int}
    (h : ofBits bits = finite negative mantissa exponent)
    (h' : ofBits bits' = finite negative mantissa exponent) : bits = bits' := by
  have hlt := bits.toNat_lt
  have hlt' := bits'.toNat_lt
  refine UInt64.toNat_inj.mp ?_
  unfold ofBits minMantissa at h h'
  dsimp only at h h'
  split at h
  · split at h <;> cases h
  split at h'
  · split at h' <;> cases h'
  simp only [Nat.shiftRight_eq_div_pow, Nat.one_shiftLeft] at *
  -- the sign, the biased exponent and the fraction put together
  split at h <;> split at h' <;>
  · obtain ⟨hs, hm, he⟩ := finite.inj h
    obtain ⟨hs', hm', he'⟩ := finite.inj h'
    have hsign := decide_eq_decide.mp (hs.trans hs'.symm)
    unfold minExponent at *
    omega

/-- So has an infinite double. -/
theorem ofBits_inj_of_infinite {bits bits' : UInt64} {negative : Bool}
    (h : ofBits bits = infinite negative) (h' : ofBits bits' = infinite negative) :
    bits = bits' := by
  have hlt := bits.toNat_lt
  have hlt' := bits'.toNat_lt
  refine UInt64.toNat_inj.mp ?_
  unfold ofBits minMantissa at h h'
  dsimp only at h h'
  split at h
  · split at h
    · split at h'
      · split at h'
        · simp only [Nat.shiftRight_eq_div_pow, Nat.one_shiftLeft] at *
          have hsign := decide_eq_decide.mp ((infinite.inj h).trans (infinite.inj h').symm)
          omega
        · cases h'
      · split at h' <;> cases h'
    · cases h
  · split at h <;> cases h

/-- The bits that are no number have the greatest exponent and some fraction. -/
theorem of_ofBits_eq_nan {bits : UInt64} (h : ofBits bits = nan) :
    (bits.toNat >>> 52) % 2048 = 2047 ∧ bits.toNat % minMantissa ≠ 0 := by
  unfold ofBits at h
  dsimp only at h
  split at h
  · rename_i hbiased
    split at h
    · cases h
    · rename_i hfraction
      exact ⟨hbiased, hfraction⟩
  · split at h <;> cases h

/-! ### Grids of decimals and of doubles -/

/-- A power of ten below a power of two. The two bounds are close enough over the range of
doubles: a thousand is less than `2 ^ 10`, and `10 ^ 28` is more than `2 ^ 93`. -/
theorem ten_zpow_le_two_zpow {k j : Int} (hpos : 0 ≤ k → 10 * k ≤ 3 * j)
    (hneg : k < 0 → 93 * k ≤ 28 * j) : (10 : ℚ) ^ k ≤ 2 ^ j := by
  obtain hk | hk := le_or_gt 0 k
  · refine (pow_le_pow_iff_left₀ (by positivity) (by positivity) (by omega : 3 ≠ 0)).mp ?_
    calc ((10 : ℚ) ^ k) ^ 3 = (10 ^ 3) ^ k := by rw [← zpow_natCast, zpow_comm, zpow_natCast]
      _ ≤ (2 ^ 10) ^ k := zpow_le_zpow_left₀ hk (by norm_num) (by norm_num)
      _ = 2 ^ (10 * k) := by rw [zpow_mul]; norm_cast
      _ ≤ 2 ^ (j * 3) := zpow_le_zpow_right₀ (by norm_num) (by have := hpos hk; omega)
      _ = (2 ^ j) ^ 3 := by rw [zpow_mul]; norm_cast
  · refine (pow_le_pow_iff_left₀ (by positivity) (by positivity) (by omega : 28 ≠ 0)).mp ?_
    calc ((10 : ℚ) ^ k) ^ 28 = (10 ^ 28) ^ k := by rw [← zpow_natCast, zpow_comm, zpow_natCast]
      _ ≤ (2 ^ 93) ^ k := by
        obtain ⟨n, rfl⟩ : ∃ n : Nat, k = -n := ⟨(-k).toNat, by omega⟩
        rw [zpow_neg, zpow_neg, zpow_natCast, zpow_natCast]
        gcongr
        norm_num
      _ = 2 ^ (93 * k) := by rw [zpow_mul]; norm_cast
      _ ≤ 2 ^ (j * 28) := zpow_le_zpow_right₀ (by norm_num) (by have := hneg hk; omega)
      _ = (2 ^ j) ^ 28 := by rw [zpow_mul]; norm_cast

/-- The last grid is finer than the interval of a double. -/
theorem ten_zpow_gridAbove_le {mantissa : Nat} {exponent : Int} (h : IsCanonical mantissa exponent)
    (hpos : mantissa ≠ 0) :
    (10 : ℚ) ^ (gridAbove mantissa exponent - 20) ≤ 2 ^ (exponent - 2) := by
  have hlog : mantissa.log2 < 53 :=
    (Nat.log2_lt hpos).mpr (lt_of_lt_of_eq h.mantissa_lt (by rw [minMantissa_eq]; rfl))
  have hmin := h.minExponent_le
  have hmax := h.exponent_le
  unfold minExponent at hmin
  unfold gridAbove
  -- what is left is about the constants of `gridAbove`, over the range of exponents
  exact ten_zpow_le_two_zpow (fun _ => by omega) (fun _ => by omega)

/-- The factors of `factors` are what they stand for, up to a scale. -/
theorem exists_scale_factors (e k : Int) :
    ∃ s : ℚ, 0 < s ∧ ((factors e k).1 : ℚ) = 2 ^ e * s ∧ ((factors e k).2 : ℚ) = 10 ^ k * s := by
  have htwo : ∀ e : Int, (2 : ℚ) ^ e * 2 ^ (-e).toNat = 2 ^ e.toNat := fun e => by
    rw [← zpow_natCast, ← zpow_natCast, ← zpow_add₀ (by norm_num)]
    congr 1
    omega
  have hten : ∀ k : Int, (10 : ℚ) ^ k * 10 ^ (-k).toNat = 10 ^ k.toNat := fun k => by
    rw [← zpow_natCast, ← zpow_natCast, ← zpow_add₀ (by norm_num)]
    congr 1
    omega
  refine ⟨10 ^ (-k).toNat * 2 ^ (-e).toNat, by positivity, ?_, ?_⟩
  · simp only [factors, Nat.shiftLeft_eq, Nat.pow_eq]
    push_cast
    rw [← htwo e]
    ring
  · simp only [factors, Nat.shiftLeft_eq, Nat.pow_eq]
    push_cast
    rw [← hten k]
    ring

/-! ### Intervals -/

/-- The value belongs to an interval that is given as multiples of `2 ^ e`. -/
def Interval.Contains (i : Interval) (e : Int) (v : ℚ) : Prop :=
  (i.low * 2 ^ e ≤ v ∧ v ≤ i.high * 2 ^ e) ∧
    (i.closed = false → i.low * 2 ^ e < v ∧ v < i.high * 2 ^ e)

private theorem Interval.contains_of_lt {i : Interval} {e : Int} {v : ℚ} (hlow : i.low * 2 ^ e < v)
    (hhigh : v < i.high * 2 ^ e) : i.Contains e v :=
  ⟨⟨hlow.le, hhigh.le⟩, fun _ => ⟨hlow, hhigh⟩⟩

/-- What is tested on one scale. -/
theorem Interval.contains_of_holds {i : Interval} {e k : Int} {d : Nat}
    (h : i.holds (factors e k).1 (d * (factors e k).2) = true) :
    i.Contains e (Numeral.scaled d k) := by
  -- The integers that are compared are the values themselves, times one scale.
  obtain ⟨s, hs, ha, hb⟩ := exists_scale_factors e k
  have hle : ∀ x y : ℚ, x * s ≤ y * s → x ≤ y := fun x y h => le_of_mul_le_mul_right h hs
  have hlt : ∀ x y : ℚ, x * s < y * s → x < y := fun x y h => lt_of_mul_lt_mul_right h hs.le
  have hcast : ∀ x : Nat, ((x * (factors e k).1 : Nat) : ℚ) = x * 2 ^ e * s := fun x => by
    push_cast
    rw [ha]
    ring
  have hd : ((d * (factors e k).2 : Nat) : ℚ) = Numeral.scaled d k * s := by
    push_cast
    rw [hb, Numeral.scaled]
    ring
  unfold holds at h
  split at h
  · rename_i hclosed
    simp only [Bool.and_eq_true, decide_eq_true_eq] at h
    obtain ⟨hlow, hhigh⟩ := h
    refine ⟨⟨hle _ _ ?_, hle _ _ ?_⟩, fun h => by simp [h] at hclosed⟩
    · rw [← hcast, ← hd]
      exact_mod_cast hlow
    · rw [← hcast, ← hd]
      exact_mod_cast hhigh
  · simp only [Bool.and_eq_true, decide_eq_true_eq] at h
    obtain ⟨hlow, hhigh⟩ := h
    refine contains_of_lt (hlt _ _ ?_) (hlt _ _ ?_)
    · rw [← hcast, ← hd]
      exact_mod_cast hlow
    · rw [← hcast, ← hd]
      exact_mod_cast hhigh

/-- A hit is a member. -/
theorem Interval.contains_of_hit {tie : Tie} {i : Interval} {e k : Int} {d : Nat}
    (h : i.hit? tie e k = some d) : i.Contains e (Numeral.scaled d k) := by
  refine contains_of_holds ?_
  unfold hit? at h
  dsimp only at h
  split at h
  · cases h
  · cases h
    assumption
  · cases h
    assumption
  · -- both neighbours belong to the interval, whichever is the nearer
    split at h
    · cases h
      assumption
    split at h
    · cases h
      assumption
    cases tie with
    | away =>
      cases h
      assumption
    | toEven =>
      dsimp only at h
      split at h <;> cases h <;> assumption

/-- The value cut off on a grid that is finer than the unit of the interval is a member. -/
theorem Interval.contains_of_cut {i : Interval} {e k : Int} (hlow : i.low < i.value)
    (hhigh : i.value < i.high) (hfine : (10 : ℚ) ^ k ≤ 2 ^ e) :
    i.Contains e (Numeral.scaled (i.value * (factors e k).1 / (factors e k).2) k) := by
  obtain ⟨s, hs, ha, hb⟩ := exists_scale_factors e k
  set a := (factors e k).1
  set b := (factors e k).2
  have hba : b ≤ a := by
    have h : (b : ℚ) ≤ a := by
      rw [ha, hb]
      exact mul_le_mul_of_nonneg_right hfine hs.le
    exact_mod_cast h
  have hbpos : 0 < b := by
    have h : (0 : ℚ) < b := by
      rw [hb]
      positivity
    exact_mod_cast h
  -- less than one step of the grid is cut off, and that is at most one unit
  have hcut := Nat.div_add_mod (i.value * a) b
  have hrest := Nat.mod_lt (i.value * a) hbpos
  have hup : i.value * a / b * b ≤ i.value * a := Nat.div_mul_le_self _ _
  have hdown : i.low * a < i.value * a / b * b := by
    have h₁ : (i.low + 1) * a ≤ i.value * a := Nat.mul_le_mul_right a hlow
    have h₂ : b * (i.value * a / b) = i.value * a / b * b := Nat.mul_comm _ _
    rw [Nat.add_mul, Nat.one_mul] at h₁
    omega
  have hover : i.value * a < i.high * a := Nat.mul_lt_mul_of_pos_right hhigh (by omega)
  refine contains_of_holds ?_
  unfold holds
  split
  · simp only [Bool.and_eq_true, decide_eq_true_eq]
    exact ⟨hdown.le, (hup.trans_lt hover).le⟩
  · simp only [Bool.and_eq_true, decide_eq_true_eq]
    exact ⟨hdown, hup.trans_lt hover⟩

/-- Whatever the search through the grids ends with is a member, if the last grid is fine. -/
theorem Interval.contains_firstHit (tie : Tie) {i : Interval} {e : Int} (hlow : i.low < i.value)
    (hhigh : i.value < i.high) {grids : Nat} {k : Int} (hfine : (10 : ℚ) ^ (k - grids) ≤ 2 ^ e) :
    i.Contains e (Numeral.scaled (i.firstHit tie e grids k).1 (i.firstHit tie e grids k).2) := by
  induction grids generalizing k with
  | zero =>
    rw [Nat.cast_zero, sub_zero] at hfine
    exact contains_of_cut hlow hhigh hfine
  | succ grids ih =>
    rw [firstHit]
    split
    · rename_i d hd
      exact contains_of_hit hd
    · refine ih ?_
      rw [sub_sub, add_comm (1 : Int)]
      exact_mod_cast hfine

/-! ### No value rounds to two doubles -/

/-- The upper end of an interval lies below the lower end of a later one, or it is the same, but
then one of the two intervals is open. -/
theorem high_lt_low_later {m m' n : Nat} {e : Int} (h : IsRounded m e)
    (h' : IsRounded m' (e + n)) (hlater : 0 < n ∨ m < m') :
    (Interval.around m e).high < (Interval.around m' (e + n)).low * 2 ^ n ∨
      (Interval.around m e).high = (Interval.around m' (e + n)).low * 2 ^ n ∧
        (m % 2 = 1 ∨ m' % 2 = 1) := by
  have hmin : minMantissa = 4503599627370496 := rfl
  have hm := h.mantissa_lt
  have he := h.minExponent_le
  simp only [Interval.around]
  obtain rfl | hn := Nat.eq_zero_or_pos n
  · -- within one binade only neighbours meet, and one of them is odd
    have hle := h.minMantissa_le
    rw [Nat.cast_zero, add_zero, pow_zero, mul_one]
    split <;> omega
  · -- at the end of a binade only its last mantissa reaches the next one, and it is odd
    have hle := h'.minMantissa_le (by omega)
    have hpow : 2 ^ 1 ≤ 2 ^ n := Nat.pow_le_pow_right (by omega) hn
    have hmul := Nat.mul_le_mul_left
      (if m' = minMantissa ∧ minExponent < e + n then 4 * m' - 1 else 4 * m' - 2) hpow
    split at hmul <;> split <;> omega

/-- What belongs to one interval is less than what belongs to a later one. -/
theorem lt_of_contains {m m' : Nat} {e e' : Int} {v v' : ℚ} (h : IsRounded m e)
    (h' : IsRounded m' e') (hlater : e < e' ∨ e = e' ∧ m < m')
    (hv : (Interval.around m e).Contains (e - 2) v)
    (hv' : (Interval.around m' e').Contains (e' - 2) v') : v < v' := by
  obtain ⟨n, rfl⟩ : ∃ n : Nat, e' = e + n := ⟨(e' - e).toNat, by omega⟩
  have hpos : (0 : ℚ) < 2 ^ (e - 2) := by positivity
  -- both intervals as multiples of the lesser unit
  have hscale : ∀ x : Nat,
      (x : ℚ) * 2 ^ (e + n - 2) = (x * 2 ^ n : Nat) * 2 ^ (e - 2) := fun x => by
    rw [show e + n - 2 = (n : Int) + (e - 2) by ring, zpow_add₀ (by norm_num), zpow_natCast]
    push_cast
    ring
  obtain hlt | ⟨heq, hodd⟩ := high_lt_low_later h h' (by omega)
  · have hcast : ((Interval.around m e).high : ℚ) * 2 ^ (e - 2) <
        ((Interval.around m' (e + n)).low * 2 ^ n : Nat) * 2 ^ (e - 2) :=
      mul_lt_mul_of_pos_right (by exact_mod_cast hlt) hpos
    rw [← hscale] at hcast
    exact (hv.1.2.trans_lt hcast).trans_le hv'.1.1
  · -- a shared end would belong to both, and one of the two is open
    have hcast : ((Interval.around m e).high : ℚ) * 2 ^ (e - 2) =
        (Interval.around m' (e + n)).low * 2 ^ (e + n - 2) := by
      rw [hscale, heq]
    obtain hodd | hodd := hodd
    · have hopen := (hv.2 (by simp [Interval.around, hodd])).2
      rw [hcast] at hopen
      exact hopen.trans_le hv'.1.1
    · have hopen := (hv'.2 (by simp [Interval.around, hodd])).1
      rw [← hcast] at hopen
      exact hv.1.2.trans_lt hopen

/-- A value is rounded in one way only. -/
theorem eq_of_contains {m m' : Nat} {e e' : Int} {v : ℚ} (h : IsRounded m e)
    (h' : IsRounded m' e') (hv : (Interval.around m e).Contains (e - 2) v)
    (hv' : (Interval.around m' e').Contains (e' - 2) v) : m = m' ∧ e = e' := by
  obtain hlt | rfl | hlt := lt_trichotomy e e'
  · exact absurd (lt_of_contains h h' (.inl hlt) hv hv') (lt_irrefl v)
  · obtain hlt | heq | hlt := lt_trichotomy m m'
    · exact absurd (lt_of_contains h h' (.inr ⟨rfl, hlt⟩) hv hv') (lt_irrefl v)
    · exact ⟨heq, rfl⟩
    · exact absurd (lt_of_contains h' h (.inr ⟨rfl, hlt⟩) hv' hv) (lt_irrefl v)
  · exact absurd (lt_of_contains h' h (.inl hlt) hv' hv) (lt_irrefl v)

/-! ### Shortest decimals -/

/-- The value of the shortest decimal of a finite double. -/
theorem exists_shortest {m : Nat} {e : Int} (tie : Tie) (negative : Bool) (h : IsCanonical m e) :
    ∃ d k, shortest tie (finite negative m e) = .finite negative d k ∧
      (m = 0 → Numeral.scaled d k = 0) ∧
      (m ≠ 0 → (Interval.around m e).Contains (e - 2) (Numeral.scaled d k)) := by
  by_cases hm : m = 0
  · subst hm
    exact ⟨0, 0, rfl, fun _ => by simp [Numeral.scaled], fun h => absurd rfl h⟩
  have hlow : (Interval.around m e).low < (Interval.around m e).value := by
    simp only [Interval.around]
    split <;> omega
  have hhigh : (Interval.around m e).value < (Interval.around m e).high := by
    simp only [Interval.around]
    omega
  have hmember := Interval.contains_firstHit tie hlow hhigh (ten_zpow_gridAbove_le h hm)
  refine ⟨_, _, ?_, fun h => absurd h hm, fun _ => hmember⟩
  rw [shortest]
  exact hm

/-- The interval of a double that is not zero does not reach down to zero. -/
theorem not_contains_zero {m : Nat} {e : Int} (hm : m ≠ 0) :
    ¬ (Interval.around m e).Contains (e - 2) 0 := by
  intro h
  have hlow : 0 < (Interval.around m e).low := by
    simp only [Interval.around]
    split <;> omega
  have hpos : (0 : ℚ) < (Interval.around m e).low * 2 ^ (e - 2) := by
    have hcast : (0 : ℚ) < (Interval.around m e).low := by exact_mod_cast hlow
    positivity
  exact absurd h.1.1 (not_le_of_gt hpos)

/-- A value that the shortest decimals of two doubles share belongs to one double only. -/
theorem eq_of_shared {m m' : Nat} {e e' : Int} {v : ℚ} (h : IsCanonical m e)
    (h' : IsCanonical m' e') (hzero : m = 0 → v = 0)
    (hv : m ≠ 0 → (Interval.around m e).Contains (e - 2) v) (hzero' : m' = 0 → v = 0)
    (hv' : m' ≠ 0 → (Interval.around m' e').Contains (e' - 2) v) : m = m' ∧ e = e' := by
  by_cases hm : m = 0
  · by_cases hm' : m' = 0
    · subst hm hm'
      exact ⟨rfl, by rw [h.exponent_of_zero, h'.exponent_of_zero]⟩
    · exact absurd (hzero hm ▸ hv' hm') (not_contains_zero hm')
  · by_cases hm' : m' = 0
    · exact absurd (hzero' hm' ▸ hv hm) (not_contains_zero hm)
    · exact eq_of_contains h.isRounded h'.isRounded (hv hm) (hv' hm')

/-- Finite doubles with one shortest text are the same. -/
theorem eq_of_shortest_json_eq {tie : Tie} {negative negative' : Bool} {m m' : Nat} {e e' : Int}
    (h : IsCanonical m e) (h' : IsCanonical m' e')
    (heq : (shortest tie (finite negative m e)).json =
      (shortest tie (finite negative' m' e')).json) :
    finite negative m e = finite negative' m' e' := by
  obtain ⟨d, k, hs, hzero, hv⟩ := exists_shortest tie negative h
  obtain ⟨d', k', hs', hzero', hv'⟩ := exists_shortest tie negative' h'
  rw [hs, hs'] at heq
  obtain ⟨rfl, hvalue⟩ := Numeral.scaled_eq_of_json_eq heq
  rw [hvalue] at hzero hv
  obtain ⟨rfl, rfl⟩ := eq_of_shared h h' hzero hv hzero' hv'
  rfl

/-- Among words a finite double is written with digits, and other doubles have names without. -/
theorem shortest_plain_ne {tie : Tie} {negative : Bool} {m : Nat} {e : Int}
    (h : IsCanonical m e) {x : Binary64} (hx : ∀ negative m e, x ≠ finite negative m e) :
    (shortest tie x).plain ≠ (shortest tie (finite negative m e)).plain := by
  obtain ⟨d, k, hs, -, -⟩ := exists_shortest tie negative h
  obtain ⟨c, s, htext, hc⟩ := Numeral.exists_unsignedPlain_eq_cons d k
  rw [hs, Numeral.plain_finite, htext]
  intro heq
  have hmem : c ∈ (shortest tie x).plain := by
    rw [heq]
    exact List.mem_append_right _ List.mem_cons_self
  have hname : ∀ a ∈ (shortest tie x).plain, ¬a.isDigit = true := by
    refine List.any_eq_false.mp ?_
    cases x with
    | nan => rfl
    | infinite negative' => cases negative' <;> rfl
    | finite negative' m' e' => exact absurd rfl (hx negative' m' e')
  exact hname c hmem hc

/-- Doubles with one shortest text among words are the same. -/
theorem eq_of_shortest_plain_eq {tie : Tie} {x y : Binary64}
    (hx : ∀ negative m e, x = finite negative m e → IsCanonical m e)
    (hy : ∀ negative m e, y = finite negative m e → IsCanonical m e)
    (heq : (shortest tie x).plain = (shortest tie y).plain) : x = y := by
  cases x with
  | finite negative m e =>
    have h := hx _ _ _ rfl
    cases y with
    | finite negative' m' e' =>
      have h' := hy _ _ _ rfl
      obtain ⟨d, k, hs, hzero, hv⟩ := exists_shortest tie negative h
      obtain ⟨d', k', hs', hzero', hv'⟩ := exists_shortest tie negative' h'
      rw [hs, hs'] at heq
      -- One text has one sign and one value, and no value lies in the intervals of two doubles.
      obtain ⟨rfl, hvalue⟩ := Numeral.scaled_eq_of_plain_eq heq
      rw [hvalue] at hzero hv
      obtain ⟨rfl, rfl⟩ := eq_of_shared h h' hzero hv hzero' hv'
      rfl
    | _ => exact absurd heq.symm (shortest_plain_ne h (by simp))
  | nan =>
    cases y with
    | nan => rfl
    | infinite negative => cases negative <;> cases heq
    | finite negative m e => exact absurd heq (shortest_plain_ne (hy _ _ _ rfl) (by simp))
  | infinite negative =>
    cases y with
    | nan => cases negative <;> cases heq
    | infinite negative' => cases negative <;> cases negative' <;> cases heq <;> rfl
    | finite negative' m e => exact absurd heq (shortest_plain_ne (hy _ _ _ rfl) (by simp))

end Binary64

end TransitQuery
