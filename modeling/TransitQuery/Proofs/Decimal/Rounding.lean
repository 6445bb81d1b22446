import TransitQuery.Proofs.Decimal.Shortest
import TransitQuery.Scalar.Double

/-!
# Decimals that round to a double

Reading a decimal multiplies or divides two naturals and rounds the result once. The machine keeps
a truncated mantissa for that, with one bit for the half of a unit and one for whatever is left
over; they follow the mantissa when it is shifted, and say in the end which neighbour is nearest.
So a value that belongs to the interval of a double is read as this double
(`Double.parts_ofDecimal`).

`Binary64.StandsFor` says what a truncated mantissa and its two bits stand for: a value in units of
the mantissa, of which the bits tell whether half a unit and whether anything else is left over. A
shift by one place halves that value and keeps the relation, whatever is shifted out; so any number
of shifts does. In the end the mantissa is rounded to the nearer neighbour, or to the even one, and
the value is at most half a unit away from it, and less than that from an odd one. This is just
what it is to belong to the interval of a double (`Interval.contains_of_rounded`), except at the
two ends of a binade, which have lemmas of their own: below its least mantissa the neighbour is
nearer, and a mantissa that is rounded up to the next power of two has its exponent raised.

The main lemma is `Binary64.exists_roundWithAccuracy`: what is rounded leads to the mantissa and
exponent to whose interval it belongs. No value belongs to two intervals, so
`Binary64.roundWithAccuracy_eq` turns this around, and products, quotients and decimals follow.
-/

namespace TransitQuery

open Float.Model (Format UnpackedFloat)
open Float.Model.UnpackedFloat (Accuracy ExtendedMantissa Sign)

namespace Numeral

/-- The magnitude is the power of ten below a decimal. -/
theorem magnitude_le {d : Nat} (hd : d ≠ 0) (k : Int) :
    (10 : ℚ) ^ magnitude d k ≤ scaled d k ∧
      scaled d k < 10 ^ (magnitude d k + 1) := by
  have hlength : ∀ n, 0 < n → ((digitChars d).length ≤ n ↔ d < 10 ^ n) := fun n hn =>
    Nat.length_toDigits_le_iff (by norm_num) hn
  obtain ⟨n, hn⟩ : ∃ n, (digitChars d).length = n + 1 :=
    Nat.exists_eq_add_one.mpr (List.length_pos_of_ne_nil (digitChars_ne_nil d))
  have hlow : 10 ^ n ≤ d := by
    obtain rfl | hpos := Nat.eq_zero_or_pos n
    · omega
    · by_contra hlt
      have := (hlength n hpos).mpr (by omega)
      omega
  have hhigh : d < 10 ^ (n + 1) := (hlength (n + 1) (by omega)).mp hn.le
  have hmagnitude : magnitude d k = n + k := by
    rw [magnitude, if_neg hd, hn]
    push_cast
    ring
  have hten : (0 : ℚ) < 10 ^ k := by positivity
  rw [hmagnitude, scaled]
  constructor
  · rw [zpow_add₀ (by norm_num), zpow_natCast]
    exact mul_le_mul_of_nonneg_right (by exact_mod_cast hlow) hten.le
  · rw [add_right_comm, zpow_add₀ (by norm_num)]
    refine mul_lt_mul_of_pos_right ?_ hten
    exact_mod_cast hhigh

/-- A number has at most as many decimal digits as binary ones. -/
theorem length_digitChars_le {d : Nat} : (digitChars d).length ≤ d.log2 + 1 := by
  refine (Nat.length_toDigits_le_iff (by norm_num) (by omega)).mpr ?_
  calc d < 2 ^ (d.log2 + 1) := Nat.lt_log2_self
    _ ≤ 10 ^ (d.log2 + 1) := Nat.pow_le_pow_left (by norm_num) _

end Numeral

namespace Binary64

/-! ### What the two bits say -/

/-- A mantissa and its two bits stand for a value, in units of the mantissa. -/
def StandsFor (a : ExtendedMantissa) (x : ℚ) : Prop :=
  ∃ rest : ℚ, x = a.mantissa + (if a.roundBit then 1 / 2 else 0) + rest ∧ 0 ≤ rest ∧
    rest < 1 / 2 ∧ (a.stickyBit = true ↔ rest ≠ 0)

/-- A shift by one place halves the value; what is shifted out is remembered in the bits. -/
private theorem StandsFor.shiftRightOne {a : ExtendedMantissa} {x : ℚ} (h : StandsFor a x) :
    StandsFor a.shiftRightOne (x / 2) := by
  obtain ⟨rest, rfl, hpos, hlt, hsticky⟩ := h
  obtain ⟨m, round, sticky⟩ := a
  have hm : ((m / 2 : Nat) : ℚ) * 2 + (m % 2 : Nat) = m := by exact_mod_cast Nat.div_add_mod' m 2
  refine ⟨((if round then 1 / 2 else 0) + rest) / 2, ?_, ?_, ?_, ?_⟩
  · dsimp only [ExtendedMantissa.shiftRightOne]
    rcases Nat.mod_two_eq_zero_or_one m with h | h
    · rw [h] at hm
      simp only [h, bne_self_eq_false, Bool.false_eq_true, if_false]
      rw [← hm]
      push_cast
      ring
    · rw [h] at hm
      simp only [h, ne_eq, one_ne_zero, not_false_eq_true, bne_iff_ne, if_true]
      rw [← hm]
      push_cast
      ring
  · cases round <;> simp <;> linarith
  · cases round <;> simp <;> linarith
  · cases round
    · simpa [ExtendedMantissa.shiftRightOne] using hsticky
    · simp only [ExtendedMantissa.shiftRightOne, Bool.true_or, if_true, true_iff]
      linarith

/-- Shifts divide by powers of two. -/
theorem StandsFor.shiftRight {a : ExtendedMantissa} {x : ℚ} (h : StandsFor a x) (n : Nat) :
    StandsFor (a >>> n) (x / 2 ^ n) := by
  change StandsFor (n.repeat ExtendedMantissa.shiftRightOne a) (x / 2 ^ n)
  induction n with
  | zero => simpa [Nat.repeat] using h
  | succ n ih =>
    rw [Nat.repeat, pow_succ, ← div_div]
    exact ih.shiftRightOne

private theorem StandsFor.mantissa_le {a : ExtendedMantissa} {x : ℚ} (h : StandsFor a x) :
    (a.mantissa : ℚ) ≤ x ∧ x < a.mantissa + 1 := by
  obtain ⟨rest, rfl, hpos, hlt, -⟩ := h
  split <;> constructor <;> linarith

/-- The rounded mantissa is at most half a unit away, and less than that if it is odd. -/
theorem StandsFor.roundedMantissa {a : ExtendedMantissa} {x : ℚ} (h : StandsFor a x) :
    (4 * (a.roundedMantissa : ℚ) - 2 ≤ 4 * x ∧ 4 * x ≤ 4 * a.roundedMantissa + 2) ∧
      (a.roundedMantissa % 2 = 1 →
        4 * (a.roundedMantissa : ℚ) - 2 < 4 * x ∧ 4 * x < 4 * a.roundedMantissa + 2) := by
  obtain ⟨rest, rfl, hpos, hlt, hsticky⟩ := h
  obtain ⟨m, round, sticky⟩ := a
  -- The two bits say where the value lies: on the mantissa, below the middle, on it, or above.
  cases round <;> cases sticky
  · obtain rfl : rest = 0 := by simpa using hsticky
    simp only [ExtendedMantissa.roundedMantissa, ExtendedMantissa.accuracy,
      Accuracy.roundToNearestEven, Bool.false_eq_true, if_false]
    exact ⟨⟨by linarith, by linarith⟩, fun _ => ⟨by linarith, by linarith⟩⟩
  · simp only [ExtendedMantissa.roundedMantissa, ExtendedMantissa.accuracy,
      Accuracy.roundToNearestEven, Bool.false_eq_true, if_false]
    exact ⟨⟨by linarith, by linarith⟩, fun _ => ⟨by linarith, by linarith⟩⟩
  · -- a value in the middle goes to the even neighbour
    obtain rfl : rest = 0 := by simpa using hsticky
    simp only [ExtendedMantissa.roundedMantissa, ExtendedMantissa.accuracy,
      Accuracy.roundToNearestEven, if_true]
    rcases Nat.mod_two_eq_zero_or_one m with h | h
    · rw [h, add_zero]
      exact ⟨⟨by linarith, by linarith⟩, fun hodd => by omega⟩
    · rw [h]
      push_cast
      exact ⟨⟨by linarith, by linarith⟩, fun hodd => by omega⟩
  · have hrest : 0 < rest := lt_of_le_of_ne hpos (Ne.symm (by simpa using hsticky))
    simp only [ExtendedMantissa.roundedMantissa, ExtendedMantissa.accuracy,
      Accuracy.roundToNearestEven, if_true]
    push_cast
    exact ⟨⟨by linarith, by linarith⟩, fun _ => ⟨by linarith, by linarith⟩⟩

private theorem roundedMantissa_le (a : ExtendedMantissa) :
    a.mantissa ≤ a.roundedMantissa ∧ a.roundedMantissa ≤ a.mantissa + 1 := by
  obtain ⟨m, round, sticky⟩ := a
  cases round <;> cases sticky <;>
    simp only [ExtendedMantissa.roundedMantissa, ExtendedMantissa.accuracy,
      Accuracy.roundToNearestEven] <;>
    omega

/-! ### Rounding -/

/-- A mantissa and an exponent with a sign. -/
def unpacked (s : Sign) (mantissa : Nat) (exponent : Int) : UnpackedFloat :=
  if h : mantissa = 0 then .zero s else .finite s mantissa exponent (Nat.pos_of_ne_zero h)

/-- Zero keeps its sign, and no exponent. -/
theorem unpacked_zero (s : Sign) (exponent : Int) : unpacked s 0 exponent = .zero s :=
  dif_pos rfl

theorem unpacked_of_ne_zero (s : Sign) {mantissa : Nat} (h : mantissa ≠ 0) (exponent : Int) :
    unpacked s mantissa exponent = .finite s mantissa exponent (Nat.pos_of_ne_zero h) :=
  dif_neg h

theorem neg_unpacked (s : Sign) (m : Nat) (e : Int) : (unpacked s m e).neg = unpacked (-s) m e := by
  by_cases hm : m = 0
  · subst hm
    rfl
  · rw [unpacked_of_ne_zero s hm, unpacked_of_ne_zero (-s) hm]
    rfl

/-- Zero is unpacked to zero, and anything else to a finite number. -/
theorem unpacked_cases (s : Sign) (m : Nat) (e : Int) :
    unpacked s m e = .zero s ∨ ∃ hm, unpacked s m e = .finite s m e hm := by
  by_cases hm : m = 0
  · exact .inl (dif_pos hm)
  · exact .inr ⟨_, dif_neg hm⟩

private theorem mantissaBits_eq : Format.mantissaBits Format.binary64 = 53 := rfl

/-- The exponent for 53 digits, or the least one. -/
theorem targetExponent_eq (mantissa : Nat) (exponent : Int) :
    Format.binary64.targetExponent (Float.Model.totalExponent mantissa exponent) =
      max (mantissa.log2 + exponent - 52) minExponent := by
  simp only [Format.targetExponent, Float.Model.totalExponent, mantissaBits_eq,
    Format.minExponent, minExponent]
  norm_num
  omega

/-- A mantissa that is small enough is not shifted any more. -/
theorem shiftToTargetExponent_eq_self {m : Nat} {e : Int} (hm : m < 2 * minMantissa)
    (he : minExponent ≤ e) :
    Float.Model.UnpackedFloat.shiftToTargetExponent Format.binary64 m e .exact =
      (⟨m, false, false⟩, e) := by
  have hlog : m.log2 ≤ 52 := by
    obtain rfl | hpos := Nat.eq_zero_or_pos m
    · decide
    · exact Nat.lt_succ_iff.mp ((Nat.log2_lt hpos.ne').mpr hm)
  have hshift : (max (m.log2 + e - 52) minExponent - e).toNat = 0 := by omega
  simp [Float.Model.UnpackedFloat.shiftToTargetExponent,
    Float.Model.UnpackedFloat.shiftToExponent, targetExponent_eq, hshift, HShiftRight.hShiftRight,
    Nat.repeat, ExtendedMantissa.ofMantissaAndAccuracy]

/-- One that has been rounded up to the next power of two is halved. -/
theorem shiftToTargetExponent_carry {e : Int} (he : minExponent ≤ e) :
    Float.Model.UnpackedFloat.shiftToTargetExponent Format.binary64 (2 * minMantissa) e .exact =
      (⟨minMantissa, false, false⟩, e + 1) := by
  have hlog : (2 * minMantissa).log2 = 53 := by decide
  have hshift : (max (((2 * minMantissa).log2 : Nat) + e - 52) minExponent - e).toNat = 1 := by
    rw [hlog]
    omega
  simp [Float.Model.UnpackedFloat.shiftToTargetExponent,
    Float.Model.UnpackedFloat.shiftToExponent, targetExponent_eq, hshift, HShiftRight.hShiftRight,
    Nat.repeat, ExtendedMantissa.ofMantissaAndAccuracy, ExtendedMantissa.shiftRightOne]

/-- Four times a value, in units of a mantissa, is compared with the ends of its interval. -/
theorem Interval.contains_mul {i : Interval} {e : Int} {u : ℚ}
    (h : (i.low : ℚ) ≤ 4 * u ∧ 4 * u ≤ i.high)
    (hopen : i.closed = false → (i.low : ℚ) < 4 * u ∧ 4 * u < i.high) :
    i.Contains (e - 2) (u * 2 ^ e) := by
  have hpos : (0 : ℚ) < 2 ^ (e - 2) := by positivity
  have hvalue : u * 2 ^ e = 4 * u * 2 ^ (e - 2) := by
    rw [show e = 2 + (e - 2) by ring, zpow_add₀ (by norm_num)]
    norm_num
    ring
  rw [hvalue]
  refine ⟨⟨?_, ?_⟩, fun hclosed => ⟨?_, ?_⟩⟩
  · exact mul_le_mul_of_nonneg_right h.1 hpos.le
  · exact mul_le_mul_of_nonneg_right h.2 hpos.le
  · exact mul_lt_mul_of_pos_right (hopen hclosed).1 hpos
  · exact mul_lt_mul_of_pos_right (hopen hclosed).2 hpos

/-- A value that is at most half a unit away from a mantissa belongs to its interval. Below the
least mantissa of a binade the interval reaches only half as far. -/
theorem Interval.contains_of_rounded {r : Nat} {e : Int} {u : ℚ} (hu : 0 ≤ u)
    (hnear : 4 * (r : ℚ) - 2 ≤ 4 * u ∧ 4 * u ≤ 4 * r + 2)
    (hodd : r % 2 = 1 → 4 * (r : ℚ) - 2 < 4 * u ∧ 4 * u < 4 * r + 2)
    (hleast : r = minMantissa ∧ minExponent < e → 4 * (r : ℚ) - 1 ≤ 4 * u) :
    (Interval.around r e).Contains (e - 2) (u * 2 ^ e) := by
  have hlow : ((Interval.around r e).low : ℚ) ≤ 4 * u := by
    simp only [Interval.around]
    split
    · rename_i h
      have hpos : 1 ≤ 4 * r := by
        have hmin : 0 < minMantissa := by decide
        omega
      rw [Nat.cast_sub hpos]
      push_cast
      exact hleast h
    · obtain rfl | hr := Nat.eq_zero_or_pos r
      · simpa using hu
      · rw [Nat.cast_sub (by omega)]
        push_cast
        exact hnear.1
  refine Interval.contains_mul ⟨hlow, ?_⟩ fun hopen => ?_
  · simp only [Interval.around]
    push_cast
    exact hnear.2
  · have hr : r % 2 = 1 := by
      simp only [Interval.around, decide_eq_false_iff_not] at hopen
      omega
    have hne : ¬(r = minMantissa ∧ minExponent < e) := by
      rintro ⟨rfl, -⟩
      exact absurd hr (by decide)
    simp only [Interval.around, if_neg hne]
    rw [Nat.cast_sub (by omega)]
    push_cast
    exact hodd hr

/-- A double belongs to its own interval. -/
theorem Interval.contains_self (m : Nat) (e : Int) :
    (Interval.around m e).Contains (e - 2) (m * 2 ^ e) := by
  refine Interval.contains_mul ⟨?_, ?_⟩ fun hopen => ⟨?_, ?_⟩
  · have h : (Interval.around m e).low ≤ 4 * m := by
      simp only [Interval.around]
      split <;> omega
    exact_mod_cast h
  · simp [Interval.around]
  · have h : (Interval.around m e).low < 4 * m := by
      simp only [Interval.around, decide_eq_false_iff_not] at hopen ⊢
      split <;> omega
    exact_mod_cast h
  · simp [Interval.around]

/-- The range of the doubles other than zero. -/
theorem bounds_of_contains {m : Nat} {e : Int} {v : ℚ} (h : IsCanonical m e) (hm : m ≠ 0)
    (hv : (Interval.around m e).Contains (e - 2) v) :
    (10 : ℚ) ^ (-324 : Int) ≤ v ∧ v ≤ 10 ^ (310 : Int) := by
  have hmin := h.minExponent_le
  have hmax := h.exponent_le
  rw [minExponent] at hmin
  have hlow : 2 ≤ (Interval.around m e).low := by
    simp only [Interval.around]
    split <;> omega
  have hhigh : (Interval.around m e).high ≤ 2 ^ 55 := by
    have hlt := h.mantissa_lt
    rw [minMantissa_eq] at hlt
    simp only [Interval.around]
    omega
  have hpow : ((2 ^ 55 : Nat) : ℚ) = 2 ^ (55 : Int) := by norm_num
  -- The interval reaches down to half the least double and up to twice the largest power.
  constructor
  · calc (10 : ℚ) ^ (-324 : Int) ≤ 2 ^ (-1075 : Int) :=
          ten_zpow_le_two_zpow (fun _ => by omega) (fun _ => by omega)
      _ = (2 : Nat) * 2 ^ (-1076 : Int) := by
        rw [show (-1075 : Int) = 1 + -1076 by norm_num, zpow_add₀ (by norm_num)]
        norm_num
      _ ≤ (Interval.around m e).low * 2 ^ (e - 2) :=
        mul_le_mul (by exact_mod_cast hlow) (zpow_le_zpow_right₀ (by norm_num) (by omega))
          (by positivity) (by positivity)
      _ ≤ v := hv.1.1
  · calc v ≤ (Interval.around m e).high * 2 ^ (e - 2) := hv.1.2
      _ ≤ (2 ^ 55 : Nat) * 2 ^ (969 : Int) :=
        mul_le_mul (by exact_mod_cast hhigh) (zpow_le_zpow_right₀ (by norm_num) (by omega))
          (by positivity) (by positivity)
      _ = (2 ^ (-1024 : Int))⁻¹ := by
        rw [hpow, ← zpow_neg, ← zpow_add₀ (by norm_num)]
        rfl
      _ ≤ (10 ^ (-310 : Int))⁻¹ :=
        inv_anti₀ (by positivity) (ten_zpow_le_two_zpow (fun _ => by omega) (fun _ => by omega))
      _ = 10 ^ (310 : Int) := by rw [← zpow_neg, neg_neg]

private theorem mantissa_ofMantissaAndAccuracy (mantissa : Nat) (a : Accuracy) :
    (ExtendedMantissa.ofMantissaAndAccuracy mantissa a).mantissa = mantissa := by
  unfold ExtendedMantissa.ofMantissaAndAccuracy
  split <;> rfl

/-- A value that is rounded up to the next power of two belongs to the interval there: it is less
than half a unit below it, and the units double. -/
theorem Interval.contains_of_carry {e : Int} {u : ℚ}
    (h : 4 * ((2 * minMantissa : Nat) : ℚ) - 2 ≤ 4 * u ∧ 4 * u ≤ 4 * (2 * minMantissa : Nat) + 2) :
    (Interval.around minMantissa (e + 1)).Contains (e + 1 - 2) (u * 2 ^ e) := by
  obtain ⟨hlow, hhigh⟩ := h
  have hhalf : u * 2 ^ e = u / 2 * 2 ^ (e + 1) := by
    rw [zpow_add_one₀ (by norm_num)]
    ring
  rw [hhalf]
  push_cast at hlow hhigh
  have hone : (1 : ℚ) ≤ minMantissa := by exact_mod_cast (by decide : 1 ≤ minMantissa)
  refine Interval.contains_of_rounded (by linarith) ⟨by linarith, by linarith⟩ ?_
    fun _ => by linarith
  intro hodd
  exact absurd hodd (by decide)

/-! ### The first shift -/

section

variable {mantissa n : Nat} {a : Accuracy} {x : ℚ}

/-- How far a mantissa is shifted, if it has enough digits. -/
theorem exists_shiftToTargetExponent {exponent : Int} (a : Accuracy)
    (henough : 52 ≤ mantissa.log2 ∨ exponent ≤ minExponent) :
    ∃ n : Nat, exponent + n = max ((mantissa.log2 : Int) + exponent - 52) minExponent ∧
      Float.Model.UnpackedFloat.shiftToTargetExponent Format.binary64 mantissa exponent a =
        (ExtendedMantissa.ofMantissaAndAccuracy mantissa a >>> n, exponent + n) := by
  have hle : exponent ≤ max ((mantissa.log2 : Int) + exponent - 52) minExponent := by omega
  obtain ⟨n, hn⟩ := Int.le.dest hle
  refine ⟨n, hn, ?_⟩
  have hamount : (exponent + n - exponent).toNat = n := by omega
  rw [Float.Model.UnpackedFloat.shiftToTargetExponent, targetExponent_eq, ← hn]
  simp only [Float.Model.UnpackedFloat.shiftToExponent, hamount]

/-- After the shift the mantissa has at most 53 digits. -/
private theorem StandsFor.shiftRight_mantissa_lt
    (hx : StandsFor (ExtendedMantissa.ofMantissaAndAccuracy mantissa a) x)
    (h : mantissa.log2 ≤ 52 + n) :
    (ExtendedMantissa.ofMantissaAndAccuracy mantissa a >>> n).mantissa < 2 * minMantissa := by
  have hbits := hx.mantissa_le.2
  rw [mantissa_ofMantissaAndAccuracy] at hbits
  have hlog : mantissa + 1 ≤ 2 ^ (53 + n) :=
    Nat.lt_log2_self.trans_le (Nat.pow_le_pow_right (by norm_num) (by omega))
  have hlt : x / 2 ^ n < 2 ^ 53 := by
    rw [div_lt_iff₀ (by positivity), ← pow_add]
    exact hbits.trans_le (by exact_mod_cast hlog)
  exact_mod_cast (hx.shiftRight n).mantissa_le.1.trans_lt hlt

/-- If it had more before, it has 53 of them. -/
private theorem StandsFor.le_shiftRight_mantissa
    (hx : StandsFor (ExtendedMantissa.ofMantissaAndAccuracy mantissa a) x) (hne : mantissa ≠ 0)
    (h : mantissa.log2 = 52 + n) :
    minMantissa ≤ (ExtendedMantissa.ofMantissaAndAccuracy mantissa a >>> n).mantissa := by
  have hbits := hx.mantissa_le.1
  rw [mantissa_ofMantissaAndAccuracy] at hbits
  have hlog : 2 ^ (52 + n) ≤ mantissa := h ▸ Nat.log2_self_le hne
  have hge : (2 : ℚ) ^ 52 ≤ x / 2 ^ n := by
    rw [le_div_iff₀ (by positivity), ← pow_add]
    exact le_trans (by exact_mod_cast hlog) hbits
  have hlt :
      (2 : ℚ) ^ 52 < (ExtendedMantissa.ofMantissaAndAccuracy mantissa a >>> n).mantissa + 1 :=
    hge.trans_lt (hx.shiftRight n).mantissa_le.2
  exact Nat.lt_succ_iff.mp (by exact_mod_cast hlt)

end

/-- Rounding a value leads to the mantissa and the exponent to whose interval it belongs, if the
mantissa to be rounded has enough digits. -/
theorem exists_roundWithAccuracy (s : Sign) {mantissa : Nat} {exponent : Int} {a : Accuracy} {x : ℚ}
    (hx : StandsFor (ExtendedMantissa.ofMantissaAndAccuracy mantissa a) x)
    (henough : 52 ≤ mantissa.log2 ∨ exponent ≤ minExponent) :
    ∃ m e, Float.Model.UnpackedFloat.roundWithAccuracy Format.binary64 s mantissa exponent a =
        unpacked s m e ∧ IsRounded m e ∧
      (Interval.around m e).Contains (e - 2) (x * 2 ^ exponent) := by
  obtain ⟨n, hn, hshift⟩ := exists_shiftToTargetExponent a henough
  have hvalue : x * 2 ^ exponent = x / 2 ^ n * 2 ^ (exponent + n) := by
    rw [zpow_add₀ (by norm_num), zpow_natCast]
    field_simp
  have hceil := hx.shiftRight_mantissa_lt (n := n) (by omega)
  have hfloor : minExponent < exponent + n →
      minMantissa ≤ (ExtendedMantissa.ofMantissaAndAccuracy mantissa a >>> n).mantissa := by
    intro hnormal
    refine hx.le_shiftRight_mantissa ?_ (by omega)
    rintro rfl
    rw [Nat.log2_zero] at hn henough
    omega
  have hu := hx.shiftRight n
  have hround := hu.roundedMantissa
  have hle := roundedMantissa_le (ExtendedMantissa.ofMantissaAndAccuracy mantissa a >>> n)
  have hu' := hu.mantissa_le.1
  have hmin : minExponent ≤ exponent + n := hn ▸ le_max_right _ _
  rw [hvalue, Float.Model.UnpackedFloat.roundWithAccuracy, hshift]
  dsimp only
  -- what is left is about the shifted mantissa `m`, the rounded one `r` and the value `u` between
  generalize ExtendedMantissa.ofMantissaAndAccuracy mantissa a >>> n = first at *
  generalize first.roundedMantissa = r at *
  generalize first.mantissa = m at *
  generalize x / 2 ^ n = u at *
  generalize exponent + n = target at *
  obtain hlt | rfl : r < 2 * minMantissa ∨ r = 2 * minMantissa := by omega
  · refine ⟨r, target, ?_, ⟨hlt, hmin, fun h => (hfloor h).trans hle.1⟩, ?_⟩
    · rw [shiftToTargetExponent_eq_self hlt hmin]
      rfl
    · -- from the least mantissa of a binade the lower neighbour is nearer, but it is truncated to
      have hlow : r = minMantissa ∧ minExponent < target → 4 * (r : ℚ) - 1 ≤ 4 * u := by
        rintro ⟨hr, hnormal⟩
        have hm : (r : ℚ) ≤ m := by exact_mod_cast hr ▸ hfloor hnormal
        linarith
      exact Interval.contains_of_rounded (m.cast_nonneg.trans hu') hround.1 hround.2 hlow
  · refine ⟨minMantissa, target + 1, ?_, ⟨by decide, by omega, fun _ => le_rfl⟩,
      Interval.contains_of_carry hround.1⟩
    rw [shiftToTargetExponent_carry hmin]
    rfl

/-- A value that belongs to the interval of a double is rounded to this double. -/
theorem roundWithAccuracy_eq {s : Sign} {mantissa : Nat} {exponent : Int} {a : Accuracy} {x : ℚ}
    (hx : StandsFor (ExtendedMantissa.ofMantissaAndAccuracy mantissa a) x)
    (henough : 52 ≤ mantissa.log2 ∨ exponent ≤ minExponent) {m : Nat} {e : Int}
    (h : IsCanonical m e) (hv : (Interval.around m e).Contains (e - 2) (x * 2 ^ exponent)) :
    Float.Model.UnpackedFloat.roundWithAccuracy Format.binary64 s mantissa exponent a =
      unpacked s m e := by
  obtain ⟨m', e', heq, h', hv'⟩ := exists_roundWithAccuracy s hx henough
  obtain ⟨rfl, rfl⟩ := eq_of_contains h' h.isRounded hv' hv
  exact heq

/-! ### Products and quotients -/

/-- A natural number stands for itself, with nothing left over. -/
theorem standsFor_exact (mantissa : Nat) :
    StandsFor (ExtendedMantissa.ofMantissaAndAccuracy mantissa .exact) mantissa :=
  ⟨0, by simp [ExtendedMantissa.ofMantissaAndAccuracy], le_rfl, by norm_num, by
    simp [ExtendedMantissa.ofMantissaAndAccuracy]⟩

/-- The bits of a quotient say how much of it is left over. -/
theorem standsFor_quotient (n : Nat) {k : Nat} (hk : k ≠ 0) :
    StandsFor (ExtendedMantissa.ofMantissaAndAccuracy (n / k)
      (Float.Model.UnpackedFloat.accuracyOfFraction (n % k) k)) (n / k) := by
  have hpos : (0 : ℚ) < k := by positivity
  have hquotient : (n : ℚ) / k = (n / k : Nat) + ((n % k : Nat) : ℚ) / k := by
    conv_lhs => rw [← Nat.div_add_mod n k]
    push_cast
    field_simp
  have hrest : n % k < k := Nat.mod_lt n (Nat.pos_of_ne_zero hk)
  rw [hquotient]
  generalize n % k = r at *
  unfold Float.Model.UnpackedFloat.accuracyOfFraction
  split
  · subst r
    simpa using standsFor_exact (n / k)
  rename_i hr
  have hrpos : (0 : ℚ) < r / k := by positivity
  have hr1 : (r : ℚ) / k < 1 := by
    rw [div_lt_one hpos]
    exact_mod_cast hrest
  -- The rest is compared with half the divisor, and each outcome sets the bits of its own.
  rcases lt_trichotomy (2 * r) k with h | h | h
  · rw [Nat.compare_eq_lt.mpr h]
    have hhalf : (r : ℚ) / k < 1 / 2 := by
      rw [div_lt_div_iff₀ hpos (by norm_num)]
      have : ((2 * r : Nat) : ℚ) < k := by exact_mod_cast h
      push_cast at this
      linarith
    exact ⟨r / k, by simp [ExtendedMantissa.ofMantissaAndAccuracy], hrpos.le, hhalf, by
      simpa [ExtendedMantissa.ofMantissaAndAccuracy] using ⟨hr, hk⟩⟩
  · rw [Nat.compare_eq_eq.mpr h]
    have hhalf : (r : ℚ) / k = 1 / 2 := by
      rw [div_eq_div_iff hpos.ne' (by norm_num)]
      have : ((2 * r : Nat) : ℚ) = k := by exact_mod_cast h
      push_cast at this
      linarith
    refine ⟨0, by simp [ExtendedMantissa.ofMantissaAndAccuracy, hhalf], le_rfl, by norm_num, by
      simp [ExtendedMantissa.ofMantissaAndAccuracy]⟩
  · rw [Nat.compare_eq_gt.mpr h]
    have hhalf : 1 / 2 < (r : ℚ) / k := by
      rw [div_lt_div_iff₀ (by norm_num) hpos]
      have : (k : ℚ) < (2 * r : Nat) := by exact_mod_cast h
      push_cast at this
      linarith
    refine ⟨r / k - 1 / 2, by simp [ExtendedMantissa.ofMantissaAndAccuracy], by linarith,
      by linarith, ?_⟩
    simp [ExtendedMantissa.ofMantissaAndAccuracy]
    linarith


/-- A quotient is taken to enough digits. -/
theorem exists_divCore {m₁ m₂ : Nat} (h₁ : m₁ ≠ 0) (h₂ : m₂ ≠ 0) (e₁ e₂ : Int) :
    ∃ q t a x, Float.Model.UnpackedFloat.divCore Format.binary64 m₁ e₁ m₂ e₂ = (q, t, a) ∧
      StandsFor (ExtendedMantissa.ofMantissaAndAccuracy q a) x ∧
      (52 ≤ q.log2 ∨ t ≤ minExponent) ∧ x * 2 ^ t = m₁ * 2 ^ e₁ / (m₂ * 2 ^ e₂) := by
  have htarget : Format.targetExponent Format.binary64
      (Float.Model.totalExponent m₁ e₁ - Float.Model.totalExponent m₂ e₂) =
        max (m₁.log2 + e₁ - (m₂.log2 + e₂) - 53) minExponent := by
    simp only [Format.targetExponent, Float.Model.totalExponent, mantissaBits_eq,
      Format.minExponent, minExponent]
    norm_num
    omega
  set t := min (e₁ - e₂) (max (m₁.log2 + e₁ - (m₂.log2 + e₂) - 53) minExponent) with ht
  obtain ⟨n, hn⟩ : ∃ n : Nat, e₁ - e₂ = t + n := ⟨(e₁ - e₂ - t).toNat, by omega⟩
  have hshift : (e₁ - e₂ - t).toNat = n := by omega
  refine ⟨m₁ <<< n / m₂, t, Float.Model.UnpackedFloat.accuracyOfFraction (m₁ <<< n % m₂) m₂,
    (m₁ <<< n : Nat) / m₂, ?_, standsFor_quotient _ h₂, ?_, ?_⟩
  · simp only [Float.Model.UnpackedFloat.divCore, htarget, ← ht, hshift]
  · obtain hlow | hnormal := le_or_gt t minExponent
    · exact .inr hlow
    · -- the dividend has 53 digits more than the divisor
      refine .inl ?_
      have hdigits : 53 + m₂.log2 ≤ m₁.log2 + n := by omega
      have hle : 2 ^ 52 * m₂ ≤ m₁ <<< n := by
        calc 2 ^ 52 * m₂ ≤ 2 ^ 52 * 2 ^ (m₂.log2 + 1) :=
              Nat.mul_le_mul_left _ Nat.lt_log2_self.le
          _ = 2 ^ (53 + m₂.log2) := by rw [← Nat.pow_add]; congr 1; omega
          _ ≤ 2 ^ (m₁.log2 + n) := Nat.pow_le_pow_right (by norm_num) hdigits
          _ = 2 ^ m₁.log2 * 2 ^ n := Nat.pow_add ..
          _ ≤ m₁ * 2 ^ n := Nat.mul_le_mul_right _ (Nat.log2_self_le h₁)
          _ = m₁ <<< n := (Nat.shiftLeft_eq ..).symm
      have hquotient : 2 ^ 52 ≤ m₁ <<< n / m₂ :=
        (Nat.le_div_iff_mul_le (Nat.pos_of_ne_zero h₂)).mpr hle
      exact (Nat.le_log2 (by omega)).mpr hquotient
  · have hpow : (2 : ℚ) ^ e₁ / 2 ^ e₂ = 2 ^ t * 2 ^ n := by
      rw [← zpow_sub₀ (by norm_num), hn, zpow_add₀ (by norm_num), zpow_natCast]
    rw [mul_div_mul_comm, hpow, Nat.shiftLeft_eq]
    push_cast
    ring


section Arithmetic

variable {m m₁ m₂ : Nat} {e e₁ e₂ : Int}

/-- A product is the double to whose interval it belongs. -/
theorem mul_eq (h₁ : m₁ ≠ 0) (h₂ : m₂ ≠ 0) (henough : 52 ≤ (m₁ * m₂).log2) (h : IsCanonical m e)
    (hv : (Interval.around m e).Contains (e - 2) (m₁ * 2 ^ e₁ * (m₂ * 2 ^ e₂))) :
    Float.Model.UnpackedFloat.mul Format.binary64 (unpacked .positive m₁ e₁)
      (unpacked .positive m₂ e₂) = unpacked .positive m e := by
  have hvalue : (m₁ * 2 ^ e₁ * (m₂ * 2 ^ e₂) : ℚ) = (m₁ * m₂ : Nat) * 2 ^ (e₁ + e₂) := by
    rw [zpow_add₀ (by norm_num)]
    push_cast
    ring
  rw [hvalue] at hv
  rw [unpacked, dif_neg h₁, unpacked, dif_neg h₂]
  exact roundWithAccuracy_eq (standsFor_exact _) (.inl henough) h hv

/-- Finite numbers are divided with a remainder, and the quotient is rounded. -/
theorem div_unpacked (s t : Sign) (h₁ : m₁ ≠ 0) (h₂ : m₂ ≠ 0) {q : Nat} {k : Int} {a : Accuracy}
    (hcore : Float.Model.UnpackedFloat.divCore Format.binary64 m₁ e₁ m₂ e₂ = (q, k, a)) :
    Float.Model.UnpackedFloat.div Format.binary64 (unpacked s m₁ e₁) (unpacked t m₂ e₂) =
      Float.Model.UnpackedFloat.roundWithAccuracy Format.binary64 (s / t) q k a := by
  rw [unpacked_of_ne_zero s h₁, unpacked_of_ne_zero t h₂]
  change (match Float.Model.UnpackedFloat.divCore Format.binary64 m₁ e₁ m₂ e₂ with
    | (q, k, a) => Float.Model.UnpackedFloat.roundWithAccuracy Format.binary64 (s / t) q k a) = _
  rw [hcore]

/-- A quotient is the double to whose interval it belongs. -/
theorem div_eq (h₁ : m₁ ≠ 0) (h₂ : m₂ ≠ 0) (h : IsCanonical m e)
    (hv : (Interval.around m e).Contains (e - 2) (m₁ * 2 ^ e₁ / (m₂ * 2 ^ e₂))) :
    Float.Model.UnpackedFloat.div Format.binary64 (unpacked .positive m₁ e₁)
      (unpacked .positive m₂ e₂) = unpacked .positive m e := by
  obtain ⟨q, t, a, x, hcore, hx, henough, hvalue⟩ := exists_divCore h₁ h₂ e₁ e₂
  rw [← hvalue] at hv
  rw [div_unpacked _ _ h₁ h₂ hcore]
  exact roundWithAccuracy_eq hx henough h hv

end Arithmetic

/-- A decimal is the double to whose interval it belongs, unless it is written in an extreme way. -/
theorem ofScientific_eq {d : Nat} {k : Int} (hd : d ≠ 0) (hhigh : k ≤ 2048)
    (hlow : -(2048 + d.log2 : Int) ≤ k) {m : Nat} {e : Int} (h : IsCanonical m e)
    (hv : (Interval.around m e).Contains (e - 2) (Numeral.scaled d k)) :
    Float.Model.UnpackedFloat.ofScientific Format.binary64 d k = unpacked .positive m e := by
  delta Float.Model.UnpackedFloat.ofScientific
  rw [dif_neg hd, if_neg (by simpa using hhigh), if_neg (by simpa using hlow)]
  have hten : ∀ n : Nat, 10 ^ n ≠ 0 := fun n => by positivity
  by_cases hk : 0 ≤ k
  · rw [if_pos hk]
    -- the digits are shifted by the width of a mantissa, so that the product is never too short
    have hshift : d <<< 53 = d * 2 ^ 53 := Nat.shiftLeft_eq ..
    have hne : d <<< 53 ≠ 0 := by
      rw [hshift]
      positivity
    have hvalue : Numeral.scaled d k =
        (d <<< 53 : Nat) * 2 ^ (-53 : Int) * ((10 ^ k.toNat : Nat) * 2 ^ (0 : Int)) := by
      obtain ⟨n, rfl⟩ := Int.eq_ofNat_of_zero_le hk
      rw [hshift, Numeral.scaled]
      push_cast
      norm_num
      ring
    rw [hvalue] at hv
    have henough : 52 ≤ (d <<< 53 * 10 ^ k.toNat).log2 := by
      refine (Nat.le_log2 (Nat.mul_ne_zero hne (hten _))).mpr ?_
      calc 2 ^ 52 ≤ 1 * 2 ^ 53 * 1 := by norm_num
        _ ≤ d * 2 ^ 53 * 10 ^ k.toNat :=
          Nat.mul_le_mul (Nat.mul_le_mul_right _ (Nat.pos_of_ne_zero hd))
            (Nat.pos_of_ne_zero (hten _))
        _ = d <<< 53 * 10 ^ k.toNat := by rw [hshift]
    have heq := mul_eq hne (hten k.toNat) henough h hv
    rwa [unpacked, dif_neg hne, unpacked, dif_neg (hten _)] at heq
  · rw [if_neg hk]
    have hvalue : Numeral.scaled d k =
        (d * 2 ^ (0 : Int) / ((10 ^ (-k).toNat : Nat) * 2 ^ (0 : Int)) : ℚ) := by
      obtain ⟨n, hn⟩ : ∃ n : Nat, k = -n := ⟨(-k).toNat, by omega⟩
      subst hn
      rw [Numeral.scaled, zpow_neg, zpow_natCast]
      push_cast
      norm_num
      rfl
    rw [hvalue] at hv
    have heq := div_eq hd (hten (-k).toNat) h hv
    rwa [unpacked, dif_neg hd, unpacked, dif_neg (hten _)] at heq

end Binary64

end TransitQuery
