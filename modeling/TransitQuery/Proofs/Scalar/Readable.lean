import TransitQuery.Proofs.Decimal.Packing
import TransitQuery.Proofs.Scalar.Plain

/-!
# Scalars that read back

A type of scalars is *readable* if every scalar is read back from its text among words. Doubles
are: the shortest decimal of a double belongs to the interval of values that round to it, and a
decimal is read as the double to whose interval it belongs (`Double.parts_ofNumeral`), on the way
through the table of exact powers of ten as on the long one.

A decimal is read in one of two ways. If its digits and its power of ten are doubles themselves,
one product or quotient of the two is taken, which rounds once (`Double.IsWhole.parts_mul`,
`Double.IsWhole.parts_div`). Otherwise it is scaled with integers of any length and rounded at the
end (`Double.parts_ofScientific`). Both come to the double in whose interval the value is, and
there is only one.

The table of powers of ten is checked entry by entry (`Double.isWhole_power`): an entry is a double
whose mantissa has all its digits, and whose value is the power.
-/

namespace TransitQuery

open Float.Model (Format)
open Binary64 (IsCanonical Interval minMantissa minExponent toSign unpacked)

/-- A type of scalars that are read back from their text among words. -/
class ReadableScalar (R : Type) [Scalar R] : Prop where
  ofText?_chars : ∀ x : R, (Numeral.ofText? (Scalar.chars x)).map Scalar.ofNumeral = some x

namespace Double

/-! ### Arithmetic on the parts -/

/-- A finite double is unpacked to its parts. -/
theorem unpack_eq {x : Float} {negative : Bool} {m : Nat} {e : Int}
    (h : parts x = .finite negative m e) : x.toModel.unpack = unpacked (toSign negative) m e :=
  Binary64.unpack_eq h

/-- What is packed from canonical parts has these parts. -/
theorem parts_ofModel_pack {m : Nat} {e : Int} (h : IsCanonical m e) (negative : Bool) :
    parts (.ofModel (.pack (unpacked (toSign negative) m e))) = .finite negative m e :=
  Binary64.ofBits_pack h negative

theorem parts_neg {x : Float} {negative : Bool} {m : Nat} {e : Int}
    (h : parts x = .finite negative m e) : parts (-x) = .finite (!negative) m e := by
  have hneg : (unpacked (toSign negative) m e).neg = unpacked (toSign !negative) m e := by
    rw [Binary64.neg_unpacked]
    cases negative <;> rfl
  have hx : -x = .ofModel (.pack x.toModel.unpack.neg) := rfl
  rw [hx, unpack_eq h, hneg]
  exact parts_ofModel_pack (Binary64.ofBits_isCanonical h) _

/-- The double is a natural number, and its mantissa has all digits. -/
def IsWhole (x : Float) (n : Nat) : Prop :=
  ∃ m e, parts x = .finite false m e ∧ minMantissa ≤ m ∧ (m * 2 ^ e : ℚ) = n

variable {x y : Float} {a b m : Nat} {e : Int}

/-- A product is the double in whose interval it lies. -/
private theorem IsWhole.parts_mul (hx : IsWhole x a) (hy : IsWhole y b) (h : IsCanonical m e)
    (hv : (Interval.around m e).Contains (e - 2) (a * b)) :
    parts (x * y) = .finite false m e := by
  obtain ⟨m₁, e₁, hx, h₁, ha⟩ := hx
  obtain ⟨m₂, e₂, hy, h₂, hb⟩ := hy
  have hmul : x * y = .ofModel (.pack (.mul Format.binary64 x.toModel.unpack y.toModel.unpack)) :=
    rfl
  have hpos : 0 < minMantissa := by decide
  have henough : 52 ≤ (m₁ * m₂).log2 := by
    have hle : minMantissa * minMantissa ≤ m₁ * m₂ := Nat.mul_le_mul h₁ h₂
    have hmin : minMantissa * minMantissa = 2 ^ 104 := by decide
    exact (Nat.le_log2 (by omega)).mpr (by omega)
  rw [← ha, ← hb] at hv
  have heq := Binary64.mul_eq (by omega) (by omega) henough h hv
  rw [hmul, unpack_eq hx, unpack_eq hy]
  simp only [toSign, Bool.false_eq_true, if_false]
  rw [heq]
  exact parts_ofModel_pack h false

private theorem IsWhole.parts_div (hx : IsWhole x a) (hy : IsWhole y b) (h : IsCanonical m e)
    (hv : (Interval.around m e).Contains (e - 2) (a / b)) :
    parts (x / y) = .finite false m e := by
  obtain ⟨m₁, e₁, hx, h₁, ha⟩ := hx
  obtain ⟨m₂, e₂, hy, h₂, hb⟩ := hy
  have hdiv : x / y = .ofModel (.pack (.div Format.binary64 x.toModel.unpack y.toModel.unpack)) :=
    rfl
  have hpos : 0 < minMantissa := by decide
  rw [← ha, ← hb] at hv
  have heq := Binary64.div_eq (by omega) (by omega) h hv
  rw [hdiv, unpack_eq hx, unpack_eq hy]
  simp only [toSign, Bool.false_eq_true, if_false]
  rw [heq]
  exact parts_ofModel_pack h false

/-- A natural number with at most 53 binary digits is a double: shifted to the left until it has all
of them. -/
theorem exists_isCanonical {n : Nat} (hpos : n ≠ 0) (hlt : n < 2 ^ 53) :
    ∃ k : Nat, n.log2 + k = 52 ∧ IsCanonical (n <<< k) (-(k : Int)) ∧ minMantissa ≤ n <<< k ∧
      ((n <<< k : Nat) * 2 ^ (-(k : Int)) : ℚ) = n := by
  have hlog : n.log2 < 53 := (Nat.log2_lt hpos).mpr hlt
  obtain ⟨k, hk⟩ : ∃ k : Nat, n.log2 + k = 52 := ⟨52 - n.log2, by omega⟩
  have hshift : n <<< k = n * 2 ^ k := Nat.shiftLeft_eq ..
  have hlow : minMantissa ≤ n <<< k := by
    rw [Binary64.minMantissa_eq, hshift, ← hk, Nat.pow_add]
    exact Nat.mul_le_mul_right _ (Nat.log2_self_le hpos)
  have hhigh : n <<< k < 2 * minMantissa := by
    rw [Binary64.minMantissa_eq, hshift, ← hk, Nat.pow_add, ← Nat.mul_assoc, ← Nat.pow_succ']
    exact Nat.mul_lt_mul_of_pos_right Nat.lt_log2_self (by positivity)
  refine ⟨k, hk, ⟨hhigh, by rw [minExponent]; omega, by omega, fun _ => hlow⟩, hlow, ?_⟩
  rw [hshift, zpow_neg, zpow_natCast]
  push_cast
  field_simp

/-- A natural number with at most 53 binary digits is converted as it is. -/
private theorem isWhole_toFloat {n : Nat} (hpos : n ≠ 0) (hlt : n < 2 ^ 53) :
    IsWhole n.toUInt64.toFloat n := by
  have hfloat : n.toUInt64.toFloat =
      .ofModel (.pack (.normalize Format.binary64 n.toUInt64.toNat 0 .positive)) := rfl
  have hn : n.toUInt64.toNat = n := by
    have : n.toUInt64.toNat = n % 2 ^ 64 := rfl
    omega
  have hcompare : compare (n : Int) 0 = .gt := by
    rw [Int.compare_eq_gt]
    omega
  obtain ⟨k, hk, hcanonical, hlow, hvalue⟩ := exists_isCanonical hpos hlt
  have htarget :
      Format.targetExponent Format.binary64 (Float.Model.totalExponent n 0) = -(k : Int) := by
    rw [Binary64.targetExponent_eq, minExponent]
    omega
  -- A number of at most 53 digits is shifted until it has all of them, and nothing is left to
  -- round.
  have hround : Float.Model.UnpackedFloat.normalize Format.binary64 n 0 .positive =
      unpacked .positive (n <<< k) (-(k : Int)) := by
    have hamount : (0 - -(k : Int)).toNat = k := by omega
    have hleft : (0 : Int) - k = -(k : Int) := by omega
    simp only [Float.Model.UnpackedFloat.normalize, hcompare, Float.Model.UnpackedFloat.round,
      Int.toNat_natCast, htarget, Float.Model.UnpackedFloat.decreaseExponent, hamount, hleft]
    refine Binary64.roundWithAccuracy_eq (Binary64.standsFor_exact _) ?_ hcanonical ?_
    · have hmin : 0 < minMantissa := by decide
      exact .inl ((Nat.le_log2 (by omega)).mpr (Binary64.minMantissa_eq ▸ hlow))
    · exact Interval.contains_self _ _
  refine ⟨n <<< k, -(k : Int), ?_, hlow, hvalue⟩
  rw [hfloat, hn, hround]
  exact parts_ofModel_pack hcanonical false

/-- Whether a double with a full mantissa is a power of ten. -/
def isPowerOfTen (k : Nat) : Binary64 → Bool
  | .finite false m e =>
    minMantissa ≤ m && m * (Binary64.factors e k).1 = (Binary64.factors e k).2
  | _ => false

private theorem isWhole_of_isPowerOfTen {k : Nat} (h : isPowerOfTen k (parts x) = true) :
    IsWhole x (10 ^ k) := by
  unfold isPowerOfTen at h
  split at h
  · rename_i m e hx
    simp only [Bool.and_eq_true, decide_eq_true_eq] at h
    obtain ⟨hfull, hvalue⟩ := h
    obtain ⟨s, hs, ha, hb⟩ := Binary64.exists_scale_factors e k
    refine ⟨m, e, hx, hfull, mul_right_cancel₀ hs.ne' ?_⟩
    calc (m : ℚ) * 2 ^ e * s = (m * (Binary64.factors e k).1 : Nat) := by
          push_cast
          rw [ha, mul_assoc]
      _ = ((10 ^ k : Nat) : ℚ) * s := by
          rw [hvalue, hb, zpow_natCast]
          push_cast
          rfl
  · cases h

/-- The powers of ten that are doubles. -/
theorem isWhole_power {k : Nat} (hk : k < Float.exactlyRepresentablePowersOfTen.size) :
    IsWhole Float.exactlyRepresentablePowersOfTen[k] (10 ^ k) := by
  have htable : ∀ k, ∀ hk : k < Float.exactlyRepresentablePowersOfTen.size,
      isPowerOfTen k (parts Float.exactlyRepresentablePowersOfTen[k]) = true := by
    decide +kernel
  exact isWhole_of_isPowerOfTen (htable k hk)

/-- A decimal is read as the double to whose interval it belongs. -/
theorem parts_ofScientific {d : Nat} {k : Int} (hd : d ≠ 0) (hhigh : k ≤ 2048)
    (hlow : -(2048 + d.log2 : Int) ≤ k) (h : IsCanonical m e)
    (hv : (Interval.around m e).Contains (e - 2) (Numeral.scaled d k)) :
    parts (Float.ofScientific d (k < 0) k.natAbs) = .finite false m e := by
  have habs :
      (if decide (k < 0) = true then Int.negOfNat k.natAbs else Int.ofNat k.natAbs) = k := by
    split
    · rename_i hneg
      rw [Int.negOfNat_eq, Int.ofNat_eq_natCast, Int.ofNat_natAbs_of_nonpos, neg_neg]
      exact (of_decide_eq_true hneg).le
    · rename_i hpos
      exact Int.natAbs_of_nonneg (not_lt.mp (by simpa using hpos))
  unfold Float.ofScientific
  split
  · rename_i hfast
    have hwhole := isWhole_toFloat hd hfast.1
    have hpower : IsWhole _ _ := isWhole_power (Nat.lt_succ_of_le hfast.2)
    rw [Numeral.scaled, ← habs] at hv
    dsimp only
    split
    · rename_i hneg
      rw [if_pos hneg, Int.negOfNat_eq, Int.ofNat_eq_natCast, zpow_neg, zpow_natCast,
        ← div_eq_mul_inv] at hv
      exact hwhole.parts_div hpower h (by exact_mod_cast hv)
    · rename_i hpos
      rw [if_neg hpos, Int.ofNat_eq_natCast, zpow_natCast] at hv
      exact hwhole.parts_mul hpower h (by exact_mod_cast hv)
  · simp only [habs]
    have heq := Binary64.ofScientific_eq hd hhigh hlow h hv
    rw [Float.Model.ofScientific, heq]
    exact parts_ofModel_pack h false

/-! ### Decimals -/

/-- A decimal in the interval of a double is read as this double. -/
theorem parts_ofDecimal {d : Nat} {k : Int} (h : IsCanonical m e) (hm : m ≠ 0)
    (hv : (Interval.around m e).Contains (e - 2) (Numeral.scaled d k)) :
    parts (ofDecimal d k) = .finite false m e := by
  have hd : d ≠ 0 := by
    rintro rfl
    exact Binary64.not_contains_zero hm (by simpa [Numeral.scaled] using hv)
  obtain ⟨hmin, hmax⟩ := Binary64.bounds_of_contains h hm hv
  obtain ⟨hle, hlt⟩ := Numeral.magnitude_le hd k
  have hlow : -324 < Numeral.magnitude d k + 1 :=
    (zpow_lt_zpow_iff_right₀ (by norm_num)).mp (hmin.trans_lt hlt)
  have hhigh : Numeral.magnitude d k ≤ 310 :=
    (zpow_le_zpow_iff_right₀ (by norm_num : (1 : ℚ) < 10)).mp (hle.trans hmax)
  have hdigits : 0 < (Numeral.digitChars d).length :=
    List.length_pos_of_ne_nil (Numeral.digitChars_ne_nil d)
  have hlength := @Numeral.length_digitChars_le d
  have hmagnitude : Numeral.magnitude d k = (Numeral.digitChars d).length - 1 + k := by
    rw [Numeral.magnitude, if_neg hd]
  simp only [ofDecimal]
  rw [if_neg (by omega), if_neg (by omega)]
  exact parts_ofScientific hd (by omega) (by omega) h hv

theorem parts_zero : parts 0 = .finite false 0 minExponent := by
  decide +kernel

/-- A numeral in the interval of a double is read as this double, with its sign. -/
theorem parts_ofNumeral {d : Nat} {k : Int} (negative : Bool) (h : IsCanonical m e)
    (hzero : m = 0 → Numeral.scaled d k = 0)
    (hv : m ≠ 0 → (Interval.around m e).Contains (e - 2) (Numeral.scaled d k)) :
    parts (ofNumeral (.finite negative d k)) = .finite negative m e := by
  have hdecimal : parts (ofDecimal d k) = .finite false m e := by
    by_cases hm : m = 0
    · have hd : d = 0 := by
        have h0 := hzero hm
        simpa [Numeral.scaled, zpow_ne_zero] using h0
      subst hm hd
      rw [h.exponent_of_zero]
      exact parts_zero
    · exact parts_ofDecimal h hm (hv hm)
  cases negative with
  | false => exact hdecimal
  | true => exact parts_neg hdecimal

/-- A double is read back from its text among words. -/
theorem ofText?_plain (x : Float) :
    (Numeral.ofText? ((parts x).shortest .away).plain).map ofNumeral = some x := by
  cases hx : parts x with
  | nan =>
    refine congrArg some (eq_of_parts_eq ?_)
    rw [hx]
    decide +kernel
  | infinite negative =>
    cases negative <;>
    · refine congrArg some (eq_of_parts_eq ?_)
      rw [hx]
      decide +kernel
  | finite negative m e =>
    have h : IsCanonical m e := Binary64.ofBits_isCanonical hx
    obtain ⟨d, k, hs, hzero, hv⟩ := Binary64.exists_shortest .away negative h
    obtain ⟨d', k', hread, hvalue⟩ := Numeral.ofText?_plain negative d k
    rw [← hvalue] at hzero hv
    rw [hs, hread]
    exact congrArg some (eq_of_parts_eq ((parts_ofNumeral negative h hzero hv).trans hx.symm))

instance readable (sin cos : Float → Float) (atan2 : Float → Float → Float) :
    @ReadableScalar Float (scalar sin cos atan2) :=
  letI := scalar sin cos atan2
  ⟨ofText?_plain⟩

end Double

instance : ReadableScalar FlatDouble :=
  Double.readable (fun angle => angle) (fun _ => (1 : Float)) (fun y _ => y)

end TransitQuery
