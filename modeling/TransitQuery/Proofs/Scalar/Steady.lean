import TransitQuery.Json.Number
import TransitQuery.Proofs.Scalar.Readable

/-!
# Scalars that stay finite

The reader of JSON numbers starts from a 64-bit integer and divides by powers of ten; where it
multiplies, it looks whether the product is finite. A type of scalars is *steady* if the steps
without such a look never leave the finite scalars. Doubles are: a quotient by something that is at
least one is not greater than the dividend, and what is not greater than a finite double is not
rounded to infinity (`Binary64.IsRounded.isCanonical`).

Rounding keeps the order, and a finite double is rounded to itself. So a value between nought and a
finite double is rounded to a finite double (`Binary64.IsRounded.isCanonical`), and one that is not
less than one to a double that is not less than one (`Binary64.IsRounded.one_le`). A power of ten
with a positive exponent is such a divisor, however it is read.

The law is about integers of 64 bits and about division by powers of ten, which is all that the
reader does without a look at the result. It says nothing about how near the result is to the
number that was written.
-/

namespace TransitQuery

open Float.Model (Format)
open Binary64 (IsCanonical IsRounded Interval toSign unpacked)

/-- A type of scalars whose finite members are not left on the way from a text. -/
class SteadyScalar (R : Type) [Scalar R] : Prop where
  isFinite_ofInt : ∀ {i : Int}, i.natAbs < UInt64.size →
    Scalar.isFinite (Scalar.ofInt i : R) = true
  isFinite_neg : ∀ {x : R}, Scalar.isFinite x = true → Scalar.isFinite (-x) = true
  isFinite_div : ∀ {x : R} {k : Int}, Scalar.isFinite x = true → 0 ≤ k →
    k ≤ Json.greatestPower → Scalar.isFinite (x / Json.powerOfTen k) = true

namespace Binary64

/-! ### Rounding keeps the order -/

section Order

variable {m m₀ : Nat} {e e₀ : Int} {v : ℚ}

/-- A value that is not greater than a double is rounded to a double. -/
theorem IsRounded.isCanonical (h : IsRounded m e)
    (hv : (Interval.around m e).Contains (e - 2) v) (h₀ : IsCanonical m₀ e₀)
    (hle : v ≤ m₀ * 2 ^ e₀) : IsCanonical m e := by
  refine ⟨h.mantissa_lt, h.minExponent_le, ?_, h.minMantissa_le⟩
  by_contra hlarge
  have he₀ := h₀.exponent_le
  have hlt := lt_of_contains h₀.isRounded h (.inl (by omega)) (Interval.contains_self m₀ e₀) hv
  exact absurd hlt (not_lt_of_ge hle)

/-- One is a double. -/
theorem isCanonical_one : IsCanonical minMantissa (-52) := by
  refine ⟨?_, ?_, ?_, ?_⟩ <;> decide

/-- A value that is one at least is rounded to a double that is one at least. -/
theorem IsRounded.one_le (h : IsRounded m e) (hv : (Interval.around m e).Contains (e - 2) v)
    (hone : 1 ≤ v) : (1 : ℚ) ≤ m * 2 ^ e := by
  have hvalue : (minMantissa : ℚ) * 2 ^ (-52 : Int) = 1 := by
    rw [minMantissa_eq]
    norm_num
  have hnot : ¬ (e < -52 ∨ e = -52 ∧ m < minMantissa) := by
    intro hearlier
    have hlt := lt_of_contains h isCanonical_one.isRounded hearlier hv (Interval.contains_self _ _)
    rw [hvalue] at hlt
    exact absurd hlt (not_lt_of_ge hone)
  have hm : minMantissa ≤ m := by
    have hmin := h.minMantissa_le
    rw [minExponent] at hmin
    omega
  calc (1 : ℚ) = minMantissa * 2 ^ (-52 : Int) := hvalue.symm
    _ ≤ m * 2 ^ e := by
        refine mul_le_mul (by exact_mod_cast hm) ?_ (by positivity) (by positivity)
        exact zpow_le_zpow_right₀ (by norm_num) (by omega)

/-- Every natural number is rounded to something. -/
theorem exists_isRounded {n : Nat} (hn : n ≠ 0) :
    ∃ m e, IsRounded m e ∧ (Interval.around m e).Contains (e - 2) n := by
  have henough : 52 ≤ (n <<< 53).log2 := by
    rw [Nat.shiftLeft_eq]
    refine (Nat.le_log2 (by positivity)).mpr ?_
    have hpos := Nat.pos_of_ne_zero hn
    omega
  obtain ⟨m, e, -, hrounded, hv⟩ := @exists_roundWithAccuracy .positive _ (-53) _ _
    (standsFor_exact (n <<< 53)) (.inl henough)
  refine ⟨m, e, hrounded, ?_⟩
  have hvalue : ((n <<< 53 : Nat) : ℚ) * 2 ^ (-53 : Int) = n := by
    rw [Nat.shiftLeft_eq]
    push_cast
    norm_num
    ring
  rwa [hvalue] at hv

end Order

end Binary64

namespace Double

variable {x y : Float}

private theorem isFinite_of_parts {negative : Bool} {m : Nat} {e : Int}
    (h : parts x = .finite negative m e) : isFinite x = true := by
  rw [isFinite, h]

/-- The negative of a finite double is finite. -/
theorem isFinite_neg (h : isFinite x = true) : isFinite (-x) = true := by
  obtain ⟨negative, m, e, hparts, -⟩ := exists_parts h
  exact isFinite_of_parts (parts_neg hparts)

/-- A finite double stays finite when it is divided by one that is at least one. -/
theorem isFinite_div (hx : isFinite x = true) {m : Nat} {e : Int}
    (hy : parts y = .finite false m e) (hone : (1 : ℚ) ≤ m * 2 ^ e) :
    isFinite (x / y) = true := by
  obtain ⟨negative, m₀, e₀, hparts, hcanonical⟩ := exists_parts hx
  have hdiv : x / y =
      .ofModel (.pack (.div Format.binary64 x.toModel.unpack y.toModel.unpack)) := rfl
  have hsign : toSign negative / .positive = toSign negative := by cases negative <;> rfl
  have hpositive : toSign false = .positive := rfl
  have hm : m ≠ 0 := by
    rintro rfl
    norm_num at hone
  -- it is enough to divide the parts, and there the quotient is not greater than the dividend
  suffices h : ∃ m' e', IsCanonical m' e' ∧ Float.Model.UnpackedFloat.div Format.binary64
      (unpacked (toSign negative) m₀ e₀) (unpacked .positive m e) =
        unpacked (toSign negative) m' e' by
    obtain ⟨m', e', hcanonical', heq⟩ := h
    rw [unpack_eq hparts, unpack_eq hy, hpositive, heq] at hdiv
    rw [hdiv]
    exact isFinite_of_parts (parts_ofModel_pack hcanonical' negative)
  by_cases hm₀ : m₀ = 0
  · subst hm₀
    refine ⟨0, e₀, hcanonical, ?_⟩
    rw [Binary64.unpacked_zero, Binary64.unpacked_of_ne_zero _ hm]
    exact congrArg Float.Model.UnpackedFloat.zero hsign
  obtain ⟨q, t, a, u, hcore, hu, henough, hvalue⟩ := Binary64.exists_divCore hm₀ hm e₀ e
  obtain ⟨m', e', heq, hrounded, hcontains⟩ :=
    Binary64.exists_roundWithAccuracy (toSign negative) hu henough
  refine ⟨m', e', hrounded.isCanonical hcontains hcanonical ?_, ?_⟩
  · rw [hvalue]
    exact div_le_self (by positivity) hone
  · rw [Binary64.div_unpacked _ _ hm₀ hm hcore, hsign]
    exact heq

/-- A natural number that is not greater than some double is read as a double, and as one that is
one at least. -/
theorem exists_parts_ofNumeral {d n : Nat} {k : Int} (hvalue : Numeral.scaled d k = n) (hn : n ≠ 0)
    {m₀ : Nat} {e₀ : Int} (h₀ : IsCanonical m₀ e₀) (hle : (n : ℚ) ≤ m₀ * 2 ^ e₀)
    (negative : Bool) :
    ∃ m e, parts (ofNumeral (.finite negative d k)) = .finite negative m e ∧
      (1 : ℚ) ≤ m * 2 ^ e := by
  obtain ⟨m, e, hrounded, hv⟩ := Binary64.exists_isRounded hn
  have hone : (1 : ℚ) ≤ m * 2 ^ e :=
    hrounded.one_le hv (by exact_mod_cast Nat.one_le_iff_ne_zero.mpr hn)
  refine ⟨m, e, parts_ofNumeral negative (hrounded.isCanonical hv h₀ hle) ?_ ?_, hone⟩
  · rintro rfl
    norm_num at hone
  · intro _
    rwa [hvalue]

/-- The parts of an integer of 64 bits. -/
theorem exists_parts_ofInt {i : Int} (hi : i.natAbs < UInt64.size) :
    ∃ m e, parts (ofInt i) = .finite (decide (i < 0)) m e := by
  by_cases hzero : i.natAbs = 0
  · rw [Int.natAbs_eq_zero] at hzero
    subst hzero
    exact ⟨0, Binary64.minExponent, by decide +kernel⟩
  have hle : ((i.natAbs : Nat) : ℚ) ≤ Binary64.minMantissa * 2 ^ (12 : Int) := by
    have hlt : i.natAbs < 2 ^ 64 := hi
    have hcast : ((i.natAbs : Nat) : ℚ) ≤ (2 ^ 64 : Nat) := by exact_mod_cast hlt.le
    rw [Binary64.minMantissa_eq]
    norm_num at hcast ⊢
    exact hcast
  have hcanonical : IsCanonical Binary64.minMantissa 12 := by
    refine ⟨?_, ?_, ?_, ?_⟩ <;> decide
  obtain ⟨m, e, hparts, -⟩ := exists_parts_ofNumeral (d := i.natAbs) (k := 0)
    (by rw [Numeral.scaled, zpow_zero, mul_one]) hzero hcanonical hle (decide (i < 0))
  exact ⟨m, e, hparts⟩

/-- Integers of 64 bits are finite as doubles. -/
theorem isFinite_ofInt {i : Int} (hi : i.natAbs < UInt64.size) : isFinite (ofInt i) = true := by
  obtain ⟨m, e, hparts⟩ := exists_parts_ofInt hi
  exact isFinite_of_parts hparts

/-- A finite double stays finite when it is divided by a power of ten. -/
theorem isFinite_div_powerOfTen (hx : isFinite x = true) {k : Int} (hk : 0 ≤ k)
    (hle : k ≤ Json.greatestPower) : isFinite (x / ofNumeral (.finite false 1 k)) = true := by
  obtain ⟨n, rfl⟩ := Int.eq_ofNat_of_zero_le hk
  have hcanonical : IsCanonical (2 * Binary64.minMantissa - 1) 971 := by
    refine ⟨?_, ?_, ?_, ?_⟩ <;> decide
  have hbound : ((10 ^ n : Nat) : ℚ) ≤
      (2 * Binary64.minMantissa - 1 : Nat) * 2 ^ (971 : Int) := by
    have hn : n ≤ Json.greatestPower := Int.ofNat_le.mp hle
    have hpow : 10 ^ n ≤ 10 ^ Json.greatestPower := Nat.pow_le_pow_right (by decide) hn
    have hmost : 10 ^ Json.greatestPower ≤ (2 * Binary64.minMantissa - 1) * 2 ^ 971 := by
      decide +kernel
    have hzpow : (2 : ℚ) ^ (971 : Int) = 2 ^ 971 := zpow_natCast 2 971
    rw [hzpow]
    exact_mod_cast hpow.trans hmost
  obtain ⟨m, e, hparts, hone⟩ := exists_parts_ofNumeral (d := 1) (k := n)
    (by simp [Numeral.scaled]) (by positivity) hcanonical hbound false
  exact isFinite_div hx hparts hone

instance steady (sin cos : Float → Float) (atan2 : Float → Float → Float) :
    @SteadyScalar Float (scalar sin cos atan2) :=
  letI := scalar sin cos atan2
  { isFinite_ofInt := isFinite_ofInt
    isFinite_neg := isFinite_neg
    isFinite_div := fun hx hk hle => isFinite_div_powerOfTen hx hk hle }

end Double

instance : SteadyScalar FlatDouble :=
  Double.steady (fun angle => angle) (fun _ => (1 : Float)) (fun y _ => y)

end TransitQuery
