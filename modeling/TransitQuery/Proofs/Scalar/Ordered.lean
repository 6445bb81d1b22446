import TransitQuery.Proofs.Decimal.Order
import TransitQuery.Proofs.Scalar.Steady

/-!
# Scalars with an order

Rounded arithmetic is no ordered field. A sum may be infinite, a quotient may be no number, and
what is no number compares with nothing. A type of scalars is *ordered* if sums, differences and
quotients follow the order as far as they are numbers; a scalar is one just if it is not greater
than itself. Doubles are ordered, because rounding keeps the order of the places
(`Binary64.Rounds.mono`).

* `Double.place`: the number at which a double stands. An infinite one stands at the limit, beyond
  all finite ones, and what is no number stands nowhere. The order of doubles is the order of their
  places.
* `Double.Shifted`: what adding a finite double does to a place. It is monotone
  (`Double.Shifted.mono`), hence sums are.
* Differences are sums with the negative, and quotients of what is not negative are rounded like
  the exact quotient.

Each operation is known as the rounded exact one, from the modules on decimals, and the cases that
are not rounded, zeros and infinite doubles, are settled by their places as well.
-/

namespace TransitQuery

open Float.Model (Format UnpackedFloat)
open Float.Model.UnpackedFloat (Sign)
open Binary64 (IsCanonical IsDouble Rounds RoundsTo clamp limit signed unpacked)

/-- A type of scalars whose arithmetic follows the order. -/
class OrderedScalar (R : Type) [Scalar R] : Prop where
  le_trans : ∀ {x y z : R}, x ≤ y → y ≤ z → x ≤ z
  /-- What is compared is a number. -/
  le_self_left : ∀ {x y : R}, x ≤ y → x ≤ x
  le_self_right : ∀ {x y : R}, x ≤ y → y ≤ y
  zero_le : ∀ {x : R}, Scalar.isFinite x = true → ¬x < Scalar.zero → Scalar.zero ≤ x
  not_neg_lt : ∀ {x : R}, x < Scalar.zero → ¬-x < Scalar.zero
  not_mul_lt : ∀ {x y : R}, ¬x < Scalar.zero → ¬y < Scalar.zero → ¬x * y < Scalar.zero
  not_ofInt_lt : ∀ {i : Int}, 0 ≤ i → i.natAbs < UInt64.size →
    ¬(Scalar.ofInt i : R) < Scalar.zero
  add_le_add_left : ∀ {a x y : R}, Scalar.isFinite a = true → x ≤ y → a + x ≤ a + y
  sub_le_sub_left : ∀ {a x y : R}, Scalar.isFinite a = true → x ≤ y → a - y ≤ a - x
  /-- Only numbers have sums and differences that are numbers. -/
  le_self_of_add : ∀ {a x : R}, a + x ≤ a + x → x ≤ x
  le_self_of_sub : ∀ {a x : R}, a - x ≤ a - x → x ≤ x
  div_le_div_right : ∀ {x y c : R}, Scalar.isFinite x = true → ¬x < Scalar.zero →
    Scalar.isFinite y = true → x ≤ y → ¬c < Scalar.zero → x / c ≤ x / c → x / c ≤ y / c

theorem Scalar.not_magnitude_lt {R : Type} [Scalar R] [OrderedScalar R] (x : R) :
    ¬Scalar.magnitude x < Scalar.zero := by
  unfold Scalar.magnitude
  split
  · rename_i h
    exact OrderedScalar.not_neg_lt h
  · assumption

namespace Double

variable {a c x y : Float} {p q : ℚ}

/-- Where a double stands, if it is a number. -/
def place (x : Float) : Option ℚ :=
  Binary64.place x.toModel.unpack

theorem le_iff_place : x ≤ y ↔ ∃ p q, place x = some p ∧ place y = some q ∧ p ≤ q :=
  (decide_eq_true_iff (p := x.toModel ≤ y.toModel)).trans
    (Binary64.le_iff_place (Binary64.isDouble_unpack _) (Binary64.isDouble_unpack _))

theorem lt_iff_place : x < y ↔ ∃ p q, place x = some p ∧ place y = some q ∧ p < q :=
  (decide_eq_true_iff (p := x.toModel < y.toModel)).trans
    (Binary64.lt_iff_place (Binary64.isDouble_unpack _) (Binary64.isDouble_unpack _))

/-- Doubles are equal if they stand in one place, as the two zeros do. -/
theorem beq_iff_place : (x == y) = true ↔ ∃ p, place x = some p ∧ place y = some p :=
  Binary64.beq_iff_place (Binary64.isDouble_unpack _) (Binary64.isDouble_unpack _)

private theorem le_self_iff : x ≤ x ↔ ∃ p, place x = some p := by
  rw [le_iff_place]
  exact ⟨fun ⟨p, _, hp, _⟩ => ⟨p, hp⟩, fun ⟨p, hp⟩ => ⟨p, p, hp, hp, le_rfl⟩⟩

private theorem place_zero : place (ofInt 0) = some 0 := by
  have h : (ofInt 0).toModel.unpack = unpacked .positive 0 Binary64.minExponent :=
    unpack_eq parts_zero
  rw [place, h]
  rfl

private theorem lt_zero_iff : x < ofInt 0 ↔ ∃ p, place x = some p ∧ p < 0 := by
  rw [lt_iff_place]
  constructor
  · rintro ⟨p, q, hp, hq, hlt⟩
    obtain rfl := Option.some.inj (place_zero.symm.trans hq)
    exact ⟨p, hp, hlt⟩
  · rintro ⟨p, hp, hlt⟩
    exact ⟨p, 0, hp, place_zero, hlt⟩

/-- A finite double is unpacked to a sign, a mantissa and an exponent. -/
theorem exists_unpack (h : isFinite x = true) :
    ∃ s m e, x.toModel.unpack = unpacked s m e ∧ IsCanonical m e := by
  obtain ⟨negative, m, e, hparts, hcanonical⟩ := exists_parts h
  exact ⟨_, m, e, unpack_eq hparts, hcanonical⟩

/-! ### Signs -/

private theorem unpack_neg (x : Float) : (-x).toModel.unpack = x.toModel.unpack.neg :=
  (Binary64.isDouble_unpack x.toModel).neg.unpack_pack

private theorem place_neg (x : Float) : place (-x) = (place x).map fun p => -p := by
  rw [place, unpack_neg, place]
  cases x.toModel.unpack with
  | notANumber => rfl
  | zero s => exact congrArg some neg_zero.symm
  | infinity s => exact congrArg some (Binary64.signed_neg s limit)
  | finite s m e h => exact congrArg some (Binary64.signed_neg s (m * 2 ^ e))

private theorem not_neg_lt (h : x < ofInt 0) : ¬-x < ofInt 0 := by
  obtain ⟨p, hp, hlt⟩ := lt_zero_iff.mp h
  rw [lt_zero_iff, place_neg, hp]
  rintro ⟨q, hq, hlt'⟩
  obtain rfl := Option.some.inj hq
  linarith

private theorem isNonneg_of_unpack {s : Sign} {m : Nat} {e : Int}
    (h : x.toModel.unpack = unpacked s m e) (hx : ¬x < ofInt 0) : m = 0 ∨ s = .positive := by
  by_contra hneg
  obtain ⟨hm, hs⟩ := not_or.mp hneg
  refine hx (lt_zero_iff.mpr ⟨signed s (m * 2 ^ e), by rw [place, h, Binary64.place_unpacked], ?_⟩)
  cases s with
  | negative =>
    have hpos : (0 : ℚ) < m * 2 ^ e := by positivity
    simpa [signed] using hpos
  | positive => exact absurd rfl hs

private theorem isNonneg_of_infinity {s : Sign}
    (h : x.toModel.unpack = .infinity s) (hx : ¬x < ofInt 0) : s = .positive := by
  cases s with
  | positive => rfl
  | negative =>
    refine absurd (lt_zero_iff.mpr ⟨-limit, by rw [place, h]; rfl, ?_⟩) hx
    linarith [Binary64.limit_pos]

/-- What doubles are unpacked to that are not negative. -/
inductive IsNonneg : UnpackedFloat → Prop
  | nan : IsNonneg .notANumber
  | infinity : IsNonneg (.infinity .positive)
  | rounded {s : Sign} {m : Nat} {e : Int} (h : IsCanonical m e) (hs : m = 0 ∨ s = .positive) :
    IsNonneg (unpacked s m e)

private theorem isNonneg_unpack (hx : ¬x < ofInt 0) : IsNonneg x.toModel.unpack := by
  have hinfinite := fun s hs => isNonneg_of_infinity (x := x) (s := s) hs hx
  have hfinite := fun s m e hs => isNonneg_of_unpack (x := x) (s := s) (m := m) (e := e) hs hx
  have hdouble := Binary64.isDouble_unpack x.toModel
  generalize x.toModel.unpack = a at hinfinite hfinite hdouble
  cases hdouble with
  | nan => exact .nan
  | infinity s =>
    obtain rfl := hinfinite s rfl
    exact .infinity
  | rounded s h => exact .rounded h (hfinite _ _ _ rfl)

/-- Where an operation leads if its result is rounded. -/
theorem exists_place_of_roundsTo {a : UnpackedFloat} {v : ℚ} (h : RoundsTo v a) :
    ∃ r, place (.ofModel (.pack a)) = some (clamp r) ∧ Rounds v r :=
  h.exists_place

/-- An infinite double stands at the limit. -/
theorem place_pack_infinity (s : Sign) :
    place (.ofModel (.pack (.infinity s))) = some (signed s limit) := by
  cases s <;> rfl

private theorem place_pack_zero (s : Sign) :
    place (.ofModel (.pack (.zero s))) = some 0 := by
  cases s <;> rfl

/-! ### Sums -/

/-- A sum is that of what the summands are unpacked to. -/
private theorem add_eq (x y : Float) : x + y =
    .ofModel (.pack (.add Format.binary64 x.toModel.unpack y.toModel.unpack)) := rfl

/-- What becomes of a place when a value is added to it. Infinite doubles stay where they are. -/
inductive Shifted (v : ℚ) : ℚ → ℚ → Prop
  | infinite (s : Sign) : Shifted v (signed s limit) (signed s limit)
  | finite {p r : ℚ} (hp : |p| < limit) (hr : Rounds (v + p) r) : Shifted v p (clamp r)

private theorem Shifted.bounds {v r : ℚ} (h : Shifted v p r) : -limit ≤ r ∧ r ≤ limit := by
  have hpos := Binary64.limit_pos
  cases h with
  | infinite s => cases s <;> constructor <;> simp only [signed] <;> linarith
  | finite hp hr => exact ⟨Binary64.neg_limit_le_clamp _, Binary64.clamp_le_limit _⟩

theorem Shifted.mono {v r r' : ℚ} (h : Shifted v p r) (h' : Shifted v q r') (hle : p ≤ q) :
    r ≤ r' := by
  obtain ⟨hlow, -⟩ := h'.bounds
  obtain ⟨-, hhigh⟩ := h.bounds
  cases h with
  | infinite s =>
    cases s with
    | negative => exact hlow
    | positive =>
      -- what is not less than the greatest place is the greatest place
      cases h' with
      | infinite t => exact hle
      | finite hq hr' => exact absurd ((abs_lt.mp hq).2) (not_lt.mpr hle)
  | finite hp hr =>
    cases h' with
    | infinite t =>
      cases t with
      | negative => exact absurd ((abs_lt.mp hp).1) (not_lt.mpr hle)
      | positive => exact hhigh
    | finite hq hr' => exact Binary64.clamp_mono (hr.mono hr' (by linarith))

/-- Adding a finite double shifts places. -/
theorem exists_shifted (ha : isFinite a = true) :
    ∃ v, ∀ {y q}, place y = some q → ∃ r, place (a + y) = some r ∧ Shifted v q r := by
  obtain ⟨s, m, e, hunpack, hcanonical⟩ := exists_unpack ha
  refine ⟨signed s (m * 2 ^ e), fun {y q} hq => ?_⟩
  rw [add_eq, hunpack]
  have hdouble := Binary64.isDouble_unpack y.toModel
  unfold place at hq
  generalize y.toModel.unpack = b at hq hdouble ⊢
  cases hdouble with
  | nan => cases hq
  | infinity t =>
    obtain rfl := Option.some.inj hq
    have hadd : Float.Model.UnpackedFloat.add Format.binary64 (unpacked s m e) (.infinity t) =
        .infinity t := by
      obtain heq | ⟨_, heq⟩ := Binary64.unpacked_cases s m e <;> rw [heq] <;> rfl
    rw [hadd]
    exact ⟨_, place_pack_infinity t, .infinite t⟩
  | rounded t h =>
    obtain rfl := Option.some.inj ((Binary64.place_unpacked ..).symm.trans hq)
    obtain ⟨r, hplace, hrounds⟩ := exists_place_of_roundsTo
      (Binary64.roundsTo_add s t hcanonical.isRounded h.isRounded)
    exact ⟨_, hplace, .finite (Binary64.abs_place_lt t h) hrounds⟩

theorem add_le_add_left (ha : isFinite a = true) (h : x ≤ y) : a + x ≤ a + y := by
  obtain ⟨p, q, hp, hq, hle⟩ := le_iff_place.mp h
  obtain ⟨v, hshifted⟩ := exists_shifted ha
  obtain ⟨r, hr, hshift⟩ := hshifted hp
  obtain ⟨r', hr', hshift'⟩ := hshifted hq
  exact le_iff_place.mpr ⟨r, r', hr, hr', hshift.mono hshift' hle⟩

/-- Subtracting is adding the negative. -/
theorem sub_eq_add_neg (a x : Float) : a - x = a + -x := by
  rw [add_eq, unpack_neg, ← Binary64.sub_eq_add_neg]
  rfl

theorem sub_le_sub_left (ha : isFinite a = true) (h : x ≤ y) : a - y ≤ a - x := by
  obtain ⟨p, q, hp, hq, hle⟩ := le_iff_place.mp h
  rw [sub_eq_add_neg, sub_eq_add_neg]
  refine add_le_add_left ha (le_iff_place.mpr ⟨-q, -p, ?_, ?_, neg_le_neg hle⟩)
  · rw [place_neg, hq]
    rfl
  · rw [place_neg, hp]
    rfl

/-- Sums that are numbers have summands that are. -/
theorem le_self_of_add (h : a + x ≤ a + x) : x ≤ x := by
  rw [le_self_iff] at h ⊢
  obtain ⟨p, hp⟩ := h
  cases hx : place x with
  | some q => exact ⟨q, rfl⟩
  | none =>
    have hnan : x.toModel.unpack = .notANumber := by
      unfold place at hx
      cases hcase : x.toModel.unpack <;> rw [hcase] at hx <;> first | rfl | cases hx
    rw [add_eq, hnan, Binary64.add_notANumber] at hp
    cases hp

theorem le_self_of_sub (h : a - x ≤ a - x) : x ≤ x := by
  rw [sub_eq_add_neg] at h
  obtain ⟨p, hp⟩ := le_self_iff.mp (le_self_of_add h)
  rw [place_neg] at hp
  obtain ⟨q, hq, -⟩ := Option.map_eq_some_iff.mp hp
  exact le_self_iff.mpr ⟨q, hq⟩

/-! ### Products and quotients -/

/-- A quotient is that of what its parts are unpacked to. -/
theorem div_eq (x y : Float) : x / y =
    .ofModel (.pack (.div Format.binary64 x.toModel.unpack y.toModel.unpack)) := rfl

theorem mul_eq (x y : Float) : x * y =
    .ofModel (.pack (.mul Format.binary64 x.toModel.unpack y.toModel.unpack)) := rfl

private theorem signed_of_nonneg {s : Sign} {m : Nat}
    (h : m = 0 ∨ s = .positive) (e : Int) : signed s (m * 2 ^ e : ℚ) = m * 2 ^ e := by
  obtain rfl | rfl := h
  · rw [Nat.cast_zero, zero_mul, Binary64.signed_zero]
  · rfl

/-- What a finite double that is not negative is unpacked to. -/
theorem exists_unpack_of_nonneg (hx : isFinite x = true) (hnonneg : ¬x < ofInt 0) :
    ∃ s m e, x.toModel.unpack = unpacked s m e ∧ (m = 0 ∨ s = .positive) ∧
      place x = some (m * 2 ^ e : ℚ) := by
  obtain ⟨s, m, e, hunpack, -⟩ := exists_unpack hx
  have hs := isNonneg_of_unpack hunpack hnonneg
  refine ⟨s, m, e, hunpack, hs, ?_⟩
  rw [place, hunpack, Binary64.place_unpacked, signed_of_nonneg hs]

/-- Quotients of what is not negative keep the order. -/
theorem div_le_div_right (hx : isFinite x = true) (hnonneg : ¬x < ofInt 0)
    (hy : isFinite y = true) (h : x ≤ y) (hc : ¬c < ofInt 0) (hself : x / c ≤ x / c) :
    x / c ≤ y / c := by
  obtain ⟨p, q, hp, hq, hle⟩ := le_iff_place.mp h
  obtain ⟨s, m, e, hunpack, hs, hplace⟩ := exists_unpack_of_nonneg hx hnonneg
  obtain rfl := Option.some.inj (hplace.symm.trans hp)
  have hynonneg : ¬y < ofInt 0 := by
    intro hlt
    obtain ⟨q', hq', hneg⟩ := lt_zero_iff.mp hlt
    obtain rfl := Option.some.inj (hq.symm.trans hq')
    exact absurd (le_trans (by positivity) hle) (not_le.mpr hneg)
  obtain ⟨t, m', e', hunpack', ht, hplace'⟩ := exists_unpack_of_nonneg hy hynonneg
  obtain rfl := Option.some.inj (hplace'.symm.trans hq)
  obtain ⟨r₀, hr₀⟩ := le_self_iff.mp hself
  rw [le_iff_place]
  rw [div_eq, hunpack] at hr₀ ⊢
  rw [div_eq, hunpack']
  have hnonneg' := isNonneg_unpack hc
  generalize c.toModel.unpack = b at hnonneg' hr₀ ⊢
  -- By the divisor. A quotient that is no number is ruled out by `hself`, and that of two numbers
  -- by zero is infinite on both sides.
  cases hnonneg' with
  | nan =>
    rw [Binary64.div_notANumber] at hr₀
    cases hr₀
  | infinity =>
    rw [Binary64.div_infinity, Binary64.div_infinity]
    exact ⟨0, 0, place_pack_zero _, place_pack_zero _, le_rfl⟩
  | @rounded u n k _ hu =>
    by_cases hzero : n = 0
    · subst hzero
      rw [Binary64.unpacked_zero, Binary64.div_zero] at hr₀ ⊢
      rw [Binary64.div_zero]
      by_cases hm : m = 0
      · rw [if_pos hm] at hr₀
        cases hr₀
      have hm' : m' ≠ 0 := by
        rintro rfl
        rw [Nat.cast_zero, zero_mul] at hle
        exact absurd hle (not_le.mpr (by positivity))
      rw [if_neg hm, if_neg hm', hs.resolve_left hm, ht.resolve_left hm']
      exact ⟨_, _, place_pack_infinity _, place_pack_infinity _, le_rfl⟩
    · obtain rfl := hu.resolve_left hzero
      obtain ⟨r, hr, hrounds⟩ := exists_place_of_roundsTo (Binary64.roundsTo_div s m e hzero k)
      obtain ⟨r', hr', hrounds'⟩ := exists_place_of_roundsTo (Binary64.roundsTo_div t m' e' hzero k)
      refine ⟨_, _, hr, hr', Binary64.clamp_mono (hrounds.mono hrounds' ?_)⟩
      rw [signed_of_nonneg hs, signed_of_nonneg ht]
      exact div_le_div_of_nonneg_right hle (by positivity)

/-- A product of what is not negative is not negative. -/
theorem not_mul_lt (hx : ¬x < ofInt 0) (hy : ¬y < ofInt 0) : ¬x * y < ofInt 0 := by
  rw [lt_zero_iff, mul_eq]
  rintro ⟨p, hp, hlt⟩
  have hleft := isNonneg_unpack hx
  have hright := isNonneg_unpack hy
  generalize x.toModel.unpack = a at hp hleft
  generalize y.toModel.unpack = b at hp hright
  -- an infinite product is not negative
  have hlimit : place (.ofModel (.pack (.infinity .positive))) ≠ some p := by
    rw [place_pack_infinity]
    rintro h
    obtain rfl := Option.some.inj h
    exact absurd hlt (not_lt.mpr Binary64.limit_pos.le)
  cases hleft with
  | nan =>
    rw [Binary64.notANumber_mul] at hp
    cases hp
  | infinity =>
    cases hright with
    | nan => cases hp
    | infinity => exact hlimit hp
    | rounded h hs =>
      rw [Binary64.infinity_mul] at hp
      split at hp
      · cases hp
      · rename_i hm
        obtain rfl := hs.resolve_left hm
        exact hlimit hp
  | rounded h hs =>
    cases hright with
    | nan =>
      rw [Binary64.mul_notANumber] at hp
      cases hp
    | infinity =>
      rw [Binary64.mul_infinity] at hp
      split at hp
      · cases hp
      · rename_i hm
        obtain rfl := hs.resolve_left hm
        exact hlimit hp
    | rounded h' hs' =>
      obtain ⟨r, hr, hrounds⟩ := exists_place_of_roundsTo
        (Binary64.roundsTo_mul _ _ h.isRounded h'.isRounded)
      obtain rfl := Option.some.inj (hr.symm.trans hp)
      rw [signed_of_nonneg hs, signed_of_nonneg hs'] at hrounds
      exact absurd hlt (not_lt.mpr (Binary64.clamp_nonneg (hrounds.nonneg (by positivity))))

/-- A natural number of 64 bits is not negative as a double. -/
theorem not_ofInt_lt {i : Int} (hi : 0 ≤ i) (hsize : i.natAbs < UInt64.size) :
    ¬ofInt i < ofInt 0 := by
  obtain ⟨m, e, hparts⟩ := exists_parts_ofInt hsize
  rw [decide_eq_false (not_lt.mpr hi)] at hparts
  rw [lt_zero_iff, place, unpack_eq hparts, Binary64.place_unpacked]
  rintro ⟨p, hp, hlt⟩
  obtain rfl := Option.some.inj hp
  have hnonneg : (0 : ℚ) ≤ m * 2 ^ e := by positivity
  exact absurd hlt (not_lt.mpr hnonneg)

theorem zero_le (hx : isFinite x = true) (hnonneg : ¬x < ofInt 0) : ofInt 0 ≤ x := by
  obtain ⟨s, m, e, -, -, hplace⟩ := exists_unpack_of_nonneg hx hnonneg
  exact le_iff_place.mpr ⟨0, _, place_zero, hplace, by positivity⟩

/-- The order is transitive, also with infinite doubles. -/
theorem le_trans (h : x ≤ y) (h' : y ≤ c) : x ≤ c := by
  obtain ⟨p, q, hp, hq, hle⟩ := le_iff_place.mp h
  obtain ⟨q', r, hq', hr, hle'⟩ := le_iff_place.mp h'
  obtain rfl := Option.some.inj (hq.symm.trans hq')
  exact le_iff_place.mpr ⟨p, r, hp, hr, hle.trans hle'⟩

theorem le_self_left (h : x ≤ y) : x ≤ x := by
  obtain ⟨p, -, hp, -⟩ := le_iff_place.mp h
  exact le_self_iff.mpr ⟨p, hp⟩

theorem le_self_right (h : x ≤ y) : y ≤ y := by
  obtain ⟨-, q, -, hq, -⟩ := le_iff_place.mp h
  exact le_self_iff.mpr ⟨q, hq⟩

instance ordered (sin cos : Float → Float) (atan2 : Float → Float → Float) :
    @OrderedScalar Float (scalar sin cos atan2) :=
  letI := scalar sin cos atan2
  { le_trans := le_trans
    le_self_left := le_self_left
    le_self_right := le_self_right
    zero_le := zero_le
    not_neg_lt := not_neg_lt
    not_mul_lt := not_mul_lt
    not_ofInt_lt := not_ofInt_lt
    add_le_add_left := add_le_add_left
    sub_le_sub_left := sub_le_sub_left
    le_self_of_add := le_self_of_add
    le_self_of_sub := le_self_of_sub
    div_le_div_right := div_le_div_right }

end Double

instance : OrderedScalar FlatDouble :=
  Double.ordered (fun angle => angle) (fun _ => (1 : Float)) (fun y _ => y)

end TransitQuery
