import TransitQuery.Proofs.Decimal.Packing

/-!
# The order of doubles

A double other than the one that is no number has a place among the rationals; infinite doubles
stand where the least power of two stands that is too large for a double. Doubles are compared by
their places (`Binary64.compare_eq`), and what is too large is packed into an infinite double
(`Binary64.place_unpack_pack`). A value is rounded to the place to whose interval it belongs, and
rounding keeps the order (`Binary64.Rounds.mono`).

That infinite doubles have a place among the others is what makes the statements short. Whatever an
operation is rounded to, the result stands at a rounded value that is cut off at the limits
(`Binary64.clamp`), and cutting off keeps the order, too. So sums, products and quotients need one
statement each: `Binary64.roundsTo_add`, `Binary64.roundsTo_mul` and `Binary64.roundsTo_div` say
that the machine rounds the exact result, where `Binary64.RoundsTo` allows for what is too large to
be packed. All comparisons follow from the comparison of places: `Binary64.le_iff_place`,
`Binary64.lt_iff_place` and `Binary64.beq_iff_place`.

What the machine does with infinite operands and with what is no number is read off its definition,
a line for each case.
-/

namespace TransitQuery

open Float.Model (Format UnpackedFloat)
open Float.Model.UnpackedFloat (Sign)

namespace Binary64

variable {m m' : Nat} {e e' : Int} {v w p q : ℚ}

/-! ### Rounding keeps the order -/

/-- A value that is not negative is rounded to another one. -/
def Nearest (v p : ℚ) : Prop :=
  ∃ m e, IsRounded m e ∧ (Interval.around m e).Contains (e - 2) v ∧ p = m * 2 ^ e

private theorem nearest_self (h : IsRounded m e) : Nearest (m * 2 ^ e) (m * 2 ^ e) :=
  ⟨m, e, h, Interval.contains_self m e, rfl⟩

private theorem isRounded_zero : IsRounded 0 minExponent :=
  ⟨by decide, le_rfl, fun h => absurd h (lt_irrefl _)⟩

private theorem nearest_zero : Nearest 0 0 := by
  have h := nearest_self isRounded_zero
  rwa [Nat.cast_zero, zero_mul] at h

theorem Nearest.nonneg (h : Nearest v p) : 0 ≤ v ∧ 0 ≤ p := by
  obtain ⟨m, e, -, hv, rfl⟩ := h
  refine ⟨le_trans ?_ hv.1.1, by positivity⟩
  positivity

/-- Rounding keeps the order among values that are not negative. -/
theorem Nearest.mono (h : Nearest v p) (h' : Nearest w q) (hle : v ≤ w) : p ≤ q := by
  obtain ⟨m, e, hround, hv, rfl⟩ := h
  obtain ⟨m', e', hround', hw, rfl⟩ := h'
  by_contra hlt
  -- the greater place is the later one, and so is what is rounded to it
  have hlater : e' < e ∨ e' = e ∧ m' < m := by
    by_contra hnot
    obtain hearlier | ⟨rfl, rfl⟩ : (e < e' ∨ e = e' ∧ m < m') ∨ e = e' ∧ m = m' := by omega
    · exact hlt (lt_of_contains hround hround' hearlier (Interval.contains_self m e)
        (Interval.contains_self m' e')).le
    · exact hlt le_rfl
  exact absurd (lt_of_contains hround' hround hlater hw hv) (not_lt_of_ge hle)

theorem Nearest.eq_zero (h : Nearest v p) (hzero : v = 0) : p = 0 :=
  le_antisymm (h.mono nearest_zero hzero.le) h.nonneg.2

/-- A value with a sign. -/
def signed (s : Sign) (x : ℚ) : ℚ :=
  match s with
  | .positive => x
  | .negative => -x

@[simp]
theorem signed_zero (s : Sign) : signed s 0 = 0 := by
  cases s <;> simp [signed]

/-- The other sign stands for the negative value. -/
theorem signed_neg (s : Sign) (x : ℚ) : signed (-s) x = -signed s x := by
  cases s with
  | negative => exact (neg_neg x).symm
  | positive => rfl

/-- A sign does not change the magnitude. -/
theorem abs_signed (s : Sign) (x : ℚ) : |signed s x| = |x| := by
  cases s <;> simp [signed]

/-- A value is rounded to another one with its sign. -/
def Rounds (v p : ℚ) : Prop :=
  ∃ s x y, Nearest x y ∧ v = signed s x ∧ p = signed s y

private theorem Nearest.rounds (h : Nearest v p) (s : Sign) : Rounds (signed s v) (signed s p) :=
  ⟨s, v, p, h, rfl, rfl⟩

/-- Rounding keeps the order. -/
theorem Rounds.mono (h : Rounds v p) (h' : Rounds w q) (hle : v ≤ w) : p ≤ q := by
  obtain ⟨s, x, y, hxy, rfl, rfl⟩ := h
  obtain ⟨s', x', y', hxy', rfl, rfl⟩ := h'
  obtain ⟨hx, hy⟩ := hxy.nonneg
  obtain ⟨hx', hy'⟩ := hxy'.nonneg
  cases s with
  | positive =>
    cases s' with
    | positive => exact hxy.mono hxy' hle
    | negative =>
      -- the values meet only at zero
      simp only [signed] at hle ⊢
      rw [hxy.eq_zero (by linarith), hxy'.eq_zero (by linarith), neg_zero]
  | negative =>
    cases s' with
    | positive =>
      simp only [signed]
      linarith
    | negative => exact neg_le_neg (hxy'.mono hxy (neg_le_neg_iff.mp hle))

/-- What is not negative is not rounded to something negative. -/
theorem Rounds.nonneg (h : Rounds v p) (hv : 0 ≤ v) : 0 ≤ p :=
  (nearest_zero.rounds .positive).mono h hv

/-! ### Places -/

/-- The least power of two that is too large for a double. -/
def limit : ℚ := 2 ^ (1024 : Int)

theorem limit_pos : 0 < limit := by
  unfold limit
  positivity

/-- What becomes of a place when it is packed. -/
def clamp (x : ℚ) : ℚ := max (-limit) (min x limit)

theorem clamp_mono (h : v ≤ w) : clamp v ≤ clamp w :=
  max_le_max le_rfl (min_le_min h le_rfl)

theorem neg_limit_le_clamp (x : ℚ) : -limit ≤ clamp x := le_max_left _ _

theorem clamp_le_limit (x : ℚ) : clamp x ≤ limit :=
  max_le (by linarith [limit_pos]) (min_le_right _ _)

private theorem clamp_eq_self (h : |v| ≤ limit) : clamp v = v := by
  obtain ⟨hlow, hhigh⟩ := abs_le.mp h
  rw [clamp, min_eq_left hhigh, max_eq_right hlow]

theorem clamp_nonneg (h : 0 ≤ v) : 0 ≤ clamp v :=
  le_max_of_le_right (le_min h limit_pos.le)

private theorem clamp_signed (s : Sign) (h : limit ≤ v) : clamp (signed s v) = signed s limit := by
  have hpos := limit_pos
  cases s with
  | positive =>
    change max (-limit) (min v limit) = limit
    rw [min_eq_right h, max_eq_right (by linarith)]
  | negative => exact max_eq_left ((min_le_left _ _).trans (neg_le_neg h))

/-- Where an unpacked double stands, if it is a number. -/
def place : UnpackedFloat → Option ℚ
  | .notANumber => none
  | .infinity s => some (signed s limit)
  | .zero _ => some 0
  | .finite s m e _ => some (signed s (m * 2 ^ e))

/-- A mantissa and an exponent stand at the value that they have. -/
@[simp]
theorem place_unpacked (s : Sign) (m : Nat) (e : Int) :
    place (unpacked s m e) = some (signed s (m * 2 ^ e)) := by
  by_cases hm : m = 0
  · subst hm
    rw [unpacked_zero, Nat.cast_zero, zero_mul, signed_zero]
    rfl
  · rw [unpacked_of_ne_zero s hm]
    rfl

private theorem IsCanonical.lt_limit (h : IsCanonical m e) : (m * 2 ^ e : ℚ) < limit := by
  have hm : (m : ℚ) < 2 ^ (53 : Int) := by
    have hlt := h.mantissa_lt
    rw [minMantissa_eq] at hlt
    exact_mod_cast hlt
  calc (m * 2 ^ e : ℚ) < 2 ^ (53 : Int) * 2 ^ e := mul_lt_mul_of_pos_right hm (by positivity)
    _ ≤ 2 ^ (53 : Int) * 2 ^ (971 : Int) := by
      refine mul_le_mul_of_nonneg_left ?_ (by positivity)
      exact zpow_le_zpow_right₀ (by norm_num) h.exponent_le
    _ = limit := by rw [limit, ← zpow_add₀ (by norm_num)]; rfl

/-- An exponent that is too large for a double leads out of them. -/
private theorem IsRounded.limit_le (h : IsRounded m e) (he : 971 < e) :
    limit ≤ (m * 2 ^ e : ℚ) := by
  have hm : (2 ^ (52 : Int) : ℚ) ≤ m := by
    have hle := h.minMantissa_le (by rw [minExponent]; omega)
    rw [minMantissa_eq] at hle
    exact_mod_cast hle
  calc limit = 2 ^ (52 : Int) * 2 ^ (972 : Int) := by
        rw [limit, ← zpow_add₀ (by norm_num)]; rfl
    _ ≤ m * 2 ^ e := by
      refine mul_le_mul hm ?_ (by positivity) (by positivity)
      exact zpow_le_zpow_right₀ (by norm_num) (by omega)

/-! ### Packing and unpacking -/

/-- What can be unpacked from the bits of a double. -/
inductive IsDouble : UnpackedFloat → Prop
  | nan : IsDouble .notANumber
  | infinity (s : Sign) : IsDouble (.infinity s)
  | rounded (s : Sign) {m : Nat} {e : Int} (h : IsCanonical m e) : IsDouble (unpacked s m e)

/-- Bits that give no parts have the greatest exponent. -/
theorem unpackExponent_of_not_finite {bits : UInt64}
    (h : ∀ negative m e, ofBits bits ≠ finite negative m e) :
    @Float.Model.UnpackedFloat.unpackExponent Format.binary64 bits.toBitVec = -1#11 := by
  refine BitVec.eq_of_toNat_eq ((toNat_unpackExponent bits.toBitVec).trans ?_)
  by_contra hexponent
  have hspecial : ¬(bits.toNat >>> 52) % 2048 = 2047 := hexponent
  unfold ofBits at h
  simp only [if_neg hspecial] at h
  split at h
  · exact h _ _ _ rfl
  · exact h _ _ _ rfl

/-- What is unpacked is no number, infinite, or a mantissa and an exponent. -/
theorem isDouble_unpack (x : Float.Model) : IsDouble x.unpack := by
  by_cases hfinite : ∃ negative m e, ofBits x.toBits = finite negative m e
  · obtain ⟨negative, m, e, h⟩ := hfinite
    have hunpack : x.unpack = unpacked (toSign negative) m e := unpack_eq h
    rw [hunpack]
    exact .rounded _ (ofBits_isCanonical h)
  · have hexponent := unpackExponent_of_not_finite fun negative m e h =>
      hfinite ⟨negative, m, e, h⟩
    delta Float.Model.unpack Float.Model.UnpackedFloat.unpack
    dsimp only
    rw [if_pos hexponent]
    split
    · exact .infinity _
    · exact .nan

/-- The negative of a double is a double. -/
theorem IsDouble.neg {u : UnpackedFloat} (h : IsDouble u) : IsDouble u.neg := by
  cases h with
  | nan => exact .nan
  | infinity s => exact .infinity (-s)
  | rounded s h =>
    rw [neg_unpacked]
    exact .rounded _ h

/-- Packing and unpacking goes back. -/
theorem IsDouble.unpack_pack {u : UnpackedFloat} (h : IsDouble u) :
    (Float.Model.pack u).unpack = u := by
  cases h with
  | nan => rfl
  | infinity s => cases s <;> rfl
  | rounded s h =>
    cases s with
    | negative => exact unpack_eq (ofBits_pack h true)
    | positive => exact unpack_eq (ofBits_pack h false)

/-- What is too large is packed into an infinite double. -/
theorem place_unpack_pack (h : IsRounded m e) (s : Sign) :
    place (Float.Model.pack (unpacked s m e)).unpack = some (clamp (signed s (m * 2 ^ e))) := by
  by_cases he : e ≤ 971
  · have hcanonical : IsCanonical m e := ⟨h.mantissa_lt, h.minExponent_le, he, h.minMantissa_le⟩
    rw [(IsDouble.rounded s hcanonical).unpack_pack, place_unpacked, clamp_eq_self]
    rw [abs_signed, abs_of_nonneg (by positivity)]
    exact hcanonical.lt_limit.le
  · have hlarge := h.limit_le (not_le.mp he)
    have hm : m ≠ 0 := by
      rintro rfl
      rw [Nat.cast_zero, zero_mul] at hlarge
      exact absurd hlarge (not_le.mpr limit_pos)
    have hbiased :
        2 ^ 11 ≤ (e + (Format.exponentBias Format.binary64 : Nat) + (52 : Nat)).toNat + 1 := by
      rw [show Format.exponentBias Format.binary64 = 1023 from rfl]
      omega
    have hpack : Float.Model.pack (unpacked s m e) = Float.Model.pack (.infinity s) := by
      unfold Float.Model.pack
      congr 2
      rw [unpacked, dif_neg hm, pack_finite]
      exact if_pos hbiased
    rw [hpack, (IsDouble.infinity s).unpack_pack, clamp_signed s hlarge]
    rfl

/-! ### Comparing -/

/-- Mantissas of doubles are compared after their exponents. -/
theorem compare_eq_of_isRounded (h : IsRounded m e) (h' : IsRounded m' e') :
    (compare e e').then (compare m m') = compare (m * 2 ^ e : ℚ) (m' * 2 ^ e') := by
  have hself := Interval.contains_self m e
  have hself' := Interval.contains_self m' e'
  obtain hlt | rfl | hlt := lt_trichotomy e e'
  · rw [compare_lt_iff_lt.mpr hlt,
      compare_lt_iff_lt.mpr (lt_of_contains h h' (.inl hlt) hself hself')]
    rfl
  · rw [compare_eq_iff_eq.mpr rfl]
    obtain hlt | rfl | hlt := lt_trichotomy m m'
    · rw [compare_lt_iff_lt.mpr hlt,
        compare_lt_iff_lt.mpr (lt_of_contains h h' (.inr ⟨rfl, hlt⟩) hself hself')]
      rfl
    · rw [compare_eq_iff_eq.mpr rfl, compare_eq_iff_eq.mpr rfl]
      rfl
    · rw [compare_gt_iff_gt.mpr hlt,
        compare_gt_iff_gt.mpr (lt_of_contains h' h (.inr ⟨rfl, hlt⟩) hself' hself)]
      rfl
  · rw [compare_gt_iff_gt.mpr hlt,
      compare_gt_iff_gt.mpr (lt_of_contains h' h (.inl hlt) hself' hself)]
    rfl

private theorem some_lt_eq (h : p < q) : some .lt = some (compare p q) :=
  congrArg some (compare_lt_iff_lt.mpr h).symm

private theorem some_gt_eq (h : q < p) : some .gt = some (compare p q) :=
  congrArg some (compare_gt_iff_gt.mpr h).symm

private theorem swap_compare (p q : ℚ) : (compare p q).swap = compare (-p) (-q) := by
  obtain hlt | rfl | hgt := lt_trichotomy p q
  · rw [compare_lt_iff_lt.mpr hlt, compare_gt_iff_gt.mpr (neg_lt_neg hlt)]
    rfl
  · rw [compare_eq_iff_eq.mpr rfl, compare_eq_iff_eq.mpr rfl]
    rfl
  · rw [compare_gt_iff_gt.mpr hgt, compare_lt_iff_lt.mpr (neg_lt_neg hgt)]
    rfl

private theorem compare_unpacked (s t : Sign) (h : IsRounded m e) (h' : IsRounded m' e') :
    (unpacked s m e).compare (unpacked t m' e') =
      some (compare (signed s (m * 2 ^ e)) (signed t (m' * 2 ^ e'))) := by
  have hcompare := compare_eq_of_isRounded h h'
  -- A significand of zero has no sign to go by; then both are compared by their signs, and two of
  -- one sign by their places.
  by_cases hm : m = 0
  · subst hm
    rw [unpacked, dif_pos rfl, Nat.cast_zero, zero_mul, signed_zero]
    by_cases hm' : m' = 0
    · subst hm'
      rw [unpacked, dif_pos rfl, Nat.cast_zero, zero_mul, signed_zero, compare_eq_iff_eq.mpr rfl]
      rfl
    · have hpos' : (0 : ℚ) < m' * 2 ^ e' := by positivity
      rw [unpacked, dif_neg hm']
      cases t with
      | negative => exact some_gt_eq (neg_neg_of_pos hpos')
      | positive => exact some_lt_eq hpos'
  · have hpos : (0 : ℚ) < m * 2 ^ e := by positivity
    rw [unpacked, dif_neg hm]
    by_cases hm' : m' = 0
    · subst hm'
      rw [unpacked, dif_pos rfl, Nat.cast_zero, zero_mul, signed_zero]
      cases s with
      | negative => exact some_lt_eq (neg_neg_of_pos hpos)
      | positive => exact some_gt_eq hpos
    · have hpos' : (0 : ℚ) < m' * 2 ^ e' := by positivity
      rw [unpacked, dif_neg hm']
      cases s with
      | positive =>
        cases t with
        | positive => exact congrArg some hcompare
        | negative => exact some_gt_eq ((neg_neg_of_pos hpos').trans hpos)
      | negative =>
        cases t with
        | positive => exact some_lt_eq ((neg_neg_of_pos hpos).trans hpos')
        | negative =>
          exact congrArg some ((congrArg Ordering.swap hcompare).trans (swap_compare ..))

/-- Finite doubles stand strictly within the limits. -/
theorem abs_place_lt (s : Sign) (h : IsCanonical m e) : |signed s (m * 2 ^ e)| < limit := by
  rw [abs_signed, abs_of_nonneg (by positivity)]
  exact h.lt_limit

/-- Doubles are compared by their places. -/
theorem compare_eq {a b : UnpackedFloat} (ha : IsDouble a) (hb : IsDouble b)
    (hp : place a = some p) (hq : place b = some q) : a.compare b = some (compare p q) := by
  have hpos := limit_pos
  have hneg : -limit < limit := by linarith
  -- An infinity has the place of the limit, which no other double reaches.
  cases ha with
  | nan => cases hp
  | infinity s =>
    obtain rfl := Option.some.inj hp
    cases hb with
    | nan => cases hq
    | infinity t =>
      obtain rfl := Option.some.inj hq
      cases s <;> cases t
      · exact congrArg some (compare_eq_iff_eq.mpr rfl).symm
      · exact some_lt_eq hneg
      · exact some_gt_eq hneg
      · exact congrArg some (compare_eq_iff_eq.mpr rfl).symm
    | @rounded t m e h =>
      obtain rfl := Option.some.inj ((place_unpacked ..).symm.trans hq)
      obtain ⟨hlow, hhigh⟩ := abs_lt.mp (abs_place_lt t h)
      have hcases := unpacked_cases t m e
      cases s with
      | negative =>
        refine Eq.trans ?_ (some_lt_eq hlow)
        obtain heq | ⟨_, heq⟩ := hcases <;> rw [heq] <;> rfl
      | positive =>
        refine Eq.trans ?_ (some_gt_eq hhigh)
        obtain heq | ⟨_, heq⟩ := hcases <;> rw [heq] <;> rfl
  | @rounded s m e h =>
    obtain rfl := Option.some.inj ((place_unpacked ..).symm.trans hp)
    cases hb with
    | nan => cases hq
    | infinity t =>
      obtain rfl := Option.some.inj hq
      obtain ⟨hlow, hhigh⟩ := abs_lt.mp (abs_place_lt s h)
      have hcases := unpacked_cases s m e
      cases t with
      | negative =>
        refine Eq.trans ?_ (some_gt_eq hlow)
        obtain heq | ⟨_, heq⟩ := hcases <;> rw [heq] <;> cases s <;> rfl
      | positive =>
        refine Eq.trans ?_ (some_lt_eq hhigh)
        obtain heq | ⟨_, heq⟩ := hcases <;> rw [heq] <;> cases s <;> rfl
    | rounded t h' =>
      obtain rfl := Option.some.inj ((place_unpacked ..).symm.trans hq)
      exact compare_unpacked s t h.isRounded h'.isRounded

/-- What is no number is not compared. -/
theorem exists_place_of_compare {a b : UnpackedFloat} {o : Ordering} (h : a.compare b = some o) :
    (∃ p, place a = some p) ∧ ∃ q, place b = some q := by
  cases a with
  | notANumber => cases h
  | _ =>
    refine ⟨⟨_, rfl⟩, ?_⟩
    cases b with
    | notANumber => cases h
    | _ => exact ⟨_, rfl⟩

/-- One double is at most another just if both have places, and these are in this order. -/
theorem le_iff_place {a b : UnpackedFloat} (ha : IsDouble a) (hb : IsDouble b) :
    a.le b = true ↔ ∃ p q, place a = some p ∧ place b = some q ∧ p ≤ q := by
  rw [Float.Model.UnpackedFloat.le, Option.any_eq_true]
  constructor
  · rintro ⟨o, ho, hle⟩
    obtain ⟨⟨p, hp⟩, q, hq⟩ := exists_place_of_compare ho
    obtain rfl := Option.some.inj (ho.symm.trans (compare_eq ha hb hp hq))
    exact ⟨p, q, hp, hq, compare_le_iff_le.mp (Ordering.isLE_iff_ne_gt.mp hle)⟩
  · rintro ⟨p, q, hp, hq, hle⟩
    exact ⟨_, compare_eq ha hb hp hq, Ordering.isLE_iff_ne_gt.mpr (compare_le_iff_le.mpr hle)⟩

/-- One double is less than another just if both have places, and these are in this order. -/
theorem lt_iff_place {a b : UnpackedFloat} (ha : IsDouble a) (hb : IsDouble b) :
    a.lt b = true ↔ ∃ p q, place a = some p ∧ place b = some q ∧ p < q := by
  rw [Float.Model.UnpackedFloat.lt, beq_iff_eq]
  constructor
  · intro ho
    obtain ⟨⟨p, hp⟩, q, hq⟩ := exists_place_of_compare ho
    rw [compare_eq ha hb hp hq] at ho
    exact ⟨p, q, hp, hq, compare_lt_iff_lt.mp (Option.some.inj ho)⟩
  · rintro ⟨p, q, hp, hq, hlt⟩
    exact (compare_eq ha hb hp hq).trans (some_lt_eq hlt).symm

/-- Two doubles are equal as numbers just if they have one place. -/
theorem beq_iff_place {a b : UnpackedFloat} (ha : IsDouble a) (hb : IsDouble b) :
    a.beq b = true ↔ ∃ p, place a = some p ∧ place b = some p := by
  change (a.compare b == some .eq) = true ↔ _
  rw [beq_iff_eq]
  constructor
  · intro ho
    obtain ⟨⟨p, hp⟩, q, hq⟩ := exists_place_of_compare ho
    rw [compare_eq ha hb hp hq] at ho
    obtain rfl := compare_eq_iff_eq.mp (Option.some.inj ho)
    exact ⟨p, hp, hq⟩
  · rintro ⟨p, hp, hq⟩
    exact (compare_eq ha hb hp hq).trans (congrArg some (compare_eq_iff_eq.mpr rfl))

/-! ### Sums and quotients -/

/-- A value is rounded to an unpacked double, which may be too large to be packed. -/
def RoundsTo (v : ℚ) (a : UnpackedFloat) : Prop :=
  ∃ s m e x, a = unpacked s m e ∧ IsRounded m e ∧ v = signed s x ∧
    (Interval.around m e).Contains (e - 2) x

/-- What a value is rounded to stands at a rounded value, cut off at the limits. -/
theorem RoundsTo.exists_place {a : UnpackedFloat} (h : RoundsTo v a) :
    ∃ p, place (Float.Model.pack a).unpack = some (clamp p) ∧ Rounds v p := by
  obtain ⟨s, m, e, x, rfl, hround, rfl, hx⟩ := h
  exact ⟨_, place_unpack_pack hround s, s, x, _, ⟨m, e, hround, hx, rfl⟩, rfl, rfl⟩

/-- A rounded value is rounded to its own mantissa and exponent. -/
private theorem roundsTo_self (s : Sign) (h : IsRounded m e) :
    RoundsTo (signed s (m * 2 ^ e)) (unpacked s m e) :=
  ⟨s, m, e, _, rfl, h, rfl, Interval.contains_self m e⟩

private theorem roundsTo_zero (s : Sign) : RoundsTo 0 (.zero s) := by
  have h := roundsTo_self s isRounded_zero
  rw [Nat.cast_zero, zero_mul, signed_zero] at h
  exact h

/-- The machine rounds a natural number times a power of two. -/
private theorem roundsTo_round (s : Sign) {n : Nat} (hn : n ≠ 0) (e : Int) :
    RoundsTo (signed s (n * 2 ^ e)) (Float.Model.UnpackedFloat.round Format.binary64 s n e) := by
  set target := max ((n.log2 : Int) + e - 52) minExponent with htarget
  obtain ⟨k, hk⟩ : ∃ k : Nat, (e - target).toNat = k := ⟨_, rfl⟩
  have hround : Float.Model.UnpackedFloat.round Format.binary64 s n e =
      Float.Model.UnpackedFloat.roundWithAccuracy Format.binary64 s (n <<< k) (e - k) .exact := by
    simp only [Float.Model.UnpackedFloat.round, targetExponent_eq, ← htarget,
      Float.Model.UnpackedFloat.decreaseExponent, hk]
  have hshift : n <<< k = n * 2 ^ k := Nat.shiftLeft_eq ..
  -- the mantissa is shifted until it has enough digits, or as far as the least exponent
  have henough : 52 ≤ (n <<< k).log2 ∨ e - k ≤ minExponent := by
    by_cases hlow : e - k ≤ minExponent
    · exact .inr hlow
    · refine .inl ((Nat.le_log2 (by rw [hshift]; positivity)).mpr ?_)
      calc 2 ^ 52 ≤ 2 ^ (n.log2 + k) := Nat.pow_le_pow_right (by norm_num) (by omega)
        _ = 2 ^ n.log2 * 2 ^ k := Nat.pow_add ..
        _ ≤ n <<< k := hshift ▸ Nat.mul_le_mul_right _ (Nat.log2_self_le hn)
  obtain ⟨m, e', heq, hrounded, hcontains⟩ :=
    exists_roundWithAccuracy s (standsFor_exact (n <<< k)) henough
  have hvalue : ((n <<< k : Nat) : ℚ) * 2 ^ (e - k) = n * 2 ^ e := by
    rw [hshift, zpow_sub₀ (by norm_num), zpow_natCast]
    push_cast
    field_simp
  rw [hvalue] at hcontains
  exact ⟨s, m, e', _, hround.trans heq, hrounded, rfl, hcontains⟩

/-- The machine rounds an integer times a power of two. -/
private theorem roundsTo_normalize (k e : Int) :
    RoundsTo (k * 2 ^ e) (Float.Model.UnpackedFloat.normalize Format.binary64 k e .positive) := by
  rw [Float.Model.UnpackedFloat.normalize]
  obtain hlt | rfl | hgt := lt_trichotomy k 0
  · rw [compare_lt_iff_lt.mpr hlt]
    have h := roundsTo_round .negative (n := (-k).toNat) (by omega) e
    have hcast : (((-k).toNat : Nat) : ℚ) = -k := by
      exact_mod_cast Int.toNat_of_nonneg (by omega : 0 ≤ -k)
    rwa [hcast, signed, neg_mul, neg_neg] at h
  · rw [Int.cast_zero, zero_mul]
    exact roundsTo_zero _
  · rw [compare_gt_iff_gt.mpr hgt]
    have h := roundsTo_round .positive (n := k.toNat) (by omega) e
    have hcast : ((k.toNat : Nat) : ℚ) = k := by
      exact_mod_cast Int.toNat_of_nonneg hgt.le
    rwa [hcast, signed] at h

/-- Applying a sign to a natural number gives the signed value. -/
private theorem cast_apply (s : Sign) (n : Nat) : ((s.apply n : Int) : ℚ) = signed s n := by
  cases s <;> simp [Float.Model.UnpackedFloat.Sign.apply, signed]

private theorem signed_mul (s : Sign) (x y : ℚ) : signed s x * y = signed s (x * y) := by
  cases s <;> simp [signed]

/-- A sum is rounded. -/
theorem roundsTo_add (s t : Sign) (h : IsRounded m e) (h' : IsRounded m' e') :
    RoundsTo (signed s (m * 2 ^ e) + signed t (m' * 2 ^ e'))
      (Float.Model.UnpackedFloat.add Format.binary64 (unpacked s m e) (unpacked t m' e')) := by
  by_cases hm : m = 0
  · subst hm
    have hself := roundsTo_self t h'
    rw [Nat.cast_zero, zero_mul, signed_zero, zero_add]
    rw [unpacked, dif_pos rfl]
    by_cases hm' : m' = 0
    · subst hm'
      rw [Nat.cast_zero, zero_mul, signed_zero, unpacked, dif_pos rfl]
      cases s <;> cases t <;> exact roundsTo_zero _
    · rw [unpacked, dif_neg hm'] at hself ⊢
      exact hself
  · rw [unpacked, dif_neg hm]
    by_cases hm' : m' = 0
    · subst hm'
      have hself := roundsTo_self s h
      rw [unpacked, dif_neg hm] at hself
      rw [Nat.cast_zero, zero_mul, signed_zero, add_zero, unpacked, dif_pos rfl]
      exact hself
    · rw [unpacked, dif_neg hm']
      -- Neither is zero: both are brought to the lower exponent, where their significands can be
      -- added.
      set low := min e e'
      obtain ⟨k, hk⟩ : ∃ k : Nat, (e - low).toNat = k := ⟨_, rfl⟩
      obtain ⟨k', hk'⟩ : ∃ k : Nat, (e' - low).toNat = k := ⟨_, rfl⟩
      have hvalue : (((s.apply (m <<< k : Nat) + t.apply (m' <<< k' : Nat) : Int) : ℚ) * 2 ^ low) =
          signed s (m * 2 ^ e) + signed t (m' * 2 ^ e') := by
        have he : e = low + k := by omega
        have he' : e' = low + k' := by omega
        rw [Int.cast_add, cast_apply, cast_apply, add_mul, signed_mul, signed_mul, Nat.shiftLeft_eq,
          Nat.shiftLeft_eq, he, he', zpow_add₀ (by norm_num), zpow_add₀ (by norm_num),
          zpow_natCast, zpow_natCast]
        push_cast
        congr 2 <;> ring
      rw [← hvalue]
      have hadd := roundsTo_normalize (s.apply (m <<< k : Nat) + t.apply (m' <<< k' : Nat)) low
      rw [← hk, ← hk'] at hadd ⊢
      exact hadd

/-- A difference is a sum. -/
theorem sub_eq_add_neg (a b : UnpackedFloat) :
    Float.Model.UnpackedFloat.sub Format.binary64 a b =
      Float.Model.UnpackedFloat.add Format.binary64 a b.neg := by
  have happly : ∀ (s : Sign) (n : Int), (-s).apply n = -s.apply n := by
    intro s n
    cases s with
    | positive => rfl
    | negative => exact (neg_neg n).symm
  cases a with
  | notANumber => cases b <;> rfl
  | infinity s | zero s =>
    cases b with
    | infinity t | zero t => cases s <;> cases t <;> rfl
    | _ => rfl
  | finite s m e h =>
    cases b with
    | finite t m' e' h' =>
      change Float.Model.UnpackedFloat.normalize _ (s.apply _ - t.apply _) _ _ =
        Float.Model.UnpackedFloat.normalize _ (s.apply _ + (-t).apply _) _ _
      rw [happly, Int.sub_eq_add_neg]
    | _ => rfl

/-- A sum with what is no number is none. -/
theorem add_notANumber (a : UnpackedFloat) :
    Float.Model.UnpackedFloat.add Format.binary64 a .notANumber = .notANumber := by
  cases a <;> rfl

theorem div_notANumber (a : UnpackedFloat) :
    Float.Model.UnpackedFloat.div Format.binary64 a .notANumber = .notANumber := by
  cases a <;> rfl

/-- A finite number divided by an infinite one is zero. -/
theorem div_infinity (s t : Sign) (m : Nat) (e : Int) :
    Float.Model.UnpackedFloat.div Format.binary64 (unpacked s m e) (.infinity t) =
      .zero (s / t) := by
  obtain h | ⟨_, h⟩ := unpacked_cases s m e <;> rw [h] <;> rfl

/-- By zero, zero is divided to no number, and all else to infinity. -/
theorem div_zero (s t : Sign) (m : Nat) (e : Int) :
    Float.Model.UnpackedFloat.div Format.binary64 (unpacked s m e) (.zero t) =
      if m = 0 then .notANumber else .infinity (s / t) := by
  by_cases hm : m = 0
  · rw [unpacked, dif_pos hm, if_pos hm]
    rfl
  · rw [unpacked, dif_neg hm, if_neg hm]
    rfl

/-- A quotient is rounded. -/
theorem roundsTo_div (s : Sign) (m : Nat) (e : Int) (hm' : m' ≠ 0) (e' : Int) :
    RoundsTo (signed s (m * 2 ^ e) / (m' * 2 ^ e'))
      (Float.Model.UnpackedFloat.div Format.binary64 (unpacked s m e)
        (unpacked .positive m' e')) := by
  have hsign : s / .positive = s := by cases s <;> rfl
  by_cases hm : m = 0
  · subst hm
    rw [Nat.cast_zero, zero_mul, signed_zero, zero_div, unpacked_zero,
      unpacked_of_ne_zero .positive hm']
    exact roundsTo_zero _
  · obtain ⟨q, t, a, x, hcore, hx, henough, hvalue⟩ := exists_divCore hm hm' e e'
    obtain ⟨m₁, e₁, heq, hrounded, hcontains⟩ := exists_roundWithAccuracy s hx henough
    rw [hvalue] at hcontains
    refine ⟨s, m₁, e₁, _, ?_, hrounded, ?_, hcontains⟩
    · rw [div_unpacked _ _ hm hm' hcore, hsign]
      exact heq
    · rw [div_eq_mul_inv, signed_mul, ← div_eq_mul_inv]

theorem notANumber_mul (a : UnpackedFloat) :
    Float.Model.UnpackedFloat.mul Format.binary64 .notANumber a = .notANumber := by
  cases a <;> rfl

theorem mul_notANumber (a : UnpackedFloat) :
    Float.Model.UnpackedFloat.mul Format.binary64 a .notANumber = .notANumber := by
  cases a <;> rfl

/-- Zero times infinity is no number. -/
theorem mul_infinity (s t : Sign) (m : Nat) (e : Int) :
    Float.Model.UnpackedFloat.mul Format.binary64 (unpacked s m e) (.infinity t) =
      if m = 0 then .notANumber else .infinity (s * t) := by
  by_cases hm : m = 0
  · rw [unpacked, dif_pos hm, if_pos hm]
    rfl
  · rw [unpacked, dif_neg hm, if_neg hm]
    rfl

theorem infinity_mul (s t : Sign) (m : Nat) (e : Int) :
    Float.Model.UnpackedFloat.mul Format.binary64 (.infinity s) (unpacked t m e) =
      if m = 0 then .notANumber else .infinity (s * t) := by
  by_cases hm : m = 0
  · rw [unpacked, dif_pos hm, if_pos hm]
    rfl
  · rw [unpacked, dif_neg hm, if_neg hm]
    rfl

private theorem signed_mul_signed (s t : Sign) (x y : ℚ) :
    signed s x * signed t y = signed (s * t) (x * y) := by
  cases s <;> cases t
  · exact neg_mul_neg x y
  · exact neg_mul x y
  · exact mul_neg x y
  · rfl

/-- A product is rounded. -/
theorem roundsTo_mul (s t : Sign) (h : IsRounded m e) (h' : IsRounded m' e') :
    RoundsTo (signed s (m * 2 ^ e) * signed t (m' * 2 ^ e'))
      (Float.Model.UnpackedFloat.mul Format.binary64 (unpacked s m e) (unpacked t m' e')) := by
  by_cases hm : m = 0
  · subst hm
    rw [Nat.cast_zero, zero_mul, signed_zero, zero_mul, unpacked_zero]
    obtain heq | ⟨_, heq⟩ := unpacked_cases t m' e' <;> rw [heq]
    · exact roundsTo_zero _
    · exact roundsTo_zero _
  · rw [unpacked, dif_neg hm]
    by_cases hm' : m' = 0
    · subst hm'
      rw [Nat.cast_zero, zero_mul, signed_zero, mul_zero, unpacked, dif_pos rfl]
      exact roundsTo_zero _
    · rw [unpacked, dif_neg hm']
      -- there are enough digits, unless both factors have the least exponent
      have henough : 52 ≤ (m * m').log2 ∨ e + e' ≤ minExponent := by
        rw [Nat.le_log2 (Nat.mul_ne_zero hm hm'), ← minMantissa_eq]
        have hleast : minExponent = -1074 := rfl
        have hle := h.minExponent_le
        have hle' := h'.minExponent_le
        by_cases he : minExponent < e
        · exact .inl ((h.minMantissa_le he).trans
            (Nat.le_mul_of_pos_right m (Nat.pos_of_ne_zero hm')))
        by_cases he' : minExponent < e'
        · exact .inl ((h'.minMantissa_le he').trans
            (Nat.le_mul_of_pos_left m' (Nat.pos_of_ne_zero hm)))
        · exact .inr (by omega)
      obtain ⟨m₁, e₁, heq, hrounded, hcontains⟩ :=
        exists_roundWithAccuracy (s * t) (standsFor_exact (m * m')) henough
      refine ⟨s * t, m₁, e₁, _, heq, hrounded, ?_, hcontains⟩
      rw [signed_mul_signed, zpow_add₀ (by norm_num)]
      push_cast
      congr 1
      ring

end Binary64

end TransitQuery
