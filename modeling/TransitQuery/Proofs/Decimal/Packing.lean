import TransitQuery.Proofs.Decimal.Rounding

/-!
# The bits of a rounded value

A mantissa and an exponent that a double can have are packed into 64 bits and unpacked from them.
Both ways agree with the parts that `Binary64.ofBits` reads from the bits (`Binary64.ofBits_pack`,
`Binary64.unpack_eq`).

The bits are described twice, by `Binary64.ofBits` with shifts and remainders of one natural
number, and by the machine with vectors of bits that are put one behind the other. Both are
compared as natural numbers: `toNat_pack` gives the number that is packed, as a sum of its three
fields, and `ofBits_eq` reads the fields of such a sum. Whether a mantissa has all its digits
decides in both whether the exponent is written or stands for the least one, hence the condition of
being canonical: a double has one mantissa and one exponent, and these are the ones that come back.

What the machine does with a finite number is stated in `Binary64.pack_finite`, once for all.
-/

namespace TransitQuery

open Float.Model (Format UnpackedFloat)
open Float.Model.UnpackedFloat (Sign)

namespace Binary64

/-- The sign of a double. -/
def toSign (negative : Bool) : Sign :=
  if negative then .negative else .positive

private theorem toNat_packComponents (negative : Bool) (exponent : BitVec 11)
    (mantissa : BitVec 52) :
    (Float.Model.UnpackedFloat.packComponents Format.binary64 (toSign negative) exponent
        mantissa).toNat =
      (if negative then 2 ^ 63 else 0) + exponent.toNat * 2 ^ 52 + mantissa.toNat := by
  have hsign : (toSign negative).toBitVec.toNat = if negative then 1 else 0 := by
    cases negative <;> rfl
  rw [Float.Model.UnpackedFloat.packComponents, BitVec.toNat_append, BitVec.toNat_append,
    ← Nat.shiftLeft_add_eq_or_of_lt (by exact mantissa.isLt),
    ← Nat.shiftLeft_add_eq_or_of_lt exponent.isLt, hsign, Nat.shiftLeft_eq, Nat.shiftLeft_eq]
  split
  · norm_num
    ring
  · simp

/-- Reads the fields of a pattern of bits that is put together from them. -/
theorem ofBits_eq {bits : UInt64} {negative : Bool} {biased fraction : Nat}
    (hbiased : biased < 2047) (hfraction : fraction < minMantissa)
    (h : bits.toNat = (if negative then 2 ^ 63 else 0) + biased * 2 ^ 52 + fraction) :
    ofBits bits = if biased = 0 then finite negative fraction minExponent else
      finite negative (minMantissa + fraction) (biased - 1075) := by
  rw [minMantissa_eq] at *
  have hsign : bits.toNat >>> 63 = if negative then 1 else 0 := by
    rw [h, Nat.shiftRight_eq_div_pow]
    split <;> omega
  have hexponent : (bits.toNat >>> 52) % 2048 = biased := by
    rw [h, Nat.shiftRight_eq_div_pow]
    split <;> omega
  have hrest : bits.toNat % 2 ^ 52 = fraction := by
    rw [h]
    split <;> omega
  simp only [ofBits, minMantissa_eq, hsign, hexponent, hrest, if_neg hbiased.ne]
  cases negative <;> rfl

/-- A mantissa that is small enough has 53 digits just if it is not less than the least of them. -/
theorem log2_add_one_eq_iff {m : Nat} (hzero : m ≠ 0) (hm : m < 2 * minMantissa) :
    m.log2 + 1 = 53 ↔ minMantissa ≤ m := by
  rw [minMantissa_eq] at *
  have hlt : m.log2 < 53 := (Nat.log2_lt hzero).mpr (by omega)
  have hle : 52 ≤ m.log2 ↔ 2 ^ 52 ≤ m := Nat.le_log2 hzero
  omega

/-- What a finite double is packed into. -/
theorem pack_finite (s : Sign) {m : Nat} (hm : 0 < m) (e : Int) :
    Float.Model.UnpackedFloat.pack Format.binary64 (.finite s m e hm) =
      let biased := (e + (Format.exponentBias Format.binary64 : Nat) + (52 : Nat)).toNat
      if 2 ^ 11 ≤ biased + 1 then Float.Model.UnpackedFloat.packedInfinity Format.binary64 s
      else if m.log2 + 1 = 53 then
        Float.Model.UnpackedFloat.packComponents Format.binary64 s (.ofNat 11 biased) (.ofNat 52 m)
      else Float.Model.UnpackedFloat.packComponents Format.binary64 s 0 (.ofNat 52 m) :=
  rfl

/-- The bits that a canonical mantissa and exponent are packed into. -/
theorem toNat_pack {m : Nat} {e : Int} (h : IsCanonical m e) (negative : Bool) :
    (Float.Model.pack (unpacked (toSign negative) m e)).toBits.toNat =
      (if negative then 2 ^ 63 else 0) +
        (if minMantissa ≤ m then (e + 1075).toNat else 0) * 2 ^ 52 + m % 2 ^ 52 := by
  have htoBits : ∀ f : UnpackedFloat, (Float.Model.pack f).toBits.toNat =
      (Float.Model.UnpackedFloat.pack Format.binary64 f).toNat := fun _ => rfl
  rw [htoBits, unpacked]
  by_cases hzero : m = 0
  · subst hzero
    have hpack : Float.Model.UnpackedFloat.pack Format.binary64 (.zero (toSign negative)) =
        Float.Model.UnpackedFloat.packedZero Format.binary64 (toSign negative) := rfl
    rw [dif_pos rfl, hpack, Float.Model.UnpackedFloat.packedZero, toNat_packComponents,
      if_neg (show ¬minMantissa ≤ 0 by decide)]
    rfl
  · have hlow := h.minExponent_le
    have hhigh := h.exponent_le
    have hlog := log2_add_one_eq_iff hzero h.mantissa_lt
    have hbias : (e + (Format.exponentBias Format.binary64 : Nat) + (52 : Nat)).toNat =
        (e + 1075).toNat := by
      rw [show Format.exponentBias Format.binary64 = 1023 from rfl]
      omega
    have hfits : ¬2 ^ 11 ≤ (e + 1075).toNat + 1 := by omega
    rw [dif_neg hzero, pack_finite]
    simp only [hbias, if_neg hfits, hlog]
    split
    · rw [toNat_packComponents, BitVec.toNat_ofNat, BitVec.toNat_ofNat,
        Nat.mod_eq_of_lt (by omega : (e + 1075).toNat < 2 ^ 11)]
    · rw [toNat_packComponents, BitVec.toNat_ofNat]
      rfl

/-- The double with a canonical mantissa and exponent has these as its parts. -/
theorem ofBits_pack {m : Nat} {e : Int} (h : IsCanonical m e) (negative : Bool) :
    ofBits (Float.Model.pack (unpacked (toSign negative) m e)).toBits = finite negative m e := by
  have hmin : minMantissa = 2 ^ 52 := minMantissa_eq
  have hm := h.mantissa_lt
  have hlow := h.minExponent_le
  have hhigh := h.exponent_le
  have hnormal := h.minMantissa_le
  have hleast : minExponent = -1074 := rfl
  have hpack := toNat_pack h negative
  by_cases hle : minMantissa ≤ m
  · rw [if_pos hle] at hpack
    rw [ofBits_eq (by omega) (by omega) hpack, if_neg (by omega)]
    congr <;> omega
  · rw [if_neg hle] at hpack
    rw [ofBits_eq (by omega) (by omega) hpack, if_pos rfl]
    congr <;> omega

theorem toNat_unpackExponent (b : BitVec 64) :
    (@Float.Model.UnpackedFloat.unpackExponent Format.binary64 b).toNat =
      b.toNat >>> 52 % 2048 := by
  simp [Float.Model.UnpackedFloat.unpackExponent]

private theorem toNat_unpackMantissa (b : BitVec 64) :
    (@Float.Model.UnpackedFloat.unpackMantissa Format.binary64 b).toNat =
      b.toNat % minMantissa := by
  simp [Float.Model.UnpackedFloat.unpackMantissa, minMantissa_eq]

private theorem ofBitVec_unpackSign (b : BitVec 64) :
    Sign.ofBitVec (@Float.Model.UnpackedFloat.unpackSign Format.binary64 b) =
      toSign (b.toNat >>> 63 = 1) := by
  have hlt := b.isLt
  have hsign : (@Float.Model.UnpackedFloat.unpackSign Format.binary64 b).toNat =
      b.toNat >>> 63 := by
    have hbits : (@Float.Model.UnpackedFloat.unpackSign Format.binary64 b).toNat =
        (b.extractLsb 63 63).toNat := rfl
    simp [hbits, Nat.shiftRight_eq_div_pow]
    omega
  have hbit : b.toNat >>> 63 = 0 ∨ b.toNat >>> 63 = 1 := by
    rw [Nat.shiftRight_eq_div_pow]
    omega
  rcases hbit with h | h
  · rw [BitVec.eq_of_toNat_eq (y := 0#1) (hsign.trans h), h]
    rfl
  · rw [BitVec.eq_of_toNat_eq (y := 1#1) (hsign.trans h), h]
    rfl

private theorem finite_eq_unpacked {s : Sign} {m m' : Nat} {e e' : Int} (hm : 0 < m) (h : m = m')
    (he : e = e') : UnpackedFloat.finite s m e hm = unpacked s m' e' := by
  subst h he
  exact (unpacked_of_ne_zero s hm.ne' e).symm

/-- What the machine unpacks from a finite double. -/
theorem unpack_eq {bits : UInt64} {negative : Bool} {m : Nat} {e : Int}
    (h : ofBits bits = finite negative m e) :
    Float.Model.UnpackedFloat.unpack Format.binary64 bits.toBitVec =
      unpacked (toSign negative) m e := by
  have hexponent := toNat_unpackExponent bits.toBitVec
  have hmantissa := toNat_unpackMantissa bits.toBitVec
  have hbias : ((Format.exponentBias Format.binary64 : Nat) : Int) + (52 : Nat) = 1075 := rfl
  have hfield : ∀ k : BitVec 11, @Float.Model.UnpackedFloat.unpackExponent Format.binary64
      bits.toBitVec = k ↔ bits.toNat >>> 52 % 2048 = k.toNat := fun k => by
    rw [← UInt64.toNat_toBitVec, ← hexponent]
    exact BitVec.toNat_eq
  have hzero : @Float.Model.UnpackedFloat.unpackMantissa Format.binary64 bits.toBitVec = 0#52 ↔
      bits.toNat % minMantissa = 0 := by
    rw [← UInt64.toNat_toBitVec, ← hmantissa]
    exact BitVec.toNat_eq
  rw [UInt64.toNat_toBitVec] at hexponent hmantissa
  -- Both sides split on the same three fields: all ones, a subnormal or zero, and a normal number.
  delta Float.Model.UnpackedFloat.unpack
  dsimp only
  rw [ofBitVec_unpackSign, hbias]
  unfold ofBits at h
  dsimp only at h
  split at h
  · split at h <;> cases h
  · rename_i hfinite
    rw [if_neg (mt (hfield (-1#11)).mp hfinite)]
    split at h
    · rename_i hsubnormal
      cases h
      rw [if_pos ((hfield 0#11).mpr hsubnormal)]
      by_cases hfraction : bits.toNat % minMantissa = 0
      · rw [dif_pos (hzero.mpr hfraction), hfraction, unpacked_zero]
        rfl
      · rw [dif_neg (mt hzero.mp hfraction)]
        exact finite_eq_unpacked _ hmantissa (by rw [hexponent, hsubnormal]; rfl)
    · rename_i hnormal
      cases h
      have hone : (1#1 ++ @Float.Model.UnpackedFloat.unpackMantissa Format.binary64
          bits.toBitVec).toNat = minMantissa + bits.toNat % minMantissa := by
        rw [BitVec.toNat_append, ← Nat.shiftLeft_add_eq_or_of_lt (BitVec.isLt _), hmantissa]
        rfl
      rw [if_neg (mt (hfield 0#11).mp hnormal)]
      exact finite_eq_unpacked _ hone (by rw [hexponent])

end Binary64

end TransitQuery
