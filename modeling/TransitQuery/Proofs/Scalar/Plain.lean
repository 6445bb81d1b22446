import TransitQuery.Proofs.Scalar.Legible

/-!
# Scalars that are known among words

In SQL and in Well-Known Text scalars stand among words, quotes and parentheses. A type of scalars
is *plain* if no two of them are written alike there, and none with a character at which a word
ends. Doubles are, infinite ones and the one that is no number included
(`Double.eq_of_parts_eq`), whatever the trigonometric functions of the machine may be.

Among words a scalar need not be finite: `inf` and `NaN` are written as such, where JSON has `null`
for both. A finite double is written as in JSON, but perhaps without a point, and the characters
are digits, a sign, a point and the letter of the exponent, none of which is a delimiter
(`Text.isDelimiter`).

A double is known from its parts, and its parts are known from their text; for what is no number
this takes that its bits are always the same (`Double.eq_packedNaN`), since the text does not tell
them apart.
-/

namespace TransitQuery

/-- The characters at which words end. -/
def Text.isDelimiter (c : Char) : Bool :=
  ['"', '\'', '(', ')', ',', ' '].contains c

/-- A type of scalars that are known from their text among words. -/
class PlainScalar (R : Type) [Scalar R] : Prop where
  /-- No two scalars are written alike. -/
  eq_of_chars_eq : ∀ {x y : R}, Scalar.chars x = Scalar.chars y → x = y
  /-- A scalar is a single word. -/
  isDelimiter_eq_false : ∀ {x : R} {c : Char}, c ∈ Scalar.chars x → Text.isDelimiter c = false

/-- No character of a number ends a word. -/
private theorem Numeral.isDelimiter_of_mem_plain {n : Numeral} {c : Char} (h : c ∈ n.plain) :
    Text.isDelimiter c = false := by
  rcases Numeral.mem_plain h with hdigit | hletter
  · have hne : ∀ d ∈ ['"', '\'', '(', ')', ',', ' '], c ≠ d := by
      rintro d hd rfl
      have hnone : ['"', '\'', '(', ')', ',', ' '].any Char.isDigit = false := by decide
      exact List.any_eq_false.mp hnone _ hd hdigit
    simpa [Text.isDelimiter] using hne
  · have hnone : ['-', '.', 'N', 'a', 'i', 'n', 'f'].any Text.isDelimiter = false := by decide
    exact Bool.eq_false_iff.mpr (List.any_eq_false.mp hnone c hletter)

namespace Double

/-- The bits of a double that is no number are always the same. -/
theorem eq_packedNaN {x : Float} (h : parts x = .nan) :
    x.toBits.toBitVec = Float.Model.UnpackedFloat.packedNaN Float.Model.Format.binary64 := by
  obtain ⟨hexponent, hfraction⟩ := Binary64.of_ofBits_eq_nan h
  have hbits : x.toModel.toBits = x.toBits := rfl
  refine x.toModel.valid.eq_packedNaN ?_ ?_
  · refine BitVec.eq_of_toNat_eq ?_
    simpa [Float.Model.UnpackedFloat.unpackExponent, hbits] using hexponent
  · intro hzero
    refine hfraction ?_
    have hmod := congrArg BitVec.toNat hzero
    simpa [Float.Model.UnpackedFloat.unpackMantissa, Binary64.minMantissa, hbits] using hmod

/-- A double is known from its parts. -/
theorem eq_of_parts_eq {x y : Float} (h : parts x = parts y) : x = y := by
  refine eq_of_toBits_eq ?_
  cases hx : parts x with
  | nan =>
    have hbits := (eq_packedNaN hx).trans (eq_packedNaN (h.symm.trans hx)).symm
    exact UInt64.toBitVec_inj.mp hbits
  | infinite negative => exact Binary64.ofBits_inj_of_infinite hx (h.symm.trans hx)
  | finite negative mantissa exponent => exact Binary64.ofBits_inj hx (h.symm.trans hx)

instance plain (sin cos : Float → Float) (atan2 : Float → Float → Float) :
    @PlainScalar Float (scalar sin cos atan2) :=
  letI := scalar sin cos atan2
  { eq_of_chars_eq := fun h => eq_of_parts_eq <|
      Binary64.eq_of_shortest_plain_eq (fun _ _ _ hx => Binary64.ofBits_isCanonical hx)
        (fun _ _ _ hy => Binary64.ofBits_isCanonical hy) h
    isDelimiter_eq_false := Numeral.isDelimiter_of_mem_plain }

end Double

end TransitQuery
