import TransitQuery.Proofs.Json.Legible
import TransitQuery.Proofs.Scalar.Steady

/-!
# Numbers are read back

A number is written as its parts, one behind the other: a sign, digits, what stands behind the
point, a power of ten. The reader of numbers finds the same parts (`Json.readNumberText_chars`),
whatever follows the number, and so takes back every integer that fits 64 bits. A scalar is read
from its parts too, but not always as itself, since the reader rounds more than once:
`Json.reread?` is the scalar that comes out, and the reader knows no other way
(`Json.readNumberAs_realChars`).

A number starts with tidy digits (`IsTidy`), which means that it has no zeros before others,
and this the printer has to ensure, because the reader refuses them. A part that is missing is
empty, and the reader knows from the next character that it is missing; hence the condition on what
follows, `Json.IsDelimited`.

The last section is about all that the reader makes of a number, not only of what was written. Its
significand is cut off at 64 bits and then scaled by a power of ten, in floating point, and each
step of this rounds. So the scalar that is read need not be the nearest one to the text, but it is
finite (`Json.NumberText.value?_cases`), or there is none.
-/

namespace TransitQuery

namespace Numeral

/-! ### Leading zeros -/

/-- Digits that a number may start with: one at least, and no zero before another. -/
structure IsTidy (s : List Char) : Prop where
  isDigit : ∀ c ∈ s, c.isDigit = true
  ne_nil : s ≠ []
  eq_zero : s.head? = some '0' → s = ['0']

/-- The digits of a number that is not zero start with another digit. -/
theorem head?_digitChars_ne {n : Nat} (h : n ≠ 0) : (digitChars n).head? ≠ some '0' := by
  induction n using Nat.strong_induction_on with
  | _ n ih =>
    rw [digitChars, Nat.toDigits_eq_if (by decide)]
    split
    · rename_i hlt
      have hdigit : ∀ n < 10, n ≠ 0 → n.digitChar ≠ '0' := by decide
      simpa using hdigit n hlt h
    · rename_i hge
      rw [List.head?_append_of_ne_nil _ Nat.toDigits_ne_nil]
      exact ih (n / 10) (by omega) (by omega)

private theorem isTidy_zero : IsTidy ['0'] :=
  ⟨by simp, by simp, fun _ => rfl⟩

/-- Every start of the digits of a number is tidy, unless it is empty. -/
theorem isTidy_of_append_eq {n : Nat} (h : n ≠ 0) {s t : List Char} (hne : s ≠ [])
    (hs : s ++ t = digitChars n) : IsTidy s where
  isDigit c hc := isDigit_of_mem_digitChars (hs ▸ List.mem_append_left t hc)
  ne_nil := hne
  eq_zero hzero := by
    rw [← List.head?_append_of_ne_nil s hne, hs] at hzero
    exact absurd hzero (head?_digitChars_ne h)

private theorem isTidy_digitChars (n : Nat) : IsTidy (digitChars n) := by
  by_cases h : n = 0
  · subst h
    exact isTidy_zero
  · exact isTidy_of_append_eq h (digitChars_ne_nil n) (List.append_nil _)

private theorem IsTidy.append_zeros {s : List Char} {k : Nat} (h : IsTidy s)
    (hne : s.head? ≠ some '0') :
    IsTidy (s ++ List.replicate k '0') where
  isDigit c hc := (List.mem_append.mp hc).elim (h.isDigit c) isDigit_of_mem_zeros
  ne_nil := by simp [h.ne_nil]
  eq_zero hzero := by
    rw [List.head?_append_of_ne_nil s h.ne_nil] at hzero
    exact absurd hzero hne

private theorem isTidy_positional (digits : Nat) (exponent : Int) :
    IsTidy (positional digits exponent).1 := by
  unfold positional
  split
  · exact isTidy_zero
  rename_i hdigits
  split
  · exact (isTidy_digitChars digits).append_zeros (head?_digitChars_ne hdigits)
  dsimp only
  split
  · refine isTidy_of_append_eq hdigits ?_ (List.take_append_drop _ _)
    refine List.ne_nil_of_length_pos ?_
    rw [List.length_take]
    omega
  · exact isTidy_zero

end Numeral

namespace Json

open Numeral (IsTidy digitChars sign signedChars)

/-! ### The parts of a number -/

namespace NumberText

/-- A number as its parts stand behind each other. -/
def chars (t : NumberText) : List Char :=
  sign t.negative ++ t.whole ++ (t.fraction.elim [] ('.' :: ·)) ++
    (t.power.elim [] fun p => 'e' :: signedChars p)

/-- The parts have the form of parts. -/
structure IsProper (t : NumberText) : Prop where
  whole : IsTidy t.whole
  fraction : ∀ s ∈ t.fraction, s ≠ [] ∧ ∀ c ∈ s, c.isDigit = true

/-- Every text around a point or with a power of ten is the text of such parts. -/
theorem exists_chars_eq (negative : Bool) (digits : Nat) (exponent : Int) :
    ∃ t : NumberText, t.IsProper ∧ (t.fraction.isSome = true ∨ t.power.isSome = true) ∧
      (Numeral.finite negative digits exponent).json = t.chars := by
  rw [Numeral.json_finite, Numeral.unsignedJson]
  split
  -- a text around a point has at least the digit zero behind it
  · obtain ⟨whole, fraction, hpositional, -, hfraction, -, -⟩ :=
      Numeral.exists_positional digits exponent
    have hwhole := Numeral.isTidy_positional digits exponent
    rw [hpositional] at hwhole
    rw [Numeral.pointed, hpositional]
    cases fraction with
    | nil =>
      refine ⟨⟨negative, whole, some ['0'], none⟩, ⟨hwhole, by simp⟩, .inl rfl, ?_⟩
      simp [chars]
    | cons c cs =>
      refine ⟨⟨negative, whole, some (c :: cs), none⟩, ⟨hwhole, ?_⟩, .inl rfl, ?_⟩
      · simpa using hfraction
      · simp [chars]
  · have hdigits : ∀ c ∈ digitChars digits, c.isDigit = true :=
      fun _ hc => Numeral.isDigit_of_mem_digitChars hc
    have hfirst : ∀ d : Char, ∀ s, digitChars digits = d :: s → IsTidy [d] := by
      intro d s hs
      exact ⟨by simpa using hdigits d (by simp [hs]), by simp, by simp⟩
    unfold Numeral.scientific
    split
    · rename_i hnil
      exact absurd hnil (Numeral.digitChars_ne_nil digits)
    · rename_i d hd
      refine ⟨⟨negative, [d], none, some (Numeral.magnitude digits exponent)⟩,
        ⟨hfirst d [] hd, by simp⟩, .inr rfl, ?_⟩
      simp [chars]
    · rename_i d s hne hd
      refine ⟨⟨negative, [d], some s, some (Numeral.magnitude digits exponent)⟩,
        ⟨hfirst d s hd, ?_⟩, .inl rfl, ?_⟩
      · simp only [Option.mem_some_iff, forall_eq']
        refine ⟨fun hs => hne (by simp [hs]), fun c hc => hdigits c ?_⟩
        rw [hd]
        exact List.mem_cons_of_mem d hc
      · simp [chars]

end NumberText

/-- What follows a word is none of the characters of numbers. -/
theorem IsDelimited.ne_cons {c : Char} {s : List Char} (hs : IsDelimited s)
    (hc : isWordChar c = true) (t : List Char) : s ≠ c :: t := by
  rintro rfl
  have hnot : isWordChar c = false := hs c rfl
  rw [hc] at hnot
  cases hnot

theorem IsDelimited.isDigit {s : List Char} (hs : IsDelimited s) :
    ∀ c ∈ s.head?, c.isDigit = false := by
  intro c hc
  have hword := hs c hc
  rw [Bool.eq_false_iff]
  intro hdigit
  rw [isWordChar_of_isNumberChar (.inl hdigit)] at hword
  cases hword

/-- The reader of numbers finds the parts, whatever follows them. -/
theorem readNumberText_chars {t : NumberText} (h : t.IsProper) {rest : List Char}
    (hrest : IsDelimited rest) : readNumberText (t.chars ++ rest) = some (t, rest) := by
  obtain ⟨negative, whole, fraction, power⟩ := t
  obtain ⟨hwhole, hfraction⟩ := h
  dsimp only at hwhole hfraction
  obtain ⟨c, s, rfl⟩ := List.exists_cons_of_ne_nil hwhole.ne_nil
  have hminus : c ≠ '-' := by
    rintro rfl
    exact absurd (hwhole.isDigit '-' List.mem_cons_self) (by decide)
  have hread : ∀ behind : List Char, (∀ c ∈ behind.head?, c.isDigit = false) →
      Numeral.takeDigits (c :: (s ++ behind)) = (c :: s, behind) := fun behind hbehind =>
    Numeral.takeDigits_append hwhole.isDigit hbehind
  -- no zero stands before another digit, which the reader would refuse
  have htidy : ∀ d t, ¬(c = '0' ∧ s = d :: t) := by
    rintro d t ⟨rfl, rfl⟩
    cases hwhole.eq_zero rfl
  have hend := hrest.isDigit
  have hpower : ∀ p, Numeral.takeExponent ('e' :: (signedChars p ++ rest)) = some (p, rest) :=
    fun p => Numeral.takeExponent_signedChars p hend
  have hmark : ∀ p, ∀ c ∈ ('e' :: (signedChars p ++ rest)).head?, c.isDigit = false := by simp
  have hnone : ∀ d t, rest = d :: t → d ≠ '.' ∧ d ≠ 'e' ∧ d ≠ 'E' := by
    rintro d t rfl
    refine ⟨?_, ?_, ?_⟩ <;> rintro rfl <;> exact hrest.ne_cons rfl t rfl
  cases fraction with
  | none =>
    cases power with
    | none =>
      have hwhole := hread rest hend
      cases rest with
      | nil =>
        rw [List.append_nil] at hwhole
        cases negative <;> simp [NumberText.chars, sign, readNumberText, hminus, htidy, hwhole]
      | cons d t =>
        have hd := hnone d t rfl
        cases negative <;> simp [NumberText.chars, sign, readNumberText, hminus, htidy, hwhole, hd]
    | some p =>
      have hwhole := hread _ (hmark p)
      cases negative <;>
        simp [NumberText.chars, sign, readNumberText, hminus, htidy, hwhole, hpower]
  | some f =>
    obtain ⟨hne, hf⟩ := hfraction f rfl
    have hwhole := fun t => hread ('.' :: (f ++ t)) (by simp)
    cases power with
    | none =>
      have hf := Numeral.takeDigits_append hf hend
      cases rest with
      | nil =>
        have hwhole := hwhole []
        rw [List.append_nil] at hwhole hf
        cases negative <;>
          simp [NumberText.chars, sign, readNumberText, hminus, htidy, hwhole, hne, hf]
      | cons d t =>
        have hd := hnone d t rfl
        cases negative <;>
          simp [NumberText.chars, sign, readNumberText, hminus, htidy, hwhole, hne, hf, hd]
    | some p =>
      have hf := Numeral.takeDigits_append hf (hmark p)
      cases negative <;>
        simp [NumberText.chars, sign, readNumberText, hminus, htidy, hwhole, hne, hf, hpower]

/-! ### Integers -/

/-- The integers that numbers without point and power are read as: those of 64 bits, signed or
unsigned. -/
def IsWord64 (i : Int) : Prop :=
  Int64.minValue.toInt ≤ i ∧ i < UInt64.size

variable {R : Type} [Scalar R]

/-- An integer of 64 bits is read back. -/
theorem readNumberAs_integerChars {i : Int} (hi : IsWord64 i) {shape : Shape}
    (hshape : shape ≠ .skipped) {rest : List Char} (hrest : IsDelimited rest) :
    readNumberAs (R := R) shape (integerChars i ++ rest) = some (int i, rest) := by
  set t : NumberText := ⟨decide (i < 0), digitChars i.natAbs, none, none⟩ with ht
  have hproper : t.IsProper := ⟨Numeral.isTidy_digitChars _, by simp [ht]⟩
  have hchars : integerChars i = t.chars := by simp [integerChars, NumberText.chars, ht]
  have hvalue : t.integer? = some i := by
    have hsigned : (if i < 0 then -(i.natAbs : Int) else i.natAbs) = i := by
      split <;> omega
    have hzero : ¬(i < 0 ∧ i.natAbs = 0) := by omega
    simp only [NumberText.integer?, ht, Numeral.ofDigits_digitChars, decide_eq_true_eq, hsigned,
      Option.isSome_none, Bool.false_eq_true, hzero, or_self, if_false]
    exact if_pos hi
  rw [readNumberAs, hchars, readNumberText_chars hproper hrest, Option.bind_some]
  cases shape with
  | skipped => exact absurd rfl hshape
  | _ => simp [NumberText.value?, hvalue]

/-! ### Scalars -/

/-- The scalar that the text of a scalar is read as, if it is read at all. -/
def reread? (x : R) : Option R :=
  ((readNumberText (realChars x)).bind fun (t, _) => t.real?).bind number?

private theorem NumberText.real?_eq_map (t : NumberText) :
    t.real? (R := R) = (t.real?.bind number?).map real := by
  unfold real?
  obtain ⟨n, power⟩ := t.significand
  cases h : scale? (R := R) (Scalar.ofInt n) power <;> simp [h, number?]

/-- A finite scalar is read as what its text is read as, whatever follows it. -/
theorem readNumberAs_realChars [LegibleScalar R] {x : R} (hx : Scalar.isFinite x = true)
    {shape : Shape} (hshape : shape ≠ .skipped) {rest : List Char} (hrest : IsDelimited rest) :
    readNumberAs shape (realChars x ++ rest) = (reread? x).map (real ·, rest) := by
  obtain ⟨negative, digits, exponent, hnumeral⟩ := LegibleScalar.exists_toNumeral hx
  obtain ⟨t, hproper, hmark, hchars⟩ := NumberText.exists_chars_eq negative digits exponent
  have hinteger : t.integer? = none := if_pos (hmark.imp_right .inl)
  have hread := fun rest hrest => @readNumberText_chars t hproper rest hrest
  have hreread : reread? x = t.real?.bind number? := by
    have h := hread [] isDelimited_nil
    rw [List.append_nil] at h
    rw [reread?, realChars, hnumeral, hchars, h, Option.bind_some]
  rw [readNumberAs, realChars, hnumeral, hchars, hread rest hrest, Option.bind_some, hreread]
  have hvalue : t.value? (R := R) = (t.real?.bind number?).map real := by
    rw [NumberText.value?, hinteger, ← NumberText.real?_eq_map]
  cases shape with
  | skipped => exact absurd rfl hshape
  | _ =>
    simp only [hvalue, Option.map_map]
    rfl

/-! ### What numbers are read as -/

/-- The significand has 64 bits, however many digits there are. -/
private theorem takeSignificand_lt {n : Nat} (h : n < UInt64.size) (s : List Char) :
    (takeSignificand n s).1 < UInt64.size := by
  induction s generalizing n with
  | nil => exact h
  | cons c s ih =>
    simp only [takeSignificand]
    split
    · rename_i hnext
      exact ih hnext
    · exact h

private theorem NumberText.significand_lt (t : NumberText) : t.significand.1 < UInt64.size :=
  takeSignificand_lt (takeSignificand_lt (by decide) _) _

private theorem isFinite_of_scale? [SteadyScalar R] {x y : R} {power : Int}
    (hx : Scalar.isFinite x = true) (h : scale? x power = some y) :
    Scalar.isFinite y = true := by
  fun_induction scale? x power with
  | case1 x power hpos hle z hz =>
    rw [← Option.some.inj h]
    exact hz
  | case2 => cases h
  | case3 =>
    cases h
    exact hx
  | case4 => cases h
  | case5 x power hneg hge =>
    cases h
    exact SteadyScalar.isFinite_div hx (by omega) (by omega)
  | case6 =>
    cases h
    exact hx
  | case7 x power hneg hge hzero ih =>
    exact ih (SteadyScalar.isFinite_div hx (by decide) le_rfl) h

private theorem NumberText.exists_of_real? [SteadyScalar R] {t : NumberText} {v : Json R}
    (h : t.real? = some v) : ∃ x, Scalar.isFinite x = true ∧ v = real x := by
  obtain ⟨x, hx, rfl⟩ := Option.map_eq_some_iff.mp h
  refine ⟨_, ?_, rfl⟩
  have hsignificand : Scalar.isFinite (Scalar.ofInt (t.significand.1 : Int) : R) = true :=
    SteadyScalar.isFinite_ofInt (by simpa using t.significand_lt)
  have hfinite := isFinite_of_scale? hsignificand hx
  split
  · exact SteadyScalar.isFinite_neg hfinite
  · exact hfinite

private theorem NumberText.isWord64_of_integer? {t : NumberText} {i : Int}
    (h : t.integer? = some i) :
    IsWord64 i := by
  simp only [integer?] at h
  obtain ⟨-, h⟩ := Option.ite_none_left_eq_some.mp h
  obtain ⟨hrange, heq⟩ := Option.ite_none_right_eq_some.mp h
  rw [Option.some.inj heq] at hrange
  exact hrange

/-- A number is read as an integer of 64 bits or as a finite scalar. -/
theorem NumberText.value?_cases [SteadyScalar R] {t : NumberText} {v : Json R}
    (h : t.value? = some v) :
    (∃ i, IsWord64 i ∧ v = int i) ∨ ∃ x, Scalar.isFinite x = true ∧ v = real x := by
  unfold value? at h
  split at h
  · rename_i i hi
    exact .inl ⟨i, isWord64_of_integer? hi, (Option.some.inj h).symm⟩
  · exact .inr (exists_of_real? h)

/-- The text of a scalar is read as a finite one. -/
theorem isFinite_of_reread? [SteadyScalar R] {x y : R} (h : reread? x = some y) :
    Scalar.isFinite y = true := by
  obtain ⟨v, hv, hy⟩ := Option.bind_eq_some_iff.mp h
  obtain ⟨⟨t, rest⟩, -, hreal⟩ := Option.bind_eq_some_iff.mp hv
  obtain ⟨z, hz, rfl⟩ := NumberText.exists_of_real? hreal
  obtain rfl : z = y := Option.some.inj hy
  exact hz

end Json

end TransitQuery
