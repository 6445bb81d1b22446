import TransitQuery.Decimal.Numeral
import Mathlib.Algebra.Field.Rat
import Mathlib.Algebra.Order.Field.Basic
import Mathlib.Tactic.FieldSimp
import Mathlib.Tactic.Ring

/-!
# The text of a numeral determines its value

`Numeral.json` writes the digits of a numeral around a point or before a power of ten. Reading such
a text back gives the same sign and the same value, though not always the same digits: the value
that ends in zeros has many numerals. Numerals with one text therefore have one value
(`Numeral.scaled_eq_of_json_eq`), and the same holds of the texts among words that
`Numeral.plain` writes (`Numeral.scaled_eq_of_plain_eq`).

Both are proved by reading. For each way of laying digits out there is a lemma that says what the
reader of numerals makes of it: digits around a point (`Numeral.ofUnsignedText?_point`), digits
alone, and a scientific text with a power of ten. `Numeral.exists_positional` and
`Numeral.exists_scientific` say that what is laid out has one of these forms and the right value,
so every text reads back with the value of its numeral (`Numeral.ofUnsignedText?_unsignedJson`,
`Numeral.ofText?_plain`); and two numerals with one text are both what is read from it. The values
are rationals, `Numeral.scaled`, so that no rounding is involved before a numeral is turned into a
scalar.

The characters of the texts are listed as well. They are used elsewhere: a number contains no
delimiter, no letter that a name starts with, and no character that a statement or a geometry would
read as something else.
-/

namespace TransitQuery

namespace Numeral

/-- The number `digits · 10 ^ exponent`. -/
def scaled (digits : Nat) (exponent : Int) : ℚ :=
  digits * 10 ^ exponent

/-- A digit more on the right, and a power of ten less. -/
theorem scaled_mul_pow (digits k : Nat) (exponent : Int) :
    scaled (digits * 10 ^ k) (exponent - k) = scaled digits exponent := by
  unfold scaled
  rw [zpow_sub₀ (by norm_num), zpow_natCast]
  push_cast
  field_simp

/-! ### Runs of digits -/

theorem isDigit_of_mem_digitChars {n : Nat} {c : Char} (h : c ∈ digitChars n) :
    c.isDigit = true :=
  Nat.isDigit_of_mem_toDigits (by omega) (by omega) h

theorem digitChars_ne_nil (n : Nat) : digitChars n ≠ [] :=
  Nat.toDigits_ne_nil

theorem isDigit_of_mem_zeros {n : Nat} {c : Char} (h : c ∈ List.replicate n '0') :
    c.isDigit = true := by
  rw [List.eq_of_mem_replicate h]
  rfl

/-- Digits are worth what the standard library says. -/
private theorem ofDigits_eq (s : List Char) : ofDigits s = Nat.ofDigitChars 10 s 0 :=
  Nat.ofDigitChars_eq_foldl.symm

/-- A number is read back from its digits. -/
@[simp]
theorem ofDigits_digitChars (n : Nat) : ofDigits (digitChars n) = n := by
  rw [ofDigits_eq, digitChars, Nat.ofDigitChars_ten_toDigits]

/-- Zeros on the right multiply by powers of ten. -/
@[simp]
theorem ofDigits_append_zeros (s : List Char) (k : Nat) :
    ofDigits (s ++ List.replicate k '0') = ofDigits s * 10 ^ k := by
  rw [ofDigits_eq, Nat.ofDigitChars_append, Nat.ofDigitChars_replicate_zero, ofDigits_eq,
    Nat.mul_comm]

/-- Zeros on the left are worth nothing. -/
@[simp]
theorem ofDigits_zeros_append (k : Nat) (s : List Char) :
    ofDigits (List.replicate k '0' ++ s) = ofDigits s := by
  rw [ofDigits_eq, Nat.ofDigitChars_append, Nat.ofDigitChars_replicate_zero, Nat.mul_zero,
    ofDigits_eq]

/-- Digits are taken up to something that does not start with a digit. -/
theorem takeDigits_append {s rest : List Char} (hs : ∀ c ∈ s, c.isDigit = true)
    (hrest : ∀ c ∈ rest.head?, c.isDigit = false) : takeDigits (s ++ rest) = (s, rest) := by
  rw [takeDigits, List.takeWhile_append_of_pos hs, List.dropWhile_append_of_pos hs]
  cases rest with
  | nil => simp
  | cons c rest =>
    have hc : c.isDigit = false := hrest c rfl
    simp [hc]

/-- Digits are worth less than the power of ten of their number. -/
theorem ofDigits_lt {s : List Char} (hs : ∀ c ∈ s, c.isDigit = true) :
    ofDigits s < 10 ^ s.length := by
  rw [ofDigits_eq]
  induction s with
  | nil => simp
  | cons c s ih =>
    obtain ⟨hc, hs⟩ := List.forall_mem_cons.mp hs
    have hdigit : c.toNat - '0'.toNat ≤ 9 := by
      have hrange := (Bool.and_eq_true_iff.mp hc).2
      have hle : c.toNat ≤ '9'.toNat := UInt32.le_iff_toNat_le.mp (of_decide_eq_true hrange)
      have hvalues : '9'.toNat = 57 ∧ '0'.toNat = 48 := by decide
      omega
    rw [Nat.ofDigitChars_cons, Nat.ofDigitChars_eq_ofDigitChars_zero, List.length_cons, pow_succ]
    have hrest := ih hs
    have hle : 10 ^ s.length * (10 * 0 + (c.toNat - '0'.toNat)) ≤ 10 ^ s.length * 9 :=
      Nat.mul_le_mul_left _ (by omega)
    omega

/-! ### Padding -/

theorem isDigit_of_mem_padded {width n : Nat} {c : Char} (h : c ∈ padded width n) :
    c.isDigit = true :=
  (List.mem_append.mp h).elim isDigit_of_mem_zeros isDigit_of_mem_digitChars

@[simp]
theorem ofDigits_padded (width n : Nat) : ofDigits (padded width n) = n := by
  rw [padded, ofDigits_zeros_append, ofDigits_digitChars]

theorem padded_ne_nil (width n : Nat) : padded width n ≠ [] :=
  List.append_ne_nil_of_right_ne_nil _ (digitChars_ne_nil n)

/-- A number that does not exceed its width is as wide as that. -/
theorem length_padded {width n : Nat} (hpos : 0 < width) (hn : n < 10 ^ width) :
    (padded width n).length = width := by
  have hle : (digitChars n).length ≤ width :=
    (Nat.length_toDigits_le_iff (by omega) hpos).mpr hn
  rw [padded, List.length_append, List.length_replicate]
  omega

/-! ### Reading what was laid out -/

/-- An unsigned text with a point. -/
theorem ofUnsignedText?_point {negative : Bool} {whole fraction : List Char}
    (hw : ∀ c ∈ whole, c.isDigit = true) (hf : ∀ c ∈ fraction, c.isDigit = true)
    (hne : whole ≠ []) :
    ofUnsignedText? negative (whole ++ '.' :: fraction) =
      some (finite negative (ofDigits (whole ++ fraction)) (-fraction.length)) := by
  have h₁ : takeDigits (whole ++ '.' :: fraction) = (whole, '.' :: fraction) :=
    takeDigits_append hw (by simp)
  have h₂ : takeDigits fraction = (fraction, []) := by
    rw [← takeDigits_append hf (by simp), List.append_nil]
  simp [ofUnsignedText?, h₁, h₂, hne, takeExponent, assemble]

/-- An unsigned text of digits alone. -/
theorem ofUnsignedText?_whole {negative : Bool} {whole : List Char}
    (hw : ∀ c ∈ whole, c.isDigit = true) (hne : whole ≠ []) :
    ofUnsignedText? negative whole = some (finite negative (ofDigits whole) 0) := by
  have h : takeDigits whole = (whole, []) := by
    rw [← takeDigits_append hw (by simp), List.append_nil]
  simp [ofUnsignedText?, h, hne, takeExponent, assemble]

/-- A power of ten with its sign is taken up to something that does not start with a digit. -/
theorem takeExponent_signedChars (i : Int) {rest : List Char}
    (hrest : ∀ c ∈ rest.head?, c.isDigit = false) :
    takeExponent ('e' :: signedChars i ++ rest) = some (i, rest) := by
  have h : takeDigits (digitChars i.natAbs ++ rest) = (digitChars i.natAbs, rest) :=
    takeDigits_append (fun c hc => isDigit_of_mem_digitChars hc) hrest
  obtain ⟨d, ds, hd⟩ := List.exists_cons_of_ne_nil (digitChars_ne_nil i.natAbs)
  have hvalue : ofDigits (d :: ds) = i.natAbs := by rw [← hd, ofDigits_digitChars]
  rw [hd, List.cons_append] at h
  by_cases hi : i < 0
  · simp only [takeExponent, signedChars, hi, if_true, List.cons_append, takeSigned, hd, h, hvalue]
    rw [Option.map_some, Int.ofNat_natAbs_of_nonpos (by omega), Int.neg_neg]
  · simp only [takeExponent, signedChars, hi, if_false, List.cons_append, takeSigned, hd, h, hvalue]
    rw [Option.map_some, Int.natAbs_of_nonneg (by omega)]

/-- An unsigned text with a power of ten. -/
theorem ofUnsignedText?_scientific {negative : Bool} {digits : Nat} {m : Int} :
    ofUnsignedText? negative (scientific digits m) =
      some (finite negative digits (m - ((digitChars digits).length - 1 : Nat))) := by
  have hall : ∀ c ∈ digitChars digits, c.isDigit = true :=
    fun c hc => isDigit_of_mem_digitChars hc
  have hvalue := ofDigits_digitChars digits
  have hpower : takeExponent ('e' :: signedChars m) = some (m, []) := by
    have hnil : ∀ c ∈ ([] : List Char).head?, c.isDigit = false := by simp
    simpa using takeExponent_signedChars m hnil
  unfold scientific
  split
  · rename_i hd
    exact absurd hd (digitChars_ne_nil digits)
  · rename_i d hd
    rw [hd] at hall hvalue ⊢
    have h₁ : takeDigits (d :: 'e' :: signedChars m) = ([d], 'e' :: signedChars m) :=
      takeDigits_append (s := [d]) hall (by simp)
    simp [ofUnsignedText?, h₁, hpower, assemble, hvalue]
  · rename_i d ds _ hd
    rw [hd] at hall hvalue ⊢
    obtain ⟨hfirst, hrest⟩ := List.forall_mem_cons.mp hall
    have h₁ : takeDigits (d :: '.' :: (ds ++ 'e' :: signedChars m)) =
        ([d], '.' :: (ds ++ 'e' :: signedChars m)) :=
      takeDigits_append (s := [d]) (by simpa using hfirst) (by simp)
    have h₂ : takeDigits (ds ++ 'e' :: signedChars m) = (ds, 'e' :: signedChars m) :=
      takeDigits_append hrest (by simp)
    simp [ofUnsignedText?, h₁, h₂, hpower, assemble, hvalue]

/-! ### Laying out and reading back -/

/-- Digits are placed as they look: digits on either side of the point, which together with their
places have the value that was laid out. -/
theorem exists_positional (digits : Nat) (exponent : Int) :
    ∃ whole fraction : List Char, positional digits exponent = (whole, fraction) ∧
      (∀ c ∈ whole, c.isDigit = true) ∧ (∀ c ∈ fraction, c.isDigit = true) ∧ whole ≠ [] ∧
      scaled (ofDigits (whole ++ fraction)) (-fraction.length) = scaled digits exponent := by
  have hall : ∀ c ∈ digitChars digits, c.isDigit = true :=
    fun c hc => isDigit_of_mem_digitChars hc
  have hzero : ∀ c ∈ ['0'], c.isDigit = true := by simp
  unfold positional
  by_cases h₀ : digits = 0
  · rw [if_pos h₀]
    refine ⟨['0'], [], rfl, hzero, by simp, by simp, ?_⟩
    simp [h₀, scaled, ofDigits]
  rw [if_neg h₀]
  by_cases h₁ : 0 ≤ exponent
  · -- the zeros of the power stand before the point
    obtain ⟨k, rfl⟩ := Int.eq_ofNat_of_zero_le h₁
    refine ⟨digitChars digits ++ List.replicate k '0', [], by simp [h₁],
      fun c hc => (List.mem_append.mp hc).elim (hall c) isDigit_of_mem_zeros, by simp,
      by simp [digitChars_ne_nil], ?_⟩
    rw [List.append_nil, ofDigits_append_zeros, ofDigits_digitChars]
    have h := scaled_mul_pow digits k k
    rw [sub_self] at h
    exact h
  obtain ⟨places, hplaces, rfl⟩ : ∃ n : Nat, 0 < n ∧ exponent = -n :=
    ⟨(-exponent).toNat, by omega, by omega⟩
  simp only [h₁, if_false, neg_neg, Int.toNat_natCast]
  by_cases h₂ : places < (digitChars digits).length
  · -- the point stands among the digits
    refine ⟨(digitChars digits).take ((digitChars digits).length - places),
      (digitChars digits).drop ((digitChars digits).length - places), by rw [if_pos h₂],
      fun c hc => hall c (List.mem_of_mem_take hc), fun c hc => hall c (List.mem_of_mem_drop hc),
      ?_, ?_⟩
    · refine List.ne_nil_of_length_pos ?_
      rw [List.length_take]
      omega
    · have hlength : ((digitChars digits).drop ((digitChars digits).length - places)).length =
          places := by
        rw [List.length_drop]
        omega
      rw [List.take_append_drop, ofDigits_digitChars, hlength]
  · -- zeros stand between the point and the digits
    refine ⟨['0'], List.replicate (places - (digitChars digits).length) '0' ++ digitChars digits,
      by rw [if_neg h₂], hzero,
      fun c hc => (List.mem_append.mp hc).elim isDigit_of_mem_zeros (hall c), by simp, ?_⟩
    have hlength : (List.replicate (places - (digitChars digits).length) '0' ++
        digitChars digits).length = places := by
      rw [List.length_append, List.length_replicate]
      omega
    rw [hlength, ← List.append_assoc, ← List.replicate_one, ← List.replicate_add,
      ofDigits_zeros_append, ofDigits_digitChars]

/-- Digits around a point. -/
def pointed (digits : Nat) (exponent : Int) : List Char :=
  match positional digits exponent with
  | (whole, []) => whole ++ ['.', '0']
  | (whole, fraction) => whole ++ '.' :: fraction

/-- So it is with a point and a digit on either side of it. -/
theorem exists_pointed (digits : Nat) (exponent : Int) :
    ∃ whole fraction : List Char, pointed digits exponent = whole ++ '.' :: fraction ∧
      (∀ c ∈ whole, c.isDigit = true) ∧ (∀ c ∈ fraction, c.isDigit = true) ∧ whole ≠ [] ∧
      scaled (ofDigits (whole ++ fraction)) (-fraction.length) = scaled digits exponent := by
  obtain ⟨whole, fraction, htext, hw, hf, hne, hvalue⟩ := exists_positional digits exponent
  rw [pointed, htext]
  cases fraction with
  | nil =>
    refine ⟨whole, ['0'], rfl, hw, by simp, hne, ?_⟩
    rw [← hvalue, List.append_nil]
    have h := scaled_mul_pow (ofDigits whole) 1 0
    rw [← ofDigits_append_zeros] at h
    exact h
  | cons c cs => exact ⟨whole, c :: cs, rfl, hw, hf, hne, hvalue⟩

/-- The text of a numeral behind its sign. -/
def unsignedJson (digits : Nat) (exponent : Int) : List Char :=
  if -5 ≤ magnitude digits exponent ∧ magnitude digits exponent < 16 then pointed digits exponent
  else scientific digits (magnitude digits exponent)

/-- A text in JSON is a sign and a text without one. -/
theorem json_finite (negative : Bool) (digits : Nat) (exponent : Int) :
    (finite negative digits exponent).json = sign negative ++ unsignedJson digits exponent := rfl

/-- The text of a numeral without its sign reads back with the same value. -/
theorem ofUnsignedText?_unsignedJson (negative : Bool) (digits : Nat) (exponent : Int) :
    ∃ d k, ofUnsignedText? negative (unsignedJson digits exponent) = some (finite negative d k) ∧
      scaled d k = scaled digits exponent := by
  unfold unsignedJson
  split
  · obtain ⟨whole, fraction, htext, hw, hf, hne, hvalue⟩ := exists_pointed digits exponent
    exact ⟨_, _, by rw [htext, ofUnsignedText?_point hw hf hne], hvalue⟩
  · refine ⟨_, _, ofUnsignedText?_scientific, ?_⟩
    -- zero has magnitude zero and is never written with a power of ten
    have hdigits : digits ≠ 0 := by
      rintro rfl
      simp_all [magnitude]
    have hlength := List.length_pos_of_ne_nil (digitChars_ne_nil digits)
    rw [magnitude, if_neg hdigits]
    congr 1
    omega

/-! ### The characters of a text -/

/-- A scientific text is a digit, what may stand behind a point, and a power of ten. -/
theorem exists_scientific (digits : Nat) (m : Int) :
    ∃ (d : Char) (fraction : List Char), scientific digits m =
      d :: (fraction ++ 'e' :: signedChars m) ∧ d.isDigit = true ∧
      ∀ c ∈ fraction, c.isDigit = true ∨ c = '.' := by
  have hall : ∀ c ∈ digitChars digits, c.isDigit = true :=
    fun c hc => isDigit_of_mem_digitChars hc
  unfold scientific
  split
  · rename_i hd
    exact absurd hd (digitChars_ne_nil digits)
  · rename_i d hd
    rw [hd] at hall
    exact ⟨d, [], rfl, hall d List.mem_cons_self, by simp⟩
  · rename_i d ds _ hd
    rw [hd] at hall
    obtain ⟨hfirst, hrest⟩ := List.forall_mem_cons.mp hall
    refine ⟨d, '.' :: ds, rfl, hfirst, fun c hc => ?_⟩
    obtain rfl | hc := List.mem_cons.mp hc
    · exact .inr rfl
    · exact .inl (hrest c hc)

/-- A character that number texts are made of. -/
def IsNumberChar (c : Char) : Prop :=
  c.isDigit = true ∨ c ∈ ['-', '+', '.', 'e']

private theorem isNumberChar_of_mem_signedChars {i : Int} {c : Char} (h : c ∈ signedChars i) :
    IsNumberChar c := by
  obtain rfl | h := List.mem_cons.mp h
  · right
    split <;> simp
  · exact .inl (isDigit_of_mem_digitChars h)

/-- Behind its sign a text starts with a digit, is made of the characters of numbers, and has a
point or a power of ten. -/
theorem unsignedJson_shape (digits : Nat) (exponent : Int) :
    (∃ c s, unsignedJson digits exponent = c :: s ∧ c.isDigit = true) ∧
      (∀ c ∈ unsignedJson digits exponent, IsNumberChar c) ∧
      ('.' ∈ unsignedJson digits exponent ∨ 'e' ∈ unsignedJson digits exponent) := by
  unfold unsignedJson
  split
  · obtain ⟨whole, fraction, htext, hw, hf, hne, -⟩ := exists_pointed digits exponent
    rw [htext]
    refine ⟨?_, fun c hc => ?_, .inl (by simp)⟩
    · obtain ⟨c, s, rfl⟩ := List.exists_cons_of_ne_nil hne
      exact ⟨c, _, rfl, hw c List.mem_cons_self⟩
    · obtain hc | hc := List.mem_append.mp hc
      · exact .inl (hw c hc)
      obtain rfl | hc := List.mem_cons.mp hc
      · exact .inr (by simp)
      · exact .inl (hf c hc)
  · obtain ⟨d, fraction, htext, hd, hf⟩ := exists_scientific digits (magnitude digits exponent)
    rw [htext]
    refine ⟨⟨d, _, rfl, hd⟩, fun c hc => ?_, .inr (by simp)⟩
    obtain rfl | hc := List.mem_cons.mp hc
    · exact .inl hd
    obtain hc | hc := List.mem_append.mp hc
    · exact (hf c hc).imp id (by rintro rfl; simp)
    obtain rfl | hc := List.mem_cons.mp hc
    · exact .inr (by simp)
    · exact isNumberChar_of_mem_signedChars hc

/-- A sign can be told from what follows it. -/
theorem sign_append_inj {a b : Bool} {s t : List Char} (hs : ∃ c s', s = c :: s' ∧ c.isDigit = true)
    (ht : ∃ c t', t = c :: t' ∧ c.isDigit = true) (h : sign a ++ s = sign b ++ t) :
    a = b ∧ s = t := by
  obtain ⟨c, s', rfl, hc⟩ := hs
  obtain ⟨d, t', rfl, hd⟩ := ht
  cases a <;> cases b
  · exact ⟨rfl, h⟩
  · obtain rfl : c = '-' := (List.cons.inj h).1
    simp at hc
  · obtain rfl : '-' = d := (List.cons.inj h).1
    simp at hd
  · exact ⟨rfl, (List.cons.inj h).2⟩

/-- Numerals with one text have one sign and one value. -/
theorem scaled_eq_of_json_eq {a b : Bool} {d d' : Nat} {e e' : Int}
    (h : (finite a d e).json = (finite b d' e').json) : a = b ∧ scaled d e = scaled d' e' := by
  rw [json_finite, json_finite] at h
  obtain ⟨rfl, htext⟩ := sign_append_inj (unsignedJson_shape d e).1 (unsignedJson_shape d' e').1 h
  obtain ⟨_, _, hread, hvalue⟩ := ofUnsignedText?_unsignedJson a d e
  obtain ⟨_, _, hread', hvalue'⟩ := ofUnsignedText?_unsignedJson a d' e'
  -- one text is read back as one numeral
  rw [htext, hread'] at hread
  obtain ⟨-, rfl, rfl⟩ := finite.inj (Option.some.inj hread)
  exact ⟨rfl, hvalue.symm.trans hvalue'⟩

/-! ### Numerals among words -/

/-- The text of a numeral among words, behind its sign. -/
def unsignedPlain (digits : Nat) (exponent : Int) : List Char :=
  match positional digits exponent with
  | (whole, []) => whole
  | (whole, fraction) => whole ++ '.' :: fraction

/-- A text among words is a sign and a text without one. -/
theorem plain_finite (negative : Bool) (digits : Nat) (exponent : Int) :
    (finite negative digits exponent).plain = sign negative ++ unsignedPlain digits exponent := by
  rw [plain, unsignedPlain]
  obtain ⟨whole, fraction⟩ := positional digits exponent
  cases fraction with
  | nil => rfl
  | cons c cs => exact List.append_assoc _ _ _

/-- Among words a numeral is digits, and perhaps more of them behind a point. -/
theorem exists_unsignedPlain (digits : Nat) (exponent : Int) :
    ∃ whole fraction tail : List Char, unsignedPlain digits exponent = whole ++ tail ∧
      (tail = [] ∧ fraction = [] ∨ tail = '.' :: fraction) ∧
      (∀ c ∈ whole, c.isDigit = true) ∧ (∀ c ∈ fraction, c.isDigit = true) ∧ whole ≠ [] ∧
      scaled (ofDigits (whole ++ fraction)) (-fraction.length) = scaled digits exponent := by
  obtain ⟨whole, fraction, htext, hw, hf, hne, hvalue⟩ := exists_positional digits exponent
  rw [unsignedPlain, htext]
  cases fraction with
  | nil => exact ⟨whole, [], [], (List.append_nil _).symm, .inl ⟨rfl, rfl⟩, hw, hf, hne, hvalue⟩
  | cons c cs => exact ⟨whole, c :: cs, _, rfl, .inr rfl, hw, hf, hne, hvalue⟩

/-- Among words a numeral starts with a digit, behind its sign. -/
theorem exists_unsignedPlain_eq_cons (digits : Nat) (exponent : Int) :
    ∃ c s, unsignedPlain digits exponent = c :: s ∧ c.isDigit = true := by
  obtain ⟨whole, -, tail, htext, -, hw, -, hne, -⟩ := exists_unsignedPlain digits exponent
  obtain ⟨c, s, rfl⟩ := List.exists_cons_of_ne_nil hne
  exact ⟨c, s ++ tail, htext, hw c List.mem_cons_self⟩

/-- Numerals with one text among words have one sign and one value. -/
theorem scaled_eq_of_plain_eq {a b : Bool} {d d' : Nat} {e e' : Int}
    (h : (finite a d e).plain = (finite b d' e').plain) : a = b ∧ scaled d e = scaled d' e' := by
  rw [plain_finite, plain_finite] at h
  obtain ⟨rfl, htext⟩ := sign_append_inj (exists_unsignedPlain_eq_cons d e)
    (exists_unsignedPlain_eq_cons d' e') h
  obtain ⟨whole, fraction, tail, h₁, htail, hw, -, -, hvalue⟩ := exists_unsignedPlain d e
  obtain ⟨whole', fraction', tail', h₁', htail', hw', -, -, hvalue'⟩ := exists_unsignedPlain d' e'
  have hstop : ∀ {tail fraction : List Char}, tail = [] ∧ fraction = [] ∨ tail = '.' :: fraction →
      ∀ c ∈ tail.head?, c.isDigit = false := by
    rintro tail fraction (⟨rfl, -⟩ | rfl) <;> simp
  -- the digits before the point end where the point or the text does
  have htake := takeDigits_append hw (hstop htail)
  rw [← h₁, htext, h₁', takeDigits_append hw' (hstop htail')] at htake
  obtain ⟨rfl, rfl⟩ := Prod.mk.inj htake
  have hfraction : fraction = fraction' := by
    rcases htail with ⟨rfl, rfl⟩ | rfl
    · rcases htail' with ⟨-, rfl⟩ | h
      · rfl
      · cases h
    · rcases htail' with ⟨h, -⟩ | h
      · cases h
      · exact (List.cons.inj h).2
  refine ⟨rfl, ?_⟩
  rw [← hvalue, ← hvalue', hfraction]

/-- The characters that numerals among words are made of. -/
theorem mem_plain {n : Numeral} {c : Char} (h : c ∈ n.plain) :
    c.isDigit = true ∨ c ∈ ['-', '.', 'N', 'a', 'i', 'n', 'f'] := by
  have hsign : ∀ {negative : Bool}, c ∈ sign negative → c = '-' := by
    rintro (_ | _) h
    · cases h
    · exact List.mem_singleton.mp h
  cases n with
  | nan =>
    have hsub : ['N', 'a', 'N'] ⊆ ['-', '.', 'N', 'a', 'i', 'n', 'f'] := by simp
    exact .inr (hsub h)
  | infinite negative =>
    rcases List.mem_append.mp h with h | h
    · exact .inr (by simp [hsign h])
    · have hsub : ['i', 'n', 'f'] ⊆ ['-', '.', 'N', 'a', 'i', 'n', 'f'] := by simp
      exact .inr (hsub h)
  | finite negative digits exponent =>
    rw [plain_finite] at h
    obtain ⟨whole, fraction, tail, htext, htail, hw, hf, -, -⟩ :=
      exists_unsignedPlain digits exponent
    rw [htext] at h
    rcases List.mem_append.mp h with h | h
    · exact .inr (by simp [hsign h])
    rcases List.mem_append.mp h with h | h
    · exact .inl (hw c h)
    rcases htail with ⟨rfl, -⟩ | rfl
    · cases h
    rcases List.mem_cons.mp h with rfl | h
    · exact .inr (by simp)
    · exact .inl (hf c h)

/-- What is laid out among words without a sign reads back with its value. -/
theorem ofUnsignedText?_unsignedPlain (negative : Bool) (digits : Nat) (exponent : Int) :
    ∃ d k, ofUnsignedText? negative (unsignedPlain digits exponent) = some (finite negative d k) ∧
      scaled d k = scaled digits exponent := by
  obtain ⟨whole, fraction, tail, htext, htail, hw, hf, hne, hvalue⟩ :=
    exists_unsignedPlain digits exponent
  rw [htext]
  refine ⟨_, _, ?_, hvalue⟩
  rcases htail with ⟨rfl, rfl⟩ | rfl
  · rw [List.append_nil, ofUnsignedText?_whole hw hne]
    simp
  · exact ofUnsignedText?_point hw hf hne

private theorem toLower_eq_self {c : Char} (hc : c.isDigit = true) : c.toLower = c := by
  simp only [Char.isDigit, ge_iff_le, Bool.and_eq_true, decide_eq_true_eq] at hc
  refine dif_neg fun hletter => ?_
  exact absurd (UInt32.le_trans hletter.1 hc.2) (by decide)

/-- A text that starts with a digit is no name. -/
theorem ofText?_sign_append {negative : Bool} {c : Char} {s : List Char} (hc : c.isDigit = true) :
    ofText? (sign negative ++ c :: s) = ofUnsignedText? negative (c :: s) := by
  have hname : ∀ name : String, (∀ d ∈ name.toList.head?, d.isDigit = false) →
      String.ofList ((c :: s).map Char.toLower) ≠ name := by
    rintro _ hhead rfl
    have hfirst := hhead c (by simp [toLower_eq_self hc])
    rw [hc] at hfirst
    cases hfirst
  have hinf := hname "inf" (by simp)
  have hinfinity := hname "infinity" (by simp)
  have hnan := hname "nan" (by simp)
  cases negative with
  | true =>
    simp only [sign, if_true, List.cons_append, List.nil_append, ofText?, hinf, hinfinity, hnan,
      or_self, if_false]
  | false =>
    have hminus : c ≠ '-' := by
      rintro rfl
      cases hc
    have hplus : c ≠ '+' := by
      rintro rfl
      cases hc
    rw [sign, if_neg (by decide), List.nil_append, ofText?]
    · simp only [hinf, hinfinity, hnan, or_self, if_false]
    · exact fun t h => hminus (List.cons.inj h).1
    · exact fun t h => hplus (List.cons.inj h).1

/-- A numeral among words reads back with its sign and its value. -/
theorem ofText?_plain (negative : Bool) (digits : Nat) (exponent : Int) :
    ∃ d k, ofText? (plain (finite negative digits exponent)) = some (finite negative d k) ∧
      scaled d k = scaled digits exponent := by
  obtain ⟨c, s, hcons, hc⟩ := exists_unsignedPlain_eq_cons digits exponent
  obtain ⟨d, k, hread, hvalue⟩ := ofUnsignedText?_unsignedPlain negative digits exponent
  refine ⟨d, k, ?_, hvalue⟩
  rw [hcons] at hread
  rw [plain_finite, hcons, ofText?_sign_append hc, hread]

end Numeral

end TransitQuery
