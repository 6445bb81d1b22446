import TransitQuery.Proofs.Decimal.Numeral
import TransitQuery.Proofs.Text.Blank
import TransitQuery.Proofs.Time.Calendar

/-!
# Instants are read back

Whatever text an instant was read from, its own text is read as the same instant
(`Instant.ofText?_toText_of_ofText?`). The reader is lenient and the writer is not: an offset, a
blank or a short field of the text is gone, but the second that it names is kept, and so is a leap
second, which stays the last of its minute because offsets are whole minutes.

* `Instant.IsReadable`: the instants that a text can name. Their year has a bound, and a leap
  second is the last second of a minute.
* `Instant.isReadable_of_ofText?`: whatever the reader makes of a text is such an instant.
* `Instant.IsReadable.ofText?_toText`: and such an instant is read back from its own text.

The second statement follows the text field by field. A year is written with a sign if it has more
than four digits or is negative, and the reader takes as many digits then as there are; a fraction
of a second is written with three, six or nine digits, or left out. The fields name a date and a
time of day, and the calendar leads back from these to the second
(`Instant.daysFromDate_dateFromDays`).
-/

namespace TransitQuery

namespace Instant

/-! ### Characters -/

private theorem isBlank_of_isDigit {c : Char} (h : c.isDigit = true) : Text.isBlank c = false := by
  rw [Bool.eq_false_iff]
  intro hblank
  obtain ⟨r, hr, hlow, hhigh⟩ := Text.isWithin_iff.mp hblank
  have hrange : 48 ≤ c.toNat ∧ c.toNat ≤ 57 := by
    obtain ⟨hge, hle⟩ := Bool.and_eq_true_iff.mp h
    exact ⟨UInt32.le_iff_toNat_le.mp (of_decide_eq_true hge),
      UInt32.le_iff_toNat_le.mp (of_decide_eq_true hle)⟩
  simp only [Text.blankRanges, List.mem_cons, List.not_mem_nil, or_false] at hr
  obtain rfl | rfl | rfl | rfl | rfl | rfl | rfl | rfl | rfl | rfl := hr <;>
    simp only at hlow hhigh <;> omega

private theorem trimStart_digits {s rest : List Char} (hs : ∀ c ∈ s, c.isDigit = true)
    (hne : s ≠ []) :
    Text.trimStart (s ++ rest) = s ++ rest := by
  obtain ⟨c, s, rfl⟩ := List.exists_cons_of_ne_nil hne
  exact Text.trimStart_cons (isBlank_of_isDigit (hs c List.mem_cons_self))

private theorem expect_cons {c : Char} (h : Text.isBlank c = false) (s : List Char) :
    expect c (c :: s) = some s := by
  rw [expect, Text.trimStart_cons h]
  simp

/-! ### Numbers -/

/-- Digits are taken as a number if no more of them are asked for, or none follow. -/
theorem takeNumber_append {most : Nat} {s : List Char} (hs : ∀ c ∈ s, c.isDigit = true)
    (hne : s ≠ []) (hlength : s.length ≤ most) (rest : List Char)
    (hrest : s.length = most ∨ ∀ c ∈ rest.head?, c.isDigit = false) :
    takeNumber most (s ++ rest) = some (Numeral.ofDigits s, rest) := by
  have htaken : ((s ++ rest).take most).takeWhile Char.isDigit = s := by
    rw [List.take_append, List.take_of_length_le hlength, List.takeWhile_append_of_pos hs]
    obtain hlength | hrest := hrest
    · simp [hlength]
    · cases rest with
      | nil => simp
      | cons c rest =>
        cases most - s.length with
        | zero => simp
        | succ n => simp [hrest c rfl]
  rw [takeNumber, trimStart_digits hs hne]
  simp [htaken, hne]

/-- A number that is padded to its width is read back. -/
private theorem takeNumber_padded {width n : Nat} (hpos : 0 < width) (hn : n < 10 ^ width)
    (rest : List Char) : takeNumber width (Numeral.padded width n ++ rest) = some (n, rest) := by
  have hlength := Numeral.length_padded hpos hn
  have h := takeNumber_append (fun _ => Numeral.isDigit_of_mem_padded)
    (Numeral.padded_ne_nil width n) hlength.le rest (.inl hlength)
  rwa [Numeral.ofDigits_padded] at h

/-- Any number of digits are taken as a number in front of something that is no digit. -/
theorem takeNumber_length_padded (width n : Nat) {c : Char} {rest : List Char}
    (hc : c.isDigit = false) :
    takeNumber (Numeral.padded width n ++ c :: rest).length
      (Numeral.padded width n ++ c :: rest) = some (n, c :: rest) := by
  have h := takeNumber_append (fun _ => Numeral.isDigit_of_mem_padded)
    (Numeral.padded_ne_nil width n)
    (by simp : _ ≤ (Numeral.padded width n ++ c :: rest).length) (c :: rest) (.inr (by simpa))
  rwa [Numeral.ofDigits_padded] at h

/-! ### Years -/

private theorem head?_padded (width n : Nat) (rest : List Char) :
    ((Numeral.padded width n ++ rest).head?.any Char.isDigit) = true := by
  obtain ⟨d, t, hd⟩ := List.exists_cons_of_ne_nil (Numeral.padded_ne_nil width n)
  have hdigit : d ∈ Numeral.padded width n := hd ▸ List.mem_cons_self
  rw [hd]
  exact Numeral.isDigit_of_mem_padded hdigit

/-- A year with a minus sign is read with all its digits. -/
private theorem takeYear_minus (width n : Nat) {c : Char} {rest : List Char}
    (hc : c.isDigit = false) :
    takeYear ('-' :: (Numeral.padded width n ++ c :: rest)) = some (-(n : Int), c :: rest) := by
  rw [takeYear, Text.trimStart_cons (by decide)]
  refine (if_pos (head?_padded width n _)).trans ?_
  rw [takeNumber_length_padded width n hc]
  rfl

private theorem takeYear_plus (width n : Nat) {c : Char} {rest : List Char}
    (hc : c.isDigit = false) :
    takeYear ('+' :: (Numeral.padded width n ++ c :: rest)) = some ((n : Int), c :: rest) := by
  rw [takeYear, Text.trimStart_cons (by decide)]
  refine (if_pos (head?_padded width n _)).trans ?_
  rw [takeNumber_length_padded width n hc]
  rfl

/-- A year without a sign has four digits. -/
private theorem takeYear_digits {d : Char} {t : List Char} (hd : d.isDigit = true) :
    takeYear (d :: t) = (takeNumber 4 (d :: t)).map fun (n, rest) => ((n : Int), rest) := by
  rw [takeYear, Text.trimStart_cons (isBlank_of_isDigit hd)]
  split
  · rename_i h
    obtain rfl := (List.cons.inj h).1
    cases hd
  · rename_i h
    obtain rfl := (List.cons.inj h).1
    cases hd
  · rfl

/-- A year is read back in front of something that is no digit. -/
theorem takeYear_yearChars (year : Int) {c : Char} {rest : List Char} (hc : c.isDigit = false) :
    takeYear (yearChars year ++ c :: rest) = some (year, c :: rest) := by
  unfold yearChars
  by_cases hshort : 0 ≤ year ∧ year ≤ 9999
  · rw [if_pos hshort]
    obtain ⟨d, t, hd⟩ := List.exists_cons_of_ne_nil (Numeral.padded_ne_nil 4 year.toNat)
    have hdigit : d.isDigit = true := Numeral.isDigit_of_mem_padded (hd ▸ List.mem_cons_self)
    have hread := takeNumber_padded (by omega : 0 < 4) (by omega : year.toNat < 10 ^ 4) (c :: rest)
    rw [hd, List.cons_append] at hread ⊢
    rw [takeYear_digits hdigit, hread, Option.map_some]
    dsimp only
    rw [Int.toNat_of_nonneg hshort.1]
  · rw [if_neg hshort]
    by_cases hneg : year < 0
    · rw [if_pos hneg, if_pos hneg, List.cons_append, takeYear_minus 4 _ hc]
      congr
      omega
    · rw [if_neg hneg, if_neg hneg, List.cons_append, takeYear_plus 5 _ hc]
      congr
      omega

/-! ### Fractions of a second -/

/-- What is read behind a point: digits of which nine count, as many as three, six or nine. -/
theorem takeFraction_point {width n : Nat} (hpos : 0 < width) (hwidth : width ≤ 9)
    (hn : n < 10 ^ width) (rest : List Char) :
    takeFraction ('.' :: (Numeral.padded width n ++ 'Z' :: rest)) =
      some (n * 10 ^ (9 - width), 'Z' :: rest) := by
  have hdigits : Numeral.takeDigits (Numeral.padded width n ++ 'Z' :: rest) =
      (Numeral.padded width n, 'Z' :: rest) :=
    Numeral.takeDigits_append (fun _ => Numeral.isDigit_of_mem_padded) (by simp)
  have hlength := Numeral.length_padded hpos hn
  rw [takeFraction, hdigits]
  split
  · rename_i h
    exact absurd (Prod.mk.inj h).1 (Numeral.padded_ne_nil width n)
  · rename_i h
    obtain ⟨rfl, rfl⟩ := Prod.mk.inj h
    dsimp only
    rw [List.take_of_length_le (by omega), hlength, Numeral.ofDigits_append_zeros,
      Numeral.ofDigits_padded]

/-- A fraction of a second is read back in front of a letter. -/
theorem takeFraction_fractionChars {n : Nat} (hn : n < 1000000000) (rest : List Char) :
    takeFraction (fractionChars n ++ 'Z' :: rest) = some (n, 'Z' :: rest) := by
  unfold fractionChars
  by_cases hzero : n = 0
  · rw [if_pos hzero, hzero]
    rfl
  rw [if_neg hzero]
  by_cases hmilli : n % 1000000 = 0
  · rw [if_pos hmilli, List.cons_append,
      takeFraction_point (by omega) (by omega) (by omega : n / 1000000 < 10 ^ 3)]
    congr
    omega
  rw [if_neg hmilli]
  by_cases hmicro : n % 1000 = 0
  · rw [if_pos hmicro, List.cons_append,
      takeFraction_point (by omega) (by omega) (by omega : n / 1000 < 10 ^ 6)]
    congr
    omega
  · rw [if_neg hmicro, List.cons_append,
      takeFraction_point (by omega) (by omega) (by omega : n < 10 ^ 9)]
    simp

/-! ### Instants -/

/-- An instant that a text can name: one in the years that there are, whose leap second, if it lies
in one, is the last of its minute. -/
structure IsReadable (t : Instant) : Prop where
  startOfYear_le : startOfYear firstYear ≤ t.seconds
  lt_startOfYear : t.seconds < startOfYear (lastYear + 1)
  nanoseconds_lt : t.nanoseconds < 2000000000
  seconds_emod : 1000000000 ≤ t.nanoseconds → t.seconds % 60 = 59

/-- The fields that the text of an instant on some date has. -/
def fieldsOn (t : Instant) (year : Int) (month day : Nat) : Fields where
  year := year
  month := month
  day := day
  hour := (t.seconds % 86400).toNat / 3600
  minute := (t.seconds % 86400).toNat / 60 % 60
  second := (t.seconds % 86400).toNat % 60 + if 1000000000 ≤ t.nanoseconds then 1 else 0
  fraction := t.nanoseconds % 1000000000
  offset := 0

/-- The text of an instant, field by field. -/
private theorem toList_toText {t : Instant} {year : Int} {month day : Nat}
    (hdate : dateFromDays (t.seconds / 86400) = (year, month, day)) :
    t.toText.toList = yearChars year ++ '-' :: (Numeral.padded 2 month ++
      '-' :: (Numeral.padded 2 day ++
      'T' :: (Numeral.padded 2 (t.fieldsOn year month day).hour ++
      ':' :: (Numeral.padded 2 (t.fieldsOn year month day).minute ++
      ':' :: (Numeral.padded 2 (t.fieldsOn year month day).second ++
      (fractionChars (t.fieldsOn year month day).fraction ++ ['Z'])))))) := by
  simp only [toText, hdate, String.toList_ofList, List.append_assoc, List.cons_append, fieldsOn]

/-- The fields are read from the text. -/
theorem ofChars?_toText {t : Instant} {year : Int} {month day : Nat}
    (hdate : dateFromDays (t.seconds / 86400) = (year, month, day)) (hmonth : month < 100)
    (hday : day < 100) :
    Fields.ofChars? t.toText.toList = some (t.fieldsOn year month day) := by
  have hnumber {n : Nat} (hn : n < 100) (rest : List Char) :
      takeNumber 2 (Numeral.padded 2 n ++ rest) = some (n, rest) :=
    takeNumber_padded (by decide) hn rest
  have hseparator (rest : List Char) : Fields.takeSeparator ('T' :: rest) = some rest := by
    simp [Fields.takeSeparator]
  have hhour : (t.fieldsOn year month day).hour < 100 := by
    simp only [fieldsOn]
    omega
  have hminute : (t.fieldsOn year month day).minute < 100 := by
    simp only [fieldsOn]
    omega
  have hsecond : (t.fieldsOn year month day).second < 100 := by
    simp only [fieldsOn]
    split <;> omega
  rw [toList_toText hdate]
  -- one step for each thing that is read, in the order of the text
  refine Option.bind_eq_some_iff.mpr ⟨_, takeYear_yearChars year (by decide), ?_⟩
  refine Option.bind_eq_some_iff.mpr ⟨_, expect_cons (by decide) _, ?_⟩
  refine Option.bind_eq_some_iff.mpr ⟨_, hnumber hmonth _, ?_⟩
  refine Option.bind_eq_some_iff.mpr ⟨_, expect_cons (by decide) _, ?_⟩
  refine Option.bind_eq_some_iff.mpr ⟨_, hnumber hday _, ?_⟩
  refine Option.bind_eq_some_iff.mpr ⟨_, hseparator _, ?_⟩
  refine Option.bind_eq_some_iff.mpr ⟨_, hnumber hhour _, ?_⟩
  refine Option.bind_eq_some_iff.mpr ⟨_, expect_cons (by decide) _, ?_⟩
  refine Option.bind_eq_some_iff.mpr ⟨_, hnumber hminute _, ?_⟩
  refine Option.bind_eq_some_iff.mpr ⟨_, expect_cons (by decide) _, ?_⟩
  refine Option.bind_eq_some_iff.mpr ⟨_, hnumber hsecond _, ?_⟩
  refine Option.bind_eq_some_iff.mpr
    ⟨_, takeFraction_fractionChars (Nat.mod_lt _ (by decide)) [], ?_⟩
  refine Option.bind_eq_some_iff.mpr ⟨((0 : Int), []), by decide, ?_⟩
  rfl

/-- The clock of the fields stays in its bounds, and a leap second is shown as such just where there
is one. -/
theorem IsReadable.fieldsOn_bounds {t : Instant} (h : t.IsReadable) (year : Int)
    (month day : Nat) : (t.fieldsOn year month day).hour < 24 ∧
      (t.fieldsOn year month day).minute < 60 ∧ (t.fieldsOn year month day).second ≤ 60 ∧
      ((t.fieldsOn year month day).second = 60 ↔ 1000000000 ≤ t.nanoseconds) := by
  have hleap := h.seconds_emod
  simp only [fieldsOn]
  split <;> omega

/-- They name the second of the instant. -/
theorem IsReadable.seconds_fieldsOn {t : Instant} (h : t.IsReadable) {year : Int}
    {month day : Nat} (hback : daysFromDate year month day = t.seconds / 86400) :
    (t.fieldsOn year month day).seconds = t.seconds := by
  obtain ⟨-, -, -, hiff⟩ := h.fieldsOn_bounds year month day
  have hleap := h.seconds_emod
  rw [Fields.seconds]
  simp only [hiff]
  simp only [fieldsOn, hback]
  split <;> omega

private theorem IsReadable.instant_fieldsOn {t : Instant} (h : t.IsReadable) {year : Int}
    {month day : Nat} (hback : daysFromDate year month day = t.seconds / 86400) :
    (t.fieldsOn year month day).instant = t := by
  obtain ⟨-, -, -, hiff⟩ := h.fieldsOn_bounds year month day
  have hlt := h.nanoseconds_lt
  have hnanoseconds : (t.fieldsOn year month day).fraction +
      (if 1000000000 ≤ t.nanoseconds then 1000000000 else 0) = t.nanoseconds := by
    simp only [fieldsOn]
    split <;> omega
  simp only [Fields.instant, hiff, hnanoseconds, h.seconds_fieldsOn hback]

/-- An instant that a text can name is read from its own. -/
theorem IsReadable.ofText?_toText {t : Instant} (h : t.IsReadable) :
    ofText? t.toText = some t := by
  have hdate := isDate_dateFromDays (t.seconds / 86400)
  have hback := daysFromDate_dateFromDays (t.seconds / 86400)
  have hyears : firstYear ≤ (dateFromDays (t.seconds / 86400)).1 ∧
      (dateFromDays (t.seconds / 86400)).1 ≤ lastYear := by
    have hfirst := h.startOfYear_le
    have hlast := h.lt_startOfYear
    rw [startOfYear] at hfirst hlast
    exact year_dateFromDays (by omega) (by omega)
  obtain ⟨⟨year, month, day⟩, hd⟩ : ∃ date, dateFromDays (t.seconds / 86400) = date := ⟨_, rfl⟩
  rw [hd] at hdate hback hyears
  have hmonth : month ≤ 12 := hdate.2.1
  have hday : day ≤ 31 := hdate.2.2.2.trans (daysInMonth_le year month)
  have hread := ofChars?_toText hd (by omega) (by omega)
  obtain ⟨hhour, hminute, hsecond, -⟩ := h.fieldsOn_bounds year month day
  have hvalid : (t.fieldsOn year month day).IsValid := by
    refine ⟨hdate, ⟨hhour, hminute, hsecond, Nat.zero_lt_succ _⟩, hyears, ?_⟩
    rw [h.seconds_fieldsOn hback]
    exact ⟨h.startOfYear_le, h.lt_startOfYear⟩
  rw [ofText?, ofChars?, hread, Option.bind_some, if_pos hvalid, h.instant_fieldsOn hback]

/-! ### What is read can be read back -/

/-- A fraction is less than a second. -/
theorem takeFraction_lt {s rest : List Char} {n : Nat} (h : takeFraction s = some (n, rest)) :
    n < 1000000000 := by
  unfold takeFraction at h
  split at h
  · split at h
    · cases h
    · rename_i digits behind _ hdigits
      obtain ⟨rfl, -⟩ := Prod.mk.inj (Option.some.inj h)
      have hall : ∀ c ∈ digits.take 9 ++ List.replicate (9 - (digits.take 9).length) '0',
          c.isDigit = true := by
        intro c hc
        obtain hc | hc := List.mem_append.mp hc
        · have hdigits := (Prod.mk.inj hdigits).1
          have hmem := List.mem_of_mem_take hc
          rw [← hdigits] at hmem
          exact List.all_eq_true.mp List.all_takeWhile c hmem
        · exact Numeral.isDigit_of_mem_zeros hc
      have hlength : (digits.take 9 ++
          List.replicate (9 - (digits.take 9).length) '0').length = 9 := by
        simp only [List.length_append, List.length_replicate, List.length_take]
        omega
      have hlt := Numeral.ofDigits_lt hall
      rw [hlength] at hlt
      exact hlt
  · obtain ⟨rfl, -⟩ := Prod.mk.inj (Option.some.inj h)
    decide

/-- An offset is a number of minutes. -/
theorem takeOffset_emod {s rest : List Char} {offset : Int}
    (h : takeOffset s = some (offset, rest)) : offset % 60 = 0 := by
  unfold takeOffset at h
  split at h
  · obtain ⟨rfl, -⟩ := Prod.mk.inj (Option.some.inj h)
    rfl
  · obtain ⟨rfl, -⟩ := Prod.mk.inj (Option.some.inj h)
    rfl
  · split at h
    · obtain ⟨rfl, -⟩ := Prod.mk.inj (Option.some.inj h)
      rfl
    -- with or without a colon, the offset is made of hours and minutes
    · have hwhole : ∃ (sign : Int) (hours minutes : Nat),
          offset = sign * (hours * 3600 + minutes * 60 : Nat) := by
        split at h
        all_goals try split at h
        all_goals
          obtain ⟨sign, -, h⟩ := Option.bind_eq_some_iff.mp h
          obtain ⟨⟨hours, _⟩, -, h⟩ := Option.bind_eq_some_iff.mp h
          obtain ⟨⟨minutes, _⟩, -, h⟩ := Option.bind_eq_some_iff.mp h
          obtain ⟨-, h⟩ := Option.ite_none_left_eq_some.mp h
          exact ⟨sign, hours, minutes, (Prod.mk.inj (Option.some.inj h)).1.symm⟩
      obtain ⟨sign, hours, minutes, rfl⟩ := hwhole
      have hsixty : ((hours * 3600 + minutes * 60 : Nat) : Int) =
          60 * (hours * 60 + minutes : Nat) := by
        push_cast
        ring
      rw [hsixty, mul_left_comm]
      exact Int.mul_emod_right 60 _
  · cases h

/-- Fields that were read have a fraction below one and an offset in minutes. -/
private theorem Fields.bounds_of_ofChars? {s : List Char} {f : Fields}
    (h : Fields.ofChars? s = some f) :
    f.fraction < 1000000000 ∧ f.offset % 60 = 0 := by
  obtain ⟨⟨year, s⟩, -, h⟩ := Option.bind_eq_some_iff.mp h
  obtain ⟨s, -, h⟩ := Option.bind_eq_some_iff.mp h
  obtain ⟨⟨month, s⟩, -, h⟩ := Option.bind_eq_some_iff.mp h
  obtain ⟨s, -, h⟩ := Option.bind_eq_some_iff.mp h
  obtain ⟨⟨day, s⟩, -, h⟩ := Option.bind_eq_some_iff.mp h
  obtain ⟨s, -, h⟩ := Option.bind_eq_some_iff.mp h
  obtain ⟨⟨hour, s⟩, -, h⟩ := Option.bind_eq_some_iff.mp h
  obtain ⟨s, -, h⟩ := Option.bind_eq_some_iff.mp h
  obtain ⟨⟨minute, s⟩, -, h⟩ := Option.bind_eq_some_iff.mp h
  obtain ⟨s, -, h⟩ := Option.bind_eq_some_iff.mp h
  obtain ⟨⟨second, s⟩, -, h⟩ := Option.bind_eq_some_iff.mp h
  obtain ⟨⟨fraction, s⟩, hfraction, h⟩ := Option.bind_eq_some_iff.mp h
  obtain ⟨⟨offset, s⟩, hoffset, h⟩ := Option.bind_eq_some_iff.mp h
  obtain ⟨-, h⟩ := Option.ite_none_right_eq_some.mp h
  obtain rfl := Option.some.inj h
  exact ⟨takeFraction_lt hfraction, takeOffset_emod hoffset⟩

/-- Whatever is read from a text can be named by one. -/
theorem isReadable_of_ofText? {text : String} {t : Instant} (h : ofText? text = some t) :
    t.IsReadable := by
  obtain ⟨f, hf, h⟩ := Option.bind_eq_some_iff.mp h
  obtain ⟨hvalid, h⟩ := Option.ite_none_right_eq_some.mp h
  obtain rfl := Option.some.inj h
  obtain ⟨hfraction, hoffset⟩ := Fields.bounds_of_ofChars? hf
  obtain ⟨-, -, -, hfirst, hlast⟩ := hvalid
  refine ⟨hfirst, hlast, ?_, fun hleap => ?_⟩
  · simp only [Fields.instant]
    split <;> omega
  · simp only [Fields.instant] at hleap
    have hsecond : f.second = 60 := by
      by_contra hne
      rw [if_neg hne] at hleap
      omega
    simp only [Fields.instant, Fields.seconds, if_pos hsecond]
    omega

/-- The text of an instant that was read from a text is read as the same. -/
theorem ofText?_toText_of_ofText? {text : String} {t : Instant} (h : ofText? text = some t) :
    ofText? t.toText = some t :=
  (isReadable_of_ofText? h).ofText?_toText

end Instant

end TransitQuery
