import TransitQuery.Decimal.Numeral
import TransitQuery.Text.Blank

/-!
# Instants

An instant is a point of time to the nanosecond. Its text is a date and a time of day in the
proleptic Gregorian calendar, in universal time; `Instant.ofText?` also reads times with an offset
and is lenient about blanks, the separator of date and time, and short fields.

A leap second is the second before it with a billion nanoseconds more; it is written as second
sixty and read back as that. Dates are counted in days from the epoch by the usual arithmetic of
the four-hundred-year cycle (`daysFromDate`, `dateFromDays`), which serves years before the first
one as well. Years of four digits stand alone; others carry a sign.

The reader accepts more than the writer produces, because times come from other programs. What it
accepts is bounded: fields in their ranges, a day that its month has, an offset below a day, and a
year between `firstYear` and `lastYear`, before and after the offset is applied. Of a fraction nine
digits count.
-/

namespace TransitQuery

/-- Seconds since the start of 1970 in universal time, and the nanoseconds in the second. In a
leap second the nanoseconds go beyond one second. -/
structure Instant where
  seconds : Int
  nanoseconds : Nat
  deriving DecidableEq

namespace Instant

/-! ### The calendar -/

/-- Whether a year has a leap day. -/
def isLeapYear (year : Int) : Bool :=
  year % 4 = 0 && (year % 100 != 0 || year % 400 = 0)

/-- How many days a month has. -/
def daysInMonth (year : Int) (month : Nat) : Nat :=
  match month with
  | 2 => if isLeapYear year then 29 else 28
  | 4 | 6 | 9 | 11 => 30
  | _ => 31

/-- The days from the start of 1970 to a date. Years are counted from March, so that the leap day
is the last day of its year. -/
def daysFromDate (year : Int) (month day : Nat) : Int :=
  let year := if month ≤ 2 then year - 1 else year
  let era := year / 400
  let yearOfEra := year % 400
  let dayOfYear : Int := (153 * (((month + 9) % 12 : Nat) : Int) + 2) / 5 + day - 1
  let dayOfEra := yearOfEra * 365 + yearOfEra / 4 - yearOfEra / 100 + dayOfYear
  era * 146097 + dayOfEra - 719468

/-- The year, month and day that lie a number of days after the start of 1970. -/
def dateFromDays (days : Int) : Int × Nat × Nat :=
  let shifted := days + 719468
  let era := shifted / 146097
  let dayOfEra := shifted % 146097
  let yearOfEra := (dayOfEra - dayOfEra / 1460 + dayOfEra / 36524 - dayOfEra / 146096) / 365
  let dayOfYear := dayOfEra - (365 * yearOfEra + yearOfEra / 4 - yearOfEra / 100)
  -- months are counted from March, so that the last two belong to the next year of the calendar
  let part := (5 * dayOfYear + 2) / 153
  let day := dayOfYear - (153 * part + 2) / 5 + 1
  let month := if part < 10 then part + 3 else part - 9
  let year := yearOfEra + era * 400 + (if month ≤ 2 then 1 else 0)
  (year, month.toNat, day.toNat)

/-! ### Text -/

/-- A year: four digits, and a sign beyond those. -/
def yearChars (year : Int) : List Char :=
  if 0 ≤ year ∧ year ≤ 9999 then Numeral.padded 4 year.toNat
  else (if year < 0 then '-' else '+') :: Numeral.padded (if year < 0 then 4 else 5) year.natAbs

/-- A fraction of a second in the fewest groups of three digits. -/
def fractionChars (nanoseconds : Nat) : List Char :=
  if nanoseconds = 0 then []
  else if nanoseconds % 1000000 = 0 then '.' :: Numeral.padded 3 (nanoseconds / 1000000)
  else if nanoseconds % 1000 = 0 then '.' :: Numeral.padded 6 (nanoseconds / 1000)
  else '.' :: Numeral.padded 9 nanoseconds

/-- Date and time of day in universal time. -/
def toText (t : Instant) : String :=
  let (year, month, day) := dateFromDays (t.seconds / 86400)
  let second := (t.seconds % 86400).toNat
  let leap := 1000000000 ≤ t.nanoseconds
  String.ofList (yearChars year ++ '-' :: Numeral.padded 2 month ++ '-' :: Numeral.padded 2 day ++
    'T' :: Numeral.padded 2 (second / 3600) ++ ':' :: Numeral.padded 2 (second / 60 % 60) ++
    ':' :: Numeral.padded 2 (second % 60 + if leap then 1 else 0) ++
    fractionChars (t.nanoseconds % 1000000000) ++ ['Z'])

/-- One to `most` digits after blanks. -/
def takeNumber (most : Nat) (s : List Char) : Option (Nat × List Char) :=
  let s := Text.trimStart s
  let digits := (s.take most).takeWhile Char.isDigit
  if digits.isEmpty then none else some (Numeral.ofDigits digits, s.drop digits.length)

/-- A year: up to four digits, or a sign and any number of them. -/
def takeYear (s : List Char) : Option (Int × List Char) :=
  match Text.trimStart s with
  | '-' :: rest =>
    if rest.head?.any Char.isDigit then
      (takeNumber rest.length rest).map fun (n, rest) => (-(n : Int), rest)
    else none
  | '+' :: rest =>
    if rest.head?.any Char.isDigit then
      (takeNumber rest.length rest).map fun (n, rest) => ((n : Int), rest)
    else none
  | rest => (takeNumber 4 rest).map fun (n, rest) => ((n : Int), rest)

/-- What follows a given character after blanks. -/
def expect (c : Char) (s : List Char) : Option (List Char) :=
  match Text.trimStart s with
  | d :: rest => if d = c then some rest else none
  | [] => none

/-- Nanoseconds after a point, of which only nine digits count; none without a point. -/
def takeFraction : List Char → Option (Nat × List Char)
  | '.' :: rest =>
    match Numeral.takeDigits rest with
    | ([], _) => none
    | (digits, rest) =>
      let kept := digits.take 9
      some (Numeral.ofDigits (kept ++ List.replicate (9 - kept.length) '0'), rest)
  | s => some (0, s)

/-- Exactly two digits. -/
def takeTwo : List Char → Option (Nat × List Char)
  | a :: b :: rest =>
    if a.isDigit && b.isDigit then some (Numeral.ofDigits [a, b], rest) else none
  | _ => none

/-- The seconds by which local time is ahead: nothing for a name of universal time, else a sign,
hours and minutes. -/
def takeOffset (s : List Char) : Option (Int × List Char) :=
  match s with
  | 'Z' :: rest | 'z' :: rest => some (0, rest)
  | u :: t :: c :: rest =>
    if [u, t, c].map Char.toUpper = ['U', 'T', 'C'] then some (0, rest)
    else do
      let sign : Int ←
        if u = '+' then some 1 else if u = '-' ∨ u.toNat = 0x2212 then some (-1) else none
      let (hours, rest) ← takeTwo (t :: c :: rest)
      let (minutes, rest) ← takeTwo (rest.dropWhile fun c => c = ':' || Text.isBlank c)
      if 59 < minutes then none
      else some (sign * (hours * 3600 + minutes * 60 : Nat), rest)
  | _ => none

/-- The first year that an instant may have. -/
def firstYear : Int := -262143

/-- The last year that an instant may have. -/
def lastYear : Int := 262142

/-- The seconds from the start of 1970 to the start of a year. -/
def startOfYear (year : Int) : Int :=
  daysFromDate year 1 1 * 86400

/-- A date, a time of day and an offset as they are written. -/
structure Fields where
  year : Int
  month : Nat
  day : Nat
  hour : Nat
  minute : Nat
  second : Nat
  /-- The nanoseconds after the second. -/
  fraction : Nat
  /-- The seconds by which local time is ahead. -/
  offset : Int

namespace Fields

/-- What follows the letter or the blank between a date and a time of day. -/
def takeSeparator : List Char → Option (List Char)
  | c :: rest => if c = 'T' ∨ c = 't' ∨ c = ' ' then some rest else none
  | [] => none

/-- Reads a date, a separator, a time of day and an offset. -/
def ofChars? (s : List Char) : Option Fields := do
  let (year, s) ← takeYear s
  let (month, s) ← takeNumber 2 (← expect '-' s)
  let (day, s) ← takeNumber 2 (← expect '-' s)
  let (hour, s) ← takeNumber 2 (← takeSeparator s)
  let (minute, s) ← takeNumber 2 (← expect ':' s)
  let (second, s) ← takeNumber 2 (← expect ':' s)
  let (fraction, s) ← takeFraction s
  let (offset, s) ← takeOffset (Text.trimStart s)
  if (Text.trimStart s).isEmpty then
    some { year, month, day, hour, minute, second, fraction, offset }
  else none

/-- The seconds from the start of 1970 in universal time. A leap second counts as the one before
it. -/
def seconds (f : Fields) : Int :=
  let clock : Nat := f.hour * 3600 + f.minute * 60 + if f.second = 60 then 59 else f.second
  daysFromDate f.year f.month f.day * 86400 + clock - f.offset

/-- Whether the calendar and the clock have these values. Neither the local nor the universal time
may leave the years that there are. -/
def IsValid (f : Fields) : Prop :=
  (1 ≤ f.month ∧ f.month ≤ 12 ∧ 1 ≤ f.day ∧ f.day ≤ daysInMonth f.year f.month) ∧
    (f.hour < 24 ∧ f.minute < 60 ∧ f.second ≤ 60 ∧ f.offset.natAbs < 86400) ∧
    (firstYear ≤ f.year ∧ f.year ≤ lastYear) ∧
    startOfYear firstYear ≤ f.seconds ∧ f.seconds < startOfYear (lastYear + 1)

instance (f : Fields) : Decidable f.IsValid :=
  inferInstanceAs (Decidable (_ ∧ _))

/-- The instant that is written. -/
def instant (f : Fields) : Instant where
  seconds := f.seconds
  nanoseconds := f.fraction + if f.second = 60 then 1000000000 else 0

end Fields

/-- Reads the characters of an instant. -/
def ofChars? (s : List Char) : Option Instant :=
  (Fields.ofChars? s).bind fun f => if f.IsValid then some f.instant else none

/-- Reads a text as an instant. -/
def ofText? (text : String) : Option Instant :=
  ofChars? text.toList

end Instant

end TransitQuery
