import TransitQuery.Decimal.Numeral

/-!
# Durations

Durations in whole milliseconds, written in the largest of the units second, millisecond and
nanosecond in which there is at least one of it.

A limit of time is configured in whole milliseconds, so that no finer unit is kept; nanoseconds
occur only in the text of a span that is zero. A span of a second and more is written in seconds
with up to three places, and the zeros at the end of these are dropped, as are the places of a
whole number of seconds. A span is written for the message of a query that took too long and is
never read back.
-/

namespace TransitQuery

/-- A span of time. -/
structure Duration where
  milliseconds : Nat
  deriving DecidableEq

namespace Duration

/-- The milliseconds that do not make up a second, after a point and without zeros at the end. -/
def fractionChars (milliseconds : Nat) : List Char :=
  if milliseconds = 0 then []
  else '.' :: ((Numeral.padded 3 milliseconds).reverse.dropWhile (· = '0')).reverse

/-- The number and the unit of a duration. -/
def chars (d : Duration) : List Char :=
  if d.milliseconds = 0 then "0ns".toList
  else if d.milliseconds < 1000 then Numeral.digitChars d.milliseconds ++ ['m', 's']
  else
    Numeral.digitChars (d.milliseconds / 1000) ++ fractionChars (d.milliseconds % 1000) ++ ['s']

/-- The text of a duration. -/
def toText (d : Duration) : String :=
  String.ofList d.chars

end Duration

end TransitQuery
