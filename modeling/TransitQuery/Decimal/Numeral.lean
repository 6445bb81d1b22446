/-!
# Numerals

A `Numeral` is what the decimal text of a number says: a sign, a natural number of digits and a
power of ten, or one of the three values that have a name instead of digits. Two written forms
are laid out here. `Numeral.plain` never uses an exponent mark and gives whole values no
fraction; `Numeral.json` marks every finite value as a fraction or a power and switches to an
exponent outside a window of magnitudes. Two readers, `Numeral.ofText?` and the pieces
`takeDigits` and `takeExponent`, go the other way.

The digits of a numeral are a natural number, without regard to zeros on either side, so one value
has many numerals. The printers lay out whatever numeral they are given; which numeral a scalar is
printed by is decided elsewhere (`Scalar.toNumeral`). Readers take characters from the front of a
list and return the rest, and `Numeral.ofText?` asks that nothing is left.
-/

namespace TransitQuery

/-- A number as its decimal text gives it: `± digits · 10 ^ exponent`, or a named value. -/
inductive Numeral where
  | nan
  | infinite (negative : Bool)
  | finite (negative : Bool) (digits : Nat) (exponent : Int)
  deriving DecidableEq

namespace Numeral

/-- A minus sign where one is due. -/
def sign (negative : Bool) : List Char :=
  if negative then ['-'] else []

/-- The decimal digits of a natural number, most significant first. -/
def digitChars (n : Nat) : List Char :=
  Nat.toDigits 10 n

/-- The decimal digits of a natural number, with zeros before them up to a width. -/
def padded (width n : Nat) : List Char :=
  let chars := digitChars n
  List.replicate (width - chars.length) '0' ++ chars

/-! ### Layout -/

/-- The digits before and after the point of `digits · 10 ^ exponent`, with at least one digit
before it. -/
def positional (digits : Nat) (exponent : Int) : List Char × List Char :=
  if digits = 0 then (['0'], [])
  else
    let chars := digitChars digits
    let places := (-exponent).toNat
    if 0 ≤ exponent then (chars ++ List.replicate exponent.toNat '0', [])
    else if places < chars.length then
      (chars.take (chars.length - places), chars.drop (chars.length - places))
    else (['0'], List.replicate (places - chars.length) '0' ++ chars)

/-- The decimal exponent of the leading digit, zero for zero. -/
def magnitude (digits : Nat) (exponent : Int) : Int :=
  if digits = 0 then 0 else (digitChars digits).length - 1 + exponent

/-- Never an exponent, and no fraction on whole values. -/
def plain : Numeral → List Char
  | nan => ['N', 'a', 'N']
  | infinite negative => sign negative ++ ['i', 'n', 'f']
  | finite negative digits exponent =>
    match positional digits exponent with
    | (whole, []) => sign negative ++ whole
    | (whole, fraction) => sign negative ++ whole ++ '.' :: fraction

/-- The digits of an integer with a sign in every case. -/
def signedChars (i : Int) : List Char :=
  (if i < 0 then '-' else '+') :: digitChars i.natAbs

/-- One digit, then the others after a point if there are any, then the power of ten. -/
def scientific (digits : Nat) (exponent : Int) : List Char :=
  match digitChars digits with
  | [] => []
  | [d] => d :: 'e' :: signedChars exponent
  | d :: rest => d :: '.' :: rest ++ 'e' :: signedChars exponent

/-- From `10 ^ -5` to below `10 ^ 16` the point is placed among the digits, with a digit on
either side; elsewhere the power of ten is written out. Values without digits have no number
text here and are written `null`. -/
def json : Numeral → List Char
  | nan | infinite _ => ['n', 'u', 'l', 'l']
  | finite negative digits exponent =>
    let m := magnitude digits exponent
    sign negative ++
      if -5 ≤ m ∧ m < 16 then
        match positional digits exponent with
        | (whole, []) => whole ++ ['.', '0']
        | (whole, fraction) => whole ++ '.' :: fraction
      else scientific digits m

/-! ### Reading -/

/-- The digits that start a text, and what follows them. -/
def takeDigits (s : List Char) : List Char × List Char :=
  (s.takeWhile Char.isDigit, s.dropWhile Char.isDigit)

/-- The natural number that a run of digits denotes. -/
def ofDigits (s : List Char) : Nat :=
  s.foldl (fun n c => 10 * n + (c.toNat - '0'.toNat)) 0

/-- A signed run of digits, the sign optional. -/
def takeSigned (s : List Char) : Option (Int × List Char) :=
  let read (t : List Char) : Option (Nat × List Char) :=
    match takeDigits t with
    | ([], _) => none
    | (ds, rest) => some (ofDigits ds, rest)
  match s with
  | '-' :: t => (read t).map fun (n, rest) => (-(n : Int), rest)
  | '+' :: t => (read t).map fun (n, rest) => ((n : Int), rest)
  | _ => (read s).map fun (n, rest) => ((n : Int), rest)

/-- The power of ten after the digits: zero without a mark, refused when the mark stands
without digits. -/
def takeExponent (s : List Char) : Option (Int × List Char) :=
  match s with
  | 'e' :: t | 'E' :: t => takeSigned t
  | _ => some (0, s)

/-- The value of whole digits, fraction digits and a power of ten. -/
def assemble (negative : Bool) (whole fraction : List Char) (power : Int) : Numeral :=
  finite negative (ofDigits (whole ++ fraction)) (power - fraction.length)

/-- An unsigned value written with digits: digits on at least one side of the point, then an
optional power of ten, then nothing more. -/
def ofUnsignedText? (negative : Bool) (s : List Char) : Option Numeral :=
  let (whole, afterWhole) := takeDigits s
  let (fraction, afterFraction) :=
    match afterWhole with
    | '.' :: t => takeDigits t
    | _ => ([], afterWhole)
  if whole.isEmpty ∧ fraction.isEmpty then none
  else
    match takeExponent afterFraction with
    | some (power, []) => some (assemble negative whole fraction power)
    | _ => none

/-- Reads a whole text: an optional sign, then digits or one of the names `inf`, `infinity` and
`nan` in any mixture of cases. -/
def ofText? (s : List Char) : Option Numeral :=
  let (negative, body) :=
    match s with
    | '-' :: t => (true, t)
    | '+' :: t => (false, t)
    | _ => (false, s)
  let name := String.ofList (body.map Char.toLower)
  if name = "inf" ∨ name = "infinity" then some (infinite negative)
  else if name = "nan" then some nan
  else ofUnsignedText? negative body

end Numeral

end TransitQuery
