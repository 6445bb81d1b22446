import TransitQuery.Json.Basic

/-!
# JSON text

`Json.compact` writes a value on one line without blanks. `Json.pretty` gives every item and
member a line of its own, two blanks deeper than its container, and keeps empty containers on
one line. Both write strings alike: a quote, a backslash and the control characters are escaped,
everything else stands for itself.

The writers are functions to lists of characters, by recursion over the value, with one function
for the items and one for the members; `compact` and `pretty` pack the characters at the end.
Leaves are written by one function for both layouts (`leafChars`), which is what makes a lemma
about the text of a leaf serve both.

A scalar is written with the fewest digits that read back as it, ties to the even digit, in the
notation that JSON numbers have (`realChars`); one that is not finite is written as `null`, if it
comes this far. Control characters without a letter of their own become an escape of four
hexadecimal digits. Characters outside the basic plane stand for themselves and are never split
into surrogates, although the reader accepts them so.
-/

namespace TransitQuery

namespace Json

/-- A hexadecimal digit. -/
def hexDigit (n : Nat) : Char :=
  if n < 10 then Char.ofNat ('0'.toNat + n) else Char.ofNat ('a'.toNat + (n - 10))

/-- A character inside a string. -/
def escape (c : Char) : List Char :=
  if c = '"' then ['\\', '"']
  else if c = '\\' then ['\\', '\\']
  else if c.toNat = 8 then ['\\', 'b']
  else if c.toNat = 12 then ['\\', 'f']
  else if c = '\n' then ['\\', 'n']
  else if c = '\r' then ['\\', 'r']
  else if c = '\t' then ['\\', 't']
  else if c.toNat < 32 then
    ['\\', 'u', '0', '0', hexDigit (c.toNat / 16), hexDigit (c.toNat % 16)]
  else [c]

/-- A string between quotes. -/
def quoted (s : List Char) : List Char :=
  '"' :: s.flatMap escape ++ ['"']

/-- An integer in plain decimal. -/
def integerChars (i : Int) : List Char :=
  Numeral.sign (i < 0) ++ Numeral.digitChars i.natAbs

variable {R : Type} [Scalar R]

/-- The text of a scalar in JSON. -/
def realChars (x : R) : List Char :=
  (Scalar.toNumeral .toEven x).json

/-- The text of a value that is no container. -/
def leafChars : Json R → List Char
  | bool true => ['t', 'r', 'u', 'e']
  | bool false => ['f', 'a', 'l', 's', 'e']
  | int i => integerChars i
  | real x => realChars x
  | str s => quoted s.toList
  | _ => ['n', 'u', 'l', 'l']

mutual

/-- A value without blanks. -/
def compactChars : Json R → List Char
  | arr items => '[' :: compactItems items ++ [']']
  | obj members => '{' :: compactMembers members ++ ['}']
  | null => leafChars (R := R) null
  | bool b => leafChars (R := R) (bool b)
  | int i => leafChars (R := R) (int i)
  | real x => leafChars (real x)
  | str s => leafChars (R := R) (str s)

/-- Items with commas between them. -/
def compactItems : List (Json R) → List Char
  | [] => []
  | [v] => compactChars v
  | v :: rest => compactChars v ++ ',' :: compactItems rest

/-- Members with commas between them. -/
def compactMembers : List (String × Json R) → List Char
  | [] => []
  | [(k, v)] => quoted k.toList ++ ':' :: compactChars v
  | (k, v) :: rest => quoted k.toList ++ ':' :: compactChars v ++ ',' :: compactMembers rest

end

/-- A line break and the blanks that start a line at a depth. -/
def newline (depth : Nat) : List Char :=
  '\n' :: List.replicate (2 * depth) ' '

mutual

/-- A value laid out over lines, inside `depth` containers. -/
def prettyChars (depth : Nat) : Json R → List Char
  | arr [] => ['[', ']']
  | arr items => '[' :: prettyItems (depth + 1) items ++ newline depth ++ [']']
  | obj [] => ['{', '}']
  | obj members => '{' :: prettyMembers (depth + 1) members ++ newline depth ++ ['}']
  | null => leafChars (R := R) null
  | bool b => leafChars (R := R) (bool b)
  | int i => leafChars (R := R) (int i)
  | real x => leafChars (real x)
  | str s => leafChars (R := R) (str s)

/-- Items, each on a line, with commas between them. -/
def prettyItems (depth : Nat) : List (Json R) → List Char
  | [] => []
  | [v] => newline depth ++ prettyChars depth v
  | v :: rest => newline depth ++ prettyChars depth v ++ ',' :: prettyItems depth rest

/-- Members, each on a line, with commas between them. -/
def prettyMembers (depth : Nat) : List (String × Json R) → List Char
  | [] => []
  | [(k, v)] => newline depth ++ quoted k.toList ++ ':' :: ' ' :: prettyChars depth v
  | (k, v) :: rest =>
    newline depth ++ quoted k.toList ++ ':' :: ' ' :: prettyChars depth v ++
      ',' :: prettyMembers depth rest

end

/-- A value on one line. -/
def compact (v : Json R) : String :=
  String.ofList v.compactChars

/-- A value laid out over lines. -/
def pretty (v : Json R) : String :=
  String.ofList (v.prettyChars 0)

end Json

end TransitQuery
