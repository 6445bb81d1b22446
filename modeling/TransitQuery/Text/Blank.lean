import TransitQuery.Text.CodePoint

/-!
# Blank characters

The characters with the Unicode property White_Space, and trimming by them.

Boundaries that are given as text are trimmed, and so are geometries in cells; an attribute value
that holds blanks only counts as missing. Both ends are trimmed by one function and a reversal, so
that a law about the start gives the law about the end. JSON and Well-Known Text have narrower
blanks of their own between their tokens, which are defined with their readers.
-/

namespace TransitQuery

namespace Text

/-- The code points with the property White_Space, as ranges with both ends. -/
def blankRanges : List (Nat × Nat) :=
  [(0x09, 0x0D), (0x20, 0x20), (0x85, 0x85), (0xA0, 0xA0), (0x1680, 0x1680), (0x2000, 0x200A),
    (0x2028, 0x2029), (0x202F, 0x202F), (0x205F, 0x205F), (0x3000, 0x3000)]

/-- Whether a character has the property White_Space. -/
def isBlank (c : Char) : Bool :=
  isWithin blankRanges c

/-- The text without blanks at its start. -/
def trimStart (s : List Char) : List Char :=
  s.dropWhile isBlank

/-- The text without blanks at either end. -/
def trim (s : List Char) : List Char :=
  (trimStart (trimStart s).reverse).reverse

/-- A string without blanks at either end. -/
def trimmed (s : String) : String :=
  String.ofList (trim s.toList)

/-- Whether a string holds blanks only. -/
def isBlankString (s : String) : Bool :=
  s.toList.all isBlank

end Text

end TransitQuery
