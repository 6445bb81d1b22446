import TransitQuery.Scalar.Basic

/-!
# Tokens of Well-Known Text

Parentheses and commas are tokens of their own; everything else between them and blanks is a
number, if it starts like one, or a word. The text ends at the null character, if it holds one.

A number is recognised by its first character and then read as a whole, so that a text which only
starts like a number is a single malformed token and not a number with a word behind it. Whether
that is a fault depends on what is wanted in its place. Words are kept as they are written; case is
a matter of the reader.

Blanks are the four that formats of this kind use, and not those of Unicode. A number is read as
the nearest scalar to its decimal, and the words for infinity and for no number count as words,
unless a sign stands before them.
-/

namespace TransitQuery

namespace Wkt

/-- A token. A text that starts like a number but is none is kept as `malformed`, because it is
wrong only where a number is looked for. -/
inductive Token (R : Type) where
  | opening
  | closing
  | comma
  | word (s : List Char)
  | number (x : R)
  | malformed

/-- Whether a character separates tokens. -/
def isBlank (c : Char) : Bool :=
  c = ' ' || c = '\n' || c = '\r' || c = '\t'

/-- Whether a character ends a word or a number. -/
def isDelimiter (c : Char) : Bool :=
  isBlank c || c = '(' || c = ')' || c = ',' || c.toNat = 0

/-- Whether a character starts a number. -/
def startsNumber (c : Char) : Bool :=
  c.isDigit || c = '.' || c = '-' || c = '+'

variable {R : Type} [Scalar R]

/-- The token of a text between delimiters. A plus sign may stand before the sign of a number. -/
def tokenOf (s : List Char) : Token R :=
  let number (t : List Char) : Token R :=
    match Numeral.ofText? t with
    | some n => .number (Scalar.ofNumeral n)
    | none => .malformed
  match s with
  | '+' :: t => number t
  | c :: _ => if startsNumber c then number s else .word s
  | [] => .malformed

/-- The tokens of a text, where `pending` holds the characters before it that belong to its first
word or number, last one first. -/
def tokensFrom (pending : List Char) : List Char → List (Token R)
  | [] => if pending.isEmpty then [] else [tokenOf pending.reverse]
  | c :: rest =>
    if isDelimiter c then
      let before := if pending.isEmpty then [] else [tokenOf pending.reverse]
      if c.toNat = 0 then before
      else if c = '(' then before ++ .opening :: tokensFrom [] rest
      else if c = ')' then before ++ .closing :: tokensFrom [] rest
      else if c = ',' then before ++ .comma :: tokensFrom [] rest
      else before ++ tokensFrom [] rest
    else tokensFrom (c :: pending) rest

/-- The tokens of a text. -/
def tokens (s : List Char) : List (Token R) :=
  tokensFrom [] s

end Wkt

end TransitQuery
