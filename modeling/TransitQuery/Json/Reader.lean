import TransitQuery.Json.Number
import TransitQuery.Json.Shape

/-!
# Reading JSON text

`Json.parse?` reads a text that holds exactly one JSON value between blanks. Members are kept as
the text gives them, so that a reader of records can refuse a repeated name; `Json.ofText?` is
the value as free-form data. Containers nest at most `maxDepth` deep, and a number too large for
a scalar is refused, except in values that do not count in the shape the reader is given: those
keep their place and read as `null` or as containers of it.

The readers of parts take the characters that are left and return what they read together with
the rest.

Strings follow the grammar to the letter: control characters have to be escaped, escapes of four
hexadecimal digits denote code units, and a high surrogate has to be followed by a low one. In a
place that does not count the form of the escapes is checked but not the pairing (`skipString`).
The fuel of the readers of values is a bound and no limit: every step passes a character or opens a
value at one, so that twice the length of the text is enough, and the depth of the containers is
counted apart from it.

After the value only blanks may follow. A repeated name is no fault of the text; whether it is one
of the record is decided where the record is read.
-/

namespace TransitQuery

namespace Json

/-- How deep containers may nest. -/
def maxDepth : Nat := 127

/-- Whether a character separates the parts of a JSON text. -/
def isBlank (c : Char) : Bool :=
  c = ' ' || c = '\n' || c = '\t' || c = '\r'

/-- The text from its first character that is no blank. -/
def skipBlanks (s : List Char) : List Char :=
  s.dropWhile isBlank

/-! ### Strings -/

/-- The value of a hexadecimal digit of either case. -/
def hexValue? (c : Char) : Option Nat :=
  if '0' ≤ c ∧ c ≤ '9' then some (c.toNat - '0'.toNat)
  else if 'a' ≤ c ∧ c ≤ 'f' then some (c.toNat - 'a'.toNat + 10)
  else if 'A' ≤ c ∧ c ≤ 'F' then some (c.toNat - 'A'.toNat + 10)
  else none

/-- The number that four hexadecimal digits denote. -/
def unit? (a b c d : Char) : Option Nat := do
  let a ← hexValue? a
  let b ← hexValue? b
  let c ← hexValue? c
  let d ← hexValue? d
  return ((a * 16 + b) * 16 + c) * 16 + d

/-- The character that an escape of one letter stands for. -/
def shortEscape? (c : Char) : Option Char :=
  match c with
  | '"' => some '"'
  | '\\' => some '\\'
  | '/' => some '/'
  | 'b' => some (Char.ofNat 8)
  | 'f' => some (Char.ofNat 12)
  | 'n' => some '\n'
  | 'r' => some '\r'
  | 't' => some '\t'
  | _ => none

/-- Puts a character before the characters read after it. -/
def consChar (c : Char) : Option (List Char × List Char) → Option (List Char × List Char)
  | none => none
  | some (cs, rest) => some (c :: cs, rest)

/-- The characters of a string up to its closing quote. A code unit of a surrogate pair must
stand in a pair. -/
def readString : List Char → Option (List Char × List Char)
  | [] => none
  | '"' :: rest => some ([], rest)
  | '\\' :: 'u' :: a :: b :: c :: d :: rest =>
    match unit? a b c d with
    | none => none
    | some n =>
      if 0xD800 ≤ n ∧ n < 0xDC00 then
        match rest with
        | '\\' :: 'u' :: e :: f :: g :: h :: rest =>
          match unit? e f g h with
          | none => none
          | some m =>
            if 0xDC00 ≤ m ∧ m < 0xE000 then
              consChar (Char.ofNat (0x10000 + (n - 0xD800) * 0x400 + (m - 0xDC00)))
                (readString rest)
            else none
        | _ => none
      else if 0xDC00 ≤ n ∧ n < 0xE000 then none
      else consChar (Char.ofNat n) (readString rest)
  | '\\' :: c :: rest =>
    match shortEscape? c with
    | none => none
    | some c => consChar c (readString rest)
  -- a backslash that comes this far is the last character of the text
  | c :: rest => if c.toNat < 32 ∨ c = '\\' then none else consChar c (readString rest)

/-- The text behind the closing quote of a string that does not count. Its escapes have the form of
escapes, but their code units may stand alone. -/
def skipString : List Char → Option (List Char)
  | [] => none
  | '"' :: rest => some rest
  | '\\' :: 'u' :: a :: b :: c :: d :: rest =>
    if (unit? a b c d).isSome then skipString rest else none
  | '\\' :: c :: rest => if (shortEscape? c).isSome then skipString rest else none
  | c :: rest => if c.toNat < 32 ∨ c = '\\' then none else skipString rest

variable {R : Type} [Scalar R]

/-! ### Leaves -/

/-- A string behind its opening quote. One that does not count reads as `null`. -/
def readStringAs (shape : Shape) (s : List Char) : Option (Json R × List Char) :=
  match shape with
  | .skipped => (skipString s).map (null, ·)
  | _ => (readString s).map fun (cs, rest) => (str (String.ofList cs), rest)

/-- The name of a member behind its opening quote, empty if the object does not count. -/
def readNameAs (shape : Shape) (s : List Char) : Option (String × List Char) :=
  match shape with
  | .skipped => (skipString s).map ("", ·)
  | _ => (readString s).map fun (cs, rest) => (String.ofList cs, rest)

/-- A number. One that does not count reads as `null`. -/
def readNumberAs (shape : Shape) (s : List Char) : Option (Json R × List Char) :=
  (readNumberText s).bind fun (t, rest) =>
    match shape with
    | .skipped => some (null, rest)
    | _ => t.value?.map (·, rest)

/-! ### Values -/

mutual

/-- One value inside containers that leave room for `depth` more levels. -/
def readValue : (fuel : Nat) → (shape : Shape) → (depth : Nat) → List Char →
    Option (Json R × List Char)
  | 0, _, _, _ => none
  | fuel + 1, shape, depth, s =>
    match skipBlanks s with
    | 'n' :: 'u' :: 'l' :: 'l' :: rest => some (null, rest)
    | 't' :: 'r' :: 'u' :: 'e' :: rest => some (bool true, rest)
    | 'f' :: 'a' :: 'l' :: 's' :: 'e' :: rest => some (bool false, rest)
    | '"' :: rest => readStringAs shape rest
    | '[' :: rest =>
      (shape.depthInside? depth).bind fun depth =>
        match skipBlanks rest with
        | ']' :: rest => some (arr [], rest)
        | _ => (readItems fuel shape depth rest).map fun (items, rest) => (arr items, rest)
    | '{' :: rest =>
      (shape.depthInside? depth).bind fun depth =>
        match skipBlanks rest with
        | '}' :: rest => some (obj [], rest)
        | _ => (readMembers fuel shape depth rest).map fun (members, rest) => (obj members, rest)
    | rest => readNumberAs shape rest

/-- The items of an array that is not empty, up to its closing bracket. -/
def readItems : (fuel : Nat) → (shape : Shape) → (depth : Nat) → List Char →
    Option (List (Json R) × List Char)
  | 0, _, _, _ => none
  | fuel + 1, shape, depth, s =>
    match readValue fuel shape.head depth s with
    | none => none
    | some (v, rest) =>
      match skipBlanks rest with
      | ',' :: rest =>
        (readItems fuel shape.tail depth rest).map fun (items, rest) => (v :: items, rest)
      | ']' :: rest => some ([v], rest)
      | _ => none

/-- The members of an object that is not empty, up to its closing brace. -/
def readMembers : (fuel : Nat) → (shape : Shape) → (depth : Nat) → List Char →
    Option (List (String × Json R) × List Char)
  | 0, _, _, _ => none
  | fuel + 1, shape, depth, s =>
    match skipBlanks s with
    | '"' :: rest =>
      match readNameAs shape rest with
      | none => none
      | some (name, rest) =>
        match skipBlanks rest with
        | ':' :: rest =>
          match readValue fuel (shape.member name) depth rest with
          | none => none
          | some (v, rest) =>
            match skipBlanks rest with
            | ',' :: rest =>
              (readMembers fuel shape depth rest).map fun (members, rest) =>
                ((name, v) :: members, rest)
            | '}' :: rest => some ([(name, v)], rest)
            | _ => none
        | _ => none
    | _ => none

end

/-- The value of a given shape that a text holds, members in the order of the text. Every step of
the readers passes a character or opens a value at one, so twice the length of the text bounds
them. -/
def parseChars? (shape : Shape) (s : List Char) : Option (Json R) :=
  match readValue (2 * s.length + 2) shape maxDepth s with
  | some (v, rest) => if (skipBlanks rest).isEmpty then some v else none
  | none => none

/-- The value of a given shape that a text holds, members in the order of the text. -/
def parse? (shape : Shape) (text : String) : Option (Json R) :=
  parseChars? shape text.toList

/-- The value of a text as free-form data. -/
def ofText? (text : String) : Option (Json R) :=
  (parse? .any text).map normalize

end Json

end TransitQuery
