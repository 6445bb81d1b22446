/-!
# Joined and quoted text

Lists of texts with a separator between them, and text between quotes where a quote inside is
written twice.

Doubling the quotes is the escape of SQL texts, of SQL names and of comma-separated values alike,
each with its own quote. It needs no escape character, and no quote stands alone between the outer
ones, so that a reader finds the end by looking one character ahead. `separated` puts nothing
before the first and nothing after the last text; joined texts cannot be told apart again unless
the separator is kept out of them.
-/

namespace TransitQuery

namespace Text

/-- Joins texts with a separator between them. -/
def separated (separator : List Char) : List (List Char) → List Char
  | [] => []
  | [s] => s
  | s :: rest => s ++ separator ++ separated separator rest

/-- Joins strings with a separator between them. -/
def joined (separator : String) (parts : List String) : String :=
  String.ofList (separated separator.toList (parts.map String.toList))

/-- Text with every quote written twice. -/
def doubled (quote : Char) : List Char → List Char
  | [] => []
  | c :: rest => if c = quote then quote :: quote :: doubled quote rest else c :: doubled quote rest

/-- Text between quotes, with every quote inside written twice. -/
def enclosed (quote : Char) (s : List Char) : List Char :=
  quote :: doubled quote s ++ [quote]

end Text

end TransitQuery
