import TransitQuery.Text.Joined
import TransitQuery.Text.Width

/-!
# Tables

A table is drawn with lines between its rows and columns, and a double line below its header. Each
column is as wide as its widest line and one blank on each side; a cell with several lines makes
its whole row that high.

Widths are counted in columns of a terminal and not in characters, which is what the modules on
text are for. A cell is split at line feeds only; it is never wrapped, however wide it is, and a
line is filled up with blanks at its right (`padded`). Rows are separated by a rule, the header is
set off by a double one, and the last line has no line feed behind it.

The width of a column is the maximum over the header and all rows, so that all lines of one table
are equally wide, as far as widths of joined characters add up. A row that is shorter than the
header ends early.
-/

namespace TransitQuery

namespace Table

/-- The lines of a cell. There is at least one. -/
def cellLines : List Char → List (List Char)
  | [] => [[]]
  | c :: rest =>
    if c = '\n' then [] :: cellLines rest
    else
      match cellLines rest with
      | [] => [[c]]
      | line :: lines => (c :: line) :: lines

/-- The width of the widest line of a cell. -/
def cellWidth (cell : List Char) : Nat :=
  ((cellLines cell).map Text.width).foldl max 0

/-- The widths that columns need for some rows, each at least as given. -/
def widths (least : List Nat) (rows : List (List (List Char))) : List Nat :=
  rows.foldl (fun ws row => ws.zipWith max (row.map cellWidth)) least

/-- A line filled up with blanks to a width. -/
def padded (width : Nat) (line : List Char) : List Char :=
  line ++ List.replicate (width - Text.width line) ' '

/-- A line of a table: segments, with a mark between them and at both ends. -/
def ruled (left inner right : Char) (segments : List (List Char)) : List Char :=
  left :: Text.separated [inner] segments ++ [right]

/-- The segments of a horizontal line over the columns. -/
def stroke (c : Char) (widths : List Nat) : List (List Char) :=
  widths.map fun w => List.replicate (w + 2) c

/-- One line of the cells of a row. -/
def rowLine (widths : List Nat) (cells : List (List (List Char))) (k : Nat) : List Char :=
  ruled '|' '|' '|'
    (widths.zipWith (fun w lines => ' ' :: padded w ((lines[k]?).getD []) ++ [' ']) cells)

/-- The lines of a row. -/
def rowLines (widths : List Nat) (row : List (List Char)) : List (List Char) :=
  let cells := row.map cellLines
  (List.range ((cells.map List.length).foldl max 0)).map (rowLine widths cells)

/-- The lines of rows with a line between every two. -/
def bodyLines (widths : List Nat) : List (List (List Char)) → List (List Char)
  | [] => []
  | [row] => rowLines widths row
  | row :: rest =>
    rowLines widths row ++ ruled '|' '+' '|' (stroke '-' widths) :: bodyLines widths rest

/-- The lines of a table. -/
def lines (header : List (List Char)) (rows : List (List (List Char))) : List (List Char) :=
  let ws := widths (header.map cellWidth) rows
  let edge := ruled '+' '+' '+' (stroke '-' ws)
  [edge] ++ rowLines ws header ++ [ruled '+' '=' '+' (stroke '=' ws)] ++ bodyLines ws rows ++ [edge]

/-- A table with a header. -/
def draw (header : List String) (rows : List (List String)) : String :=
  String.ofList (Text.separated ['\n']
    (lines (header.map String.toList) (rows.map (·.map String.toList))))

end Table

end TransitQuery
