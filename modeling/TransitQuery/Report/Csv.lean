import TransitQuery.Text.Joined

/-!
# Comma-separated values

A record is a line of values with commas between them. Values that can hold anything stand between
double quotes, with a quote inside written twice; names stand for themselves.

The heading of a report is made of names that the program chooses, and so are the names of parts;
these stand without quotes. Whatever comes from a query, from an engine or from data is quoted, so
that a comma, a quote or a line break in it ends neither the value nor the record. Every record
ends its line but that of an error, which is the last line and stays open. Reading a report back
gives the parts it was made from; the theory of reports shows it for each kind.
-/

namespace TransitQuery

namespace Csv

/-- A value that can hold anything. -/
def value (s : String) : List Char :=
  Text.enclosed '"' s.toList

/-- A record that ends its line. -/
def record (values : List (List Char)) : List Char :=
  Text.separated [','] values ++ ['\n']

/-- One value on each line, below its name. -/
def column (name : String) (values : List String) : List Char :=
  record [name.toList] ++ (values.map fun v => record [value v]).flatten

/-- A name and a value on each line, below the words that say so. -/
def fields (rows : List (String × String)) : List Char :=
  record ["field".toList, "value".toList] ++
    (rows.map fun r => record [r.1.toList, value r.2]).flatten

/-- A message below its name, on a line that is not ended. -/
def failure (message : String) : List Char :=
  record ["error".toList] ++ value message

end Csv

end TransitQuery
