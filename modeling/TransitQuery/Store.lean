import TransitQuery.Geometry.Box
import TransitQuery.Plan.Request
import TransitQuery.Predicate.Evaluate

/-!
# Tables in memory

A store holds named tables of rows and answers requests. The rows that satisfy the predicate are
reduced to the requested columns, and of those with one text only the first is kept.

A collection of GeoJSON features is loaded as one row for each feature: its properties, the
corners of its box in four columns, and its geometry in a column of its own.

Tables are named in the order in which they were made, and inserting appends, so that rows keep the
order in which they came. An answer decides the predicate on every row of the table, and fails if
one of them cannot be decided, however many others can (`Request.answer`). Distinctness is that of
the printed row after projection.

Loading does not reject features. A geometry that cannot be read is stored as it is and gets no
box; so is one without positions, and a corner of a box that is not finite leaves its column out.
The corners are written after the properties and replace properties of the same name. Only a
collection without an array of features is refused, and then nothing is added.
-/

namespace TransitQuery

/-- Why an engine does not answer. -/
inductive BackendError (R : Type) where
  | closed
  | noTable (name : String)
  | undecided (cause : EvaluationError R)
  | notACollection
  /-- What another engine reports. -/
  | reported (message : String)

/-- Named tables of rows. -/
structure Store (R : Type) where
  tables : List (String × List (Row R))

variable {R : Type}

/-- Reads a row. -/
def Row.ofJson? (v : Json R) : Option (Row R) :=
  v.normalize.members?

namespace Store

/-- The store without tables. -/
def empty : Store R := ⟨[]⟩

/-- The rows of a table, if there is one of that name. -/
def rows? (s : Store R) (table : String) : Option (List (Row R)) :=
  (s.tables.find? (·.1 = table)).map Prod.snd

/-- The number of rows of a table; none if it is missing. -/
def rowCount (s : Store R) (table : String) : Nat :=
  ((s.rows? table).getD []).length

/-- Adds rows to a table, which is made if it is missing. -/
def insert (s : Store R) (table : String) (rows : List (Row R)) : Store R :=
  match s.rows? table with
  | none => ⟨s.tables ++ [(table, rows)]⟩
  | some _ => ⟨s.tables.map fun t => if t.1 = table then (table, t.2 ++ rows) else t⟩

end Store

variable [Scalar R]

/-- The wording of an error. -/
def BackendError.message : BackendError R → String
  | closed => "connection is closed"
  | noTable name => "no such table: " ++ name
  | undecided cause => cause.message
  | notACollection => "GeoJSON input is not a FeatureCollection"
  | reported message => message

/-! ### Answering -/

namespace Row

/-- The text by which rows are told apart. -/
def text (row : Row R) : List Char :=
  (Json.obj row).compactChars

/-- The rows without those whose text has occurred before. -/
def distinct (rows : List (Row R)) : List (Row R) :=
  ((rows.map fun row => (row.text, row)).eraseDupsBy fun a b => a.1 == b.1).map Prod.snd

end Row

/-- What a request yields on the rows of its table. -/
def Request.answer (r : Request R) (rows : List (Row R)) :
    Except (EvaluationError R) (List (Row R)) := do
  let kept ← r.predicate.filter rows
  return Row.distinct (kept.map (Row.project r.columns))

namespace Store

/-- The answer to a request. -/
def answer (s : Store R) (r : Request R) : Except (BackendError R) (List (Row R)) :=
  match s.rows? r.table with
  | none => .error (.noTable r.table)
  | some rows => (r.answer rows).mapError .undecided

end Store

/-! ### Loading features -/

/-- Puts a number into a column, unless it is not finite. -/
def Row.putNumber (row : Row R) (column : String) (x : R) : Row R :=
  if Scalar.isFinite x then Json.insertMember column (.real x) row else row

/-- Puts the corners of a box into four columns. -/
def Row.putBox (row : Row R) (columns : BoxColumns) (b : Box R) : Row R :=
  (((row.putNumber columns.minx b.minx).putNumber columns.miny b.miny).putNumber columns.maxx
    b.maxx).putNumber columns.maxy b.maxy

/-- Puts a geometry into a row: its box, if it has one, and then the value itself. -/
def Row.putGeometry (row : Row R) (columns : BoxColumns) (column : String) (v : Json R) : Row R :=
  let boxed :=
    match (Geometry.ofGeoJson v).toOption.bind Geometry.box? with
    | some b => row.putBox columns b
    | none => row
  Json.insertMember column v boxed

/-- The row of a feature. -/
def Row.ofFeature (columns : BoxColumns) (column : String) (feature : Json R) : Row R :=
  let properties := ((feature.member? "properties").bind Json.members?).getD []
  match (feature.member? "geometry").bind Json.nonNull? with
  | some v => Row.putGeometry properties columns column v
  | none => properties

/-- The rows of a collection of features. -/
def Row.ofCollection (columns : BoxColumns) (column : String) (collection : Json R) :
    Except (BackendError R) (List (Row R)) :=
  match (collection.member? "features").bind Json.items? with
  | some features => .ok (features.map (Row.ofFeature columns column))
  | none => .error .notACollection

/-- Adds the rows of a collection of features to a table. -/
def Store.load (s : Store R) (table : String) (columns : BoxColumns) (column : String)
    (collection : Json R) : Except (BackendError R) (Store R) := do
  return s.insert table (← Row.ofCollection columns column collection)

end TransitQuery
