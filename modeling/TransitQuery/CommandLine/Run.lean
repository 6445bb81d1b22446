import TransitQuery.CommandLine.Arguments
import TransitQuery.Service.Session
import TransitQuery.Text.Blank

/-!
# Running the command line

`CommandLine.run` carries an invocation out: it reads the query and its context, and compiles,
explains or runs the query. Files are given as a function from names to texts, so that what is
printed depends on their contents alone.

The way of an invocation is a computation that ends with an output, or with an error and its
wording (`CommandError.message`). The context may be given by a file, and its point by an option.
Features are loaded from files into the tables for routes and stops, in the column in which the
context expects the geometry (`CommandLine.geometryColumn`), and a query runs on what has been
loaded. The code that the program ends with is part of the output: a result that is a failure is
printed, but the code says so.
-/

namespace TransitQuery

namespace CommandLine

/-- What is printed, and the code with which the program ends. -/
structure Output where
  code : Nat
  /-- What goes to the standard output. -/
  output : String
  /-- What goes to the standard error. -/
  errors : String

/-- The texts of files by name, or why one cannot be read. -/
abbrev Files := String → Except String String

/-- Why an invocation fails. -/
inductive CommandError (R : Type) where
  | unreadable (name reason : String)
  | malformed (name : String)
  | badPoint (text : String)
  | compile (cause : CompileError R)
  | plan (cause : PlanError R)
  | backend (cause : BackendError R)
  | noData
  | noDatabases

variable {R : Type} [Scalar R]

/-- The wording of an error. -/
def CommandError.message : CommandError R → String
  | unreadable name reason => "cannot read " ++ name ++ ": " ++ reason
  | malformed name => "cannot parse " ++ name ++ ": not a document of the expected form"
  | badPoint text => "invalid point '" ++ text ++ "': expected LAT,LNG"
  | compile cause => invalidMessage cause.messages
  | plan cause => cause.message
  | backend cause => (ServiceError.backend cause).message
  | noData => "run needs a dataset: pass --routes/--stops GeoJSON or --sqlite"
  | noDatabases => "cannot open a database"

/-! ### Inputs -/

/-- The text of a file. -/
def readText (files : Files) (name : String) : Except (CommandError R) String :=
  (files name).mapError (.unreadable name)

/-- A value from the text of a file. -/
def readFile {α : Type} (files : Files) (read : String → Option α) (name : String) :
    Except (CommandError R) α := do
  match read (← readText files name) with
  | some a => return a
  | none => throw (.malformed name)

/-- A latitude and a longitude with a comma between them. -/
def point? (text : String) : Option (LatLng R) :=
  match text.toList.span (· ≠ ',') with
  | (lat, ',' :: lng) => do
    return ⟨Scalar.ofNumeral (← Numeral.ofText? (Text.trim lat)),
      Scalar.ofNumeral (← Numeral.ofText? (Text.trim lng))⟩
  | _ => none

/-- The context with the point of an invocation, if it gives one. -/
def withPoint (c : Context R) : Option String → Except (CommandError R) (Context R)
  | none => .ok c
  | some text =>
    match point? text with
    | some p => .ok { c with point := some p }
    | none => .error (.badPoint text)

/-- The query and the context of an invocation. -/
def readInputs (files : Files) (i : Invocation) :
    Except (CommandError R) (SpatialQuery R × Context R) := do
  let q ← readFile files SpatialQuery.ofText? i.query
  let c ← readFile files Context.ofText? i.context
  return (q, ← withPoint c i.point)

/-- The column into which the geometry of features is loaded. -/
def geometryColumn (c : Context R) : String :=
  (c.geojsonField <|> c.geometryField).getD "geometry"

/-- Adds the features of a file, if one is given, to a table. -/
def loadFile (files : Files) (c : Context R) (table : String) (store : Store R) :
    Option String → Except (CommandError R) (Store R)
  | none => .ok store
  | some name => do
    let collection ← readFile files Json.ofText? name
    (store.load table (c.bboxFields.getD BoxColumns.default) (geometryColumn c)
      collection).mapError .backend

/-- The data of an invocation. -/
def readStore (files : Files) (c : Context R) (i : Invocation) :
    Except (CommandError R) (Store R) := do
  if i.sources.sqlite.isSome then throw .noDatabases
  if i.sources.routes.isNone && i.sources.stops.isNone then throw .noData
  let store ← loadFile files c i.settings.routesTable Store.empty i.sources.routes
  loadFile files c i.settings.stopsTable store i.sources.stops

/-! ### Commands -/

/-- What goes right. -/
def printed (text : String) : Output :=
  ⟨0, text ++ "\n", ""⟩

/-- What goes wrong. -/
def complained (text : String) : Output :=
  ⟨1, "", text ++ "\n"⟩

/-- Compiles a query. Only here errors follow the format. -/
def compile (now : Instant) (i : Invocation) (q : SpatialQuery R) (c : Context R) : Output :=
  match q.compile now c with
  | .ok contract => printed (Report.contract i.format contract)
  | .error cause =>
    complained (Report.failure (R := R) i.format (CommandError.compile cause).message)

/-- Explains how a query would run. -/
def explain (now : Instant) (i : Invocation) (q : SpatialQuery R) (c : Context R) :
    Except (CommandError R) Output := do
  let contract ← (q.compile now c).mapError .compile
  let plan ← (Plan.ofContract contract c i.settings).mapError .plan
  return printed (Report.explanation (R := R) i.format (Explanation.ofPlan q contract plan))

/-- Runs a query on a store. -/
def resultOn (store : Store R) (now : Instant) (settings : Settings) (q : SpatialQuery R)
    (c : Context R) : QueryResult :=
  (Session.execute { Session.ofSettings settings with store } .none now q c).2

/-- Prints the result of a query, whose failure is also told by the code. -/
def run (store : Store R) (now : Instant) (i : Invocation) (q : SpatialQuery R) (c : Context R) :
    Output :=
  let r := resultOn store now i.settings q c
  { printed (Report.result (R := R) i.format r) with code := if r.success then 0 else 1 }

/-- Carries a command out. -/
def perform (files : Files) (now : Instant) (i : Invocation) :
    Except (CommandError R) Output := do
  -- Both files are read before a command looks at them, so a bad file wins over a bad query.
  let (q, c) ← readInputs (R := R) files i
  match i.command with
  | .compile => return compile now i q c
  | .explain => explain now i q c
  | .run => return run (← readStore files c i) now i q c

/-- What the program prints for an invocation. -/
def Invocation.output (files : Files) (now : Instant) (i : Invocation) : Output :=
  match perform (R := R) files now i with
  | .ok output => output
  | .error e => complained ("Error: " ++ e.message)

/-- How the program is used. -/
def usage : String :=
  "usage: transit-query [--format table|json|csv] compile|explain|run --query FILE --context FILE"

/-- What the program prints for its arguments. -/
def output (files : Files) (now : Instant) (arguments : List String) : Output :=
  match Invocation.ofArguments? arguments with
  | some i => i.output (R := R) files now
  | none => ⟨2, "", usage ++ "\n"⟩

end CommandLine

end TransitQuery
