import TransitQuery.Plan.Settings
import TransitQuery.Report.Basic

/-!
# Arguments of the command line

A command line names one of three commands and gives its options. An option is given at most once,
by its long name or by its letter; its value is attached or is the next argument. A value does not
start like an option unless the option allows it. The format may stand on either side of the
command; either one must be a format, and the one behind the command counts.

Reading has two stages. `CommandLine.readWords` splits the arguments into options with their
values, before and behind the command, and knows of each option only its names and whether a value
may start with a hyphen. `Invocation.ofWords?` then makes an invocation of them: it looks up the
command, reads the values that are numbers, and refuses data from files and from a database at
once. Either stage may fail, and then the program prints how it is used.
-/

namespace TransitQuery

namespace CommandLine

/-- What can be asked for. -/
inductive Command where
  | compile
  | explain
  | run
  deriving DecidableEq

/-- The options. -/
inductive OptionName where
  | format
  | query
  | context
  | point
  | routes
  | stops
  | sqlite
  | timeout
  | routesTable
  | stopsTable
  deriving DecidableEq

/-- The name of a command. -/
def Command.name : Command → String
  | compile => "compile"
  | explain => "explain"
  | run => "run"

/-- The command with a name. -/
def Command.ofName? (name : String) : Option Command :=
  [compile, explain, run].find? (·.name = name)

namespace OptionName

/-- All options. -/
def all : List OptionName :=
  [format, query, context, point, routes, stops, sqlite, timeout, routesTable, stopsTable]

/-- The long name of an option. -/
def long : OptionName → String
  | format => "format"
  | query => "query"
  | context => "context"
  | point => "point"
  | routes => "routes"
  | stops => "stops"
  | sqlite => "sqlite"
  | timeout => "timeout-ms"
  | routesTable => "routes-table"
  | stopsTable => "stops-table"

/-- The letter of an option, if it has one. -/
def letter? : OptionName → Option Char
  | query => some 'q'
  | context => some 'c'
  | point => some 'p'
  | _ => none

/-- Whether a value may start like an option. -/
def takesHyphens : OptionName → Bool
  | point => true
  | _ => false

/-- Whether the value names a file, which cannot be empty. -/
def isFile : OptionName → Bool
  | query | context | routes | stops | sqlite => true
  | _ => false

/-- Whether an option is known behind a command, or before any. -/
def isKnown (command : Option Command) : OptionName → Bool
  | format => true
  | query | context | point => command.isSome
  | _ => command = some .explain || command = some .run

end OptionName

/-! ### Splitting -/

/-- An argument, by how it starts. -/
inductive Token where
  | long (name : List Char) (value : Option (List Char))
  | letter (name : Char) (rest : List Char)
  | separator
  | plain

/-- Splits at the first equals sign. -/
def splitValue : List Char → List Char × Option (List Char)
  | [] => ([], none)
  | c :: rest =>
    if c = '=' then ([], some rest)
    else
      let (name, value) := splitValue rest
      (c :: name, value)

/-- How an argument starts. A lone hyphen is a plain argument. -/
def Token.of : List Char → Token
  | ['-', '-'] => separator
  | '-' :: '-' :: rest =>
    let (name, value) := splitValue rest
    long name value
  | '-' :: c :: rest => letter c rest
  | _ => plain

/-- The option that a token names behind a command, and the value attached to it. -/
def Token.option? (command : Option Command) :
    Token → Option (OptionName × Option (List Char))
  | long name value =>
    (OptionName.all.find? fun o => o.isKnown command && o.long = String.ofList name).map (·, value)
  | letter name rest =>
    (OptionName.all.find? fun o => o.isKnown command && o.letter? = some name).map fun o =>
      (o, match rest with
        | [] => none
        | '=' :: value => some value
        | value => some value)
  | _ => none

/-- Whether an argument can be the value of an option in front of it. -/
def canBeValue (o : OptionName) (argument : List Char) : Bool :=
  o.takesHyphens ||
    match Token.of argument with
    | .plain => true
    | _ => false

/-! ### Reading -/

/-- What has been read: values of options before the command, the command, and values of options
behind it. -/
structure Words where
  before : List (OptionName × String)
  command : Option Command
  behind : List (OptionName × String)

namespace Words

/-- Nothing yet. -/
def none : Words := ⟨[], .none, []⟩

/-- The values on the side that is being read. -/
def side (w : Words) : List (OptionName × String) :=
  if w.command.isSome then w.behind else w.before

/-- Adds the value of an option, which must not have one yet. -/
def add? (w : Words) (o : OptionName) (value : List Char) : Option Words :=
  if w.side.any (·.1 = o) then .none
  else
    let entry := (o, String.ofList value)
    some (if w.command.isSome then { w with behind := w.behind ++ [entry] }
      else { w with before := w.before ++ [entry] })

/-- Adds a command, of which there is only one. -/
def addCommand? (w : Words) (argument : List Char) : Option Words := do
  if w.command.isSome then failure
  return { w with command := some (← Command.ofName? (String.ofList argument)) }

/-- The value of an option. One behind the command counts more than one before it. -/
def value? (w : Words) (o : OptionName) : Option String :=
  ((w.behind ++ w.before).find? (·.1 = o)).map Prod.snd

end Words

/-- Reads arguments, with an option in front of them that may still lack its value. Behind a
separator nothing is allowed. -/
def readWords : Words → Option OptionName → List (List Char) → Option Words
  | w, none, [] => some w
  | _, some _, [] => none
  | w, some o, argument :: rest =>
    if canBeValue o argument then (w.add? o argument).bind (readWords · none rest) else none
  | w, none, argument :: rest =>
    match Token.of argument with
    | .plain => (w.addCommand? argument).bind (readWords · none rest)
    | .separator => if rest.isEmpty then some w else none
    | token =>
      match token.option? w.command with
      | none => none
      | some (o, none) => readWords w (some o) rest
      | some (o, some value) => (w.add? o value).bind (readWords · none rest)

/-! ### Invocations -/

/-- Which data a query runs on. -/
structure Sources where
  routes : Option String
  stops : Option String
  sqlite : Option String

/-- A command with its options. -/
structure Invocation where
  command : Command
  format : ReportFormat
  query : String
  context : String
  point : Option String
  sources : Sources
  settings : Settings

/-- The names of the files that an invocation may read. -/
def Invocation.fileNames (i : Invocation) : List String :=
  i.query :: i.context :: (i.sources.routes.toList ++ i.sources.stops.toList)

/-- A natural number below 2 ^ 64, which may have a plus sign. -/
def natural? (text : String) : Option Nat :=
  let digits := match text.toList with
    | '+' :: rest => rest
    | s => s
  if digits.isEmpty || !digits.all Char.isDigit then none
  else
    let n := Numeral.ofDigits digits
    if n < UInt64.size then some n else none

/-- An optional value, if it can be read. -/
def parsed? {α : Type} (read : String → Option α) : Option String → Option (Option α)
  | none => some none
  | some text => (read text).map some

/-- Whether a value can be one of an option by itself: files have names, and formats are known. -/
def OptionName.admits (o : OptionName) (value : String) : Bool :=
  (!o.isFile || value ≠ "") && (o ≠ .format || (ReportFormat.ofName? value).isSome)

/-- The invocation that words stand for. Data comes from files or from a database, not both. -/
def Invocation.ofWords? (w : Words) : Option Invocation := do
  let command ← w.command
  if !(w.before ++ w.behind).all fun e => e.1.admits e.2 then failure
  let format ← parsed? ReportFormat.ofName? (w.value? .format)
  let timeout ← parsed? natural? (w.value? .timeout)
  let sources : Sources := ⟨w.value? .routes, w.value? .stops, w.value? .sqlite⟩
  if sources.sqlite.isSome && (sources.routes.isSome || sources.stops.isSome) then failure
  return {
    command
    format := format.getD .table
    query := ← w.value? .query
    context := ← w.value? .context
    point := w.value? .point
    sources
    settings := { Settings.default with
      timeout := timeout.map Duration.mk
      routesTable := (w.value? .routesTable).getD Settings.default.routesTable
      stopsTable := (w.value? .stopsTable).getD Settings.default.stopsTable } }

/-- The invocation that arguments stand for, if they can be understood. -/
def Invocation.ofArguments? (arguments : List String) : Option Invocation :=
  (readWords Words.none none (arguments.map String.toList)).bind ofWords?

end CommandLine

end TransitQuery
