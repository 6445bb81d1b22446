import TransitQuery.Proofs.Decimal.Numeral
import TransitQuery.Proofs.Text.Words
import TransitQuery.Report.Basic
import TransitQuery.Scalar.Double

/-!
# Comma-separated values are read back

Here is a reader of comma-separated values for any text: it walks through the characters once, and
knows only whether it stands at the start of a field, in a field without quotes, between quotes, or
behind a quote that may be the first of two. A line feed ends a record except between quotes, and
what stands in a field without quotes must be neither a quote nor a carriage return.

Reports in this form lose nothing: the reader gives back the heading and then the values of each
row, whatever the values hold, and a failure under a heading that no list of identifiers has
(`Report.read_csv`). The invariant of the proofs is the state behind a field: what follows it is
read without looking back.

* `Csv.Scan`: the state of the reader, and `Csv.read?` the records of a text.
* `Csv.Scan.exists_run?_of_writes`: a field is read as what it is written for, between quotes or as
  a name that stands for itself. Quotes may hold anything, also the characters that would end a
  field.
* `Csv.read?_rows`: a heading and rows are read as these, one record each.
* `Report.mainRecords`, `Report.blockRecords`: the records that a contract has for its entries,
  stated from the entries. A main clause counts only in the first place, and blocks are numbered
  from one.

What is to be read from a contract and an explanation is spelt out field by field in the theorem,
with the names in the first column and the values in the second, so it does not refer to the
functions that print them.
-/

namespace TransitQuery

namespace Csv

/-! ### Reading -/

/-- Where a reader stands. -/
inductive Place where
  /-- At the start of a field. -/
  | start
  /-- In a field without quotes. -/
  | bare
  /-- Between the quotes of a field. -/
  | quoted
  /-- Behind a quote between quotes, which closes the field or is the first of two. -/
  | closing
  deriving DecidableEq

/-- What has been read: the field so far, the fields before it in its record, and the records before
that one. -/
structure Scan where
  place : Place
  field : List Char
  fields : List (List Char)
  records : List (List (List Char))

namespace Scan

/-- Before a record, with the records before it. -/
def between (records : List (List (List Char))) : Scan :=
  ⟨.start, [], [], records⟩

/-- One more character of the field. -/
def push (s : Scan) (place : Place) (c : Char) : Scan :=
  { s with place, field := s.field ++ [c] }

/-- Ends the field. -/
def endField (s : Scan) : Scan :=
  ⟨.start, [], s.fields ++ [s.field], s.records⟩

/-- Ends the field and the record. -/
def endRecord (s : Scan) : Scan :=
  between (s.records ++ [s.fields ++ [s.field]])

/-- Goes on with a character that is no part of a field. -/
def separate? (s : Scan) (c : Char) : Option Scan :=
  if c = ',' then some s.endField else if c = '\n' then some s.endRecord else none

/-- Goes on with a character. -/
def step? (s : Scan) (c : Char) : Option Scan :=
  match s.place with
  | .quoted => some (if c = '"' then { s with place := .closing } else s.push .quoted c)
  | .closing => if c = '"' then some (s.push .quoted c) else s.separate? c
  | .start =>
    if c = '"' then some { s with place := .quoted }
    else if c = ',' ∨ c = '\n' then s.separate? c
    else if c = '\r' then none
    else some (s.push .bare c)
  | .bare =>
    if c = ',' ∨ c = '\n' then s.separate? c
    else if c = '"' ∨ c = '\r' then none
    else some (s.push .bare c)

/-- Goes on with several characters. -/
def run? (s : Scan) (cs : List Char) : Option Scan :=
  cs.foldlM step? s

/-- The records at the end of a text. The last one may do without a line feed. -/
def finish? (s : Scan) : Option (List (List (List Char))) :=
  match s.place with
  | .quoted => none
  | .start => some (if s.fields = [] then s.records else s.endRecord.records)
  | _ => some s.endRecord.records

end Scan

/-- The records of a text. -/
def read? (text : String) : Option (List (List String)) :=
  ((Scan.between []).run? text.toList).bind fun s =>
    s.finish?.map (·.map (·.map String.ofList))

/-! ### Fields -/

/-- A character that may stand in a field without quotes. -/
def IsPlain (c : Char) : Prop :=
  c ≠ '"' ∧ c ≠ ',' ∧ c ≠ '\n' ∧ c ≠ '\r'

instance : DecidablePred IsPlain :=
  fun c => inferInstanceAs (Decidable (c ≠ '"' ∧ c ≠ ',' ∧ c ≠ '\n' ∧ c ≠ '\r'))

private theorem isPlain_of_isDigit {c : Char} (h : c.isDigit = true) : IsPlain c := by
  refine ⟨?_, ?_, ?_, ?_⟩ <;> rintro rfl <;> cases h

/-- A text that may stand for itself. -/
structure IsName (s : List Char) : Prop where
  ne_nil : s ≠ []
  isPlain : ∀ c ∈ s, IsPlain c

instance (s : List Char) : Decidable (IsName s) :=
  decidable_of_iff (s ≠ [] ∧ s.all (IsPlain ·))
    ⟨fun ⟨hne, h⟩ => ⟨hne, by simpa using h⟩, fun h => ⟨h.1, by simpa using h.2⟩⟩

/-- The ways of writing a field: between quotes, or a name as it stands. -/
inductive Writes : List Char → String → Prop
  | quoted (s : String) : Writes (value s) s
  | bare {s : String} (h : IsName s.toList) : Writes s.toList s

namespace Scan

variable {s t : Scan} {cs ds : List Char}

/-- A text may be read in two portions. -/
private theorem run?_append (h : s.run? cs = some t) (ds : List Char) :
    s.run? (cs ++ ds) = t.run? ds := by
  rw [run?, List.foldlM_append]
  exact (congrArg (· >>= fun t => t.run? ds) h).trans rfl

/-- Between quotes everything is kept, and of two quotes one. -/
theorem run?_doubled (hs : s.place = .quoted) (cs : List Char) :
    s.run? (Text.doubled '"' cs) = some { s with field := s.field ++ cs } := by
  induction cs generalizing s with
  | nil => simp [run?, Text.doubled]
  | cons c cs ih =>
    -- Two steps for a quote and one for any other character lead to the same state.
    have hpush : (s.push .quoted c).run? (Text.doubled '"' cs) =
        some { s with field := s.field ++ c :: cs } := by
      rw [ih rfl, push, List.append_assoc, List.singleton_append, hs]
    rw [Text.doubled]
    split
    · rename_i hc
      subst hc
      have hquote : s.run? ['"', '"'] = some (s.push .quoted '"') := by
        simp [run?, step?, hs, push]
      exact (run?_append hquote _).trans hpush
    · rename_i hc
      have hchar : s.run? [c] = some (s.push .quoted c) := by simp [run?, step?, hs, hc]
      exact (run?_append hchar _).trans hpush

/-- A field between quotes is read up to the quote that closes it. -/
theorem run?_value (hs : s.place = .start) (hfield : s.field = []) (v : String) :
    s.run? (value v) = some { s with place := .closing, field := v.toList } := by
  have hopen : s.run? ['"'] = some { s with place := .quoted } := by simp [run?, step?, hs]
  have hinside := run?_doubled (s := { s with place := .quoted }) rfl v.toList
  rw [value, Text.enclosed, List.cons_append, ← List.singleton_append, run?_append hopen,
    run?_append hinside, hfield]
  simp [run?, step?]

/-- Characters without a meaning are added to the field. -/
private theorem run?_plain (hs : s.place = .bare) (hcs : ∀ c ∈ cs, IsPlain c) :
    s.run? cs = some { s with field := s.field ++ cs } := by
  induction cs generalizing s with
  | nil => simp [run?]
  | cons c cs ih =>
    obtain ⟨⟨hquote, hcomma, hfeed, hreturn⟩, hrest⟩ := List.forall_mem_cons.mp hcs
    have hchar : s.run? [c] = some (s.push .bare c) := by
      simp [run?, step?, hs, hquote, hcomma, hfeed, hreturn]
    refine (run?_append hchar cs).trans ((ih rfl hrest).trans ?_)
    rw [push, List.append_assoc, List.singleton_append, hs]

/-- A name is read up to its end. -/
theorem run?_name (hs : s.place = .start) (hfield : s.field = []) (hcs : IsName cs) :
    s.run? cs = some { s with place := .bare, field := cs } := by
  obtain ⟨c, rest, rfl⟩ := List.exists_cons_of_ne_nil hcs.ne_nil
  obtain ⟨⟨hquote, hcomma, hfeed, hreturn⟩, hrest⟩ := List.forall_mem_cons.mp hcs.isPlain
  have hchar : s.run? [c] = some (s.push .bare c) := by
    simp [run?, step?, hs, hquote, hcomma, hfeed, hreturn]
  refine (run?_append hchar rest).trans ((run?_plain rfl hrest).trans ?_)
  rw [push, hfield, List.nil_append, List.singleton_append]

/-- Whether the reader stands behind the end of a field, or where it may be one. -/
def IsBehindField (s : Scan) : Prop :=
  s.place = .bare ∨ s.place = .closing

/-- A field is read as what it is written for, however it is written. -/
theorem exists_run?_of_writes (hs : s.place = .start) (hfield : s.field = []) {v : String}
    (h : Writes cs v) :
    ∃ t, s.run? cs = some t ∧ t.IsBehindField ∧ t.field = v.toList ∧ t.fields = s.fields ∧
      t.records = s.records := by
  cases h with
  | quoted => exact ⟨_, run?_value hs hfield v, .inr rfl, rfl, rfl, rfl⟩
  | bare hname => exact ⟨_, run?_name hs hfield hname, .inl rfl, rfl, rfl, rfl⟩

private theorem IsBehindField.run?_comma (h : s.IsBehindField) :
    s.run? [','] = some s.endField := by
  obtain h | h := h <;> simp [run?, step?, separate?, h]

private theorem IsBehindField.run?_newline (h : s.IsBehindField) :
    s.run? ['\n'] = some s.endRecord := by
  obtain h | h := h <;> simp [run?, step?, separate?, h]

private theorem IsBehindField.finish? (h : s.IsBehindField) :
    s.finish? = some s.endRecord.records := by
  obtain h | h := h <;> simp [Scan.finish?, h]

/-! ### Records -/

/-- The fields of a record that follow one field, and the end of the record. -/
theorem run?_laterFields {values : List (List Char)} {vs : List String}
    (h : List.Forall₂ Writes values vs) (hs : s.IsBehindField) :
    s.run? (values.flatMap ([','] ++ ·) ++ ['\n']) =
      some (between (s.records ++ [s.fields ++ s.field :: vs.map String.toList])) := by
  induction h generalizing s with
  | nil => simpa [endRecord] using hs.run?_newline
  | cons hwrites _ ih =>
    obtain ⟨t, ht, hbehind, hfield, hfields, hrecords⟩ :=
      exists_run?_of_writes (s := s.endField) rfl rfl hwrites
    rw [List.flatMap_cons, List.append_assoc, List.append_assoc, run?_append hs.run?_comma,
      run?_append ht, ih hbehind, hfield, hfields, hrecords]
    simp [endField]

/-- A record is read as what its fields are written for. -/
theorem run?_record {values : List (List Char)} {vs : List String}
    (h : List.Forall₂ Writes values vs) (hne : values ≠ []) (rs : List (List (List Char))) :
    (between rs).run? (record values) = some (between (rs ++ [vs.map String.toList])) := by
  cases h with
  | nil => exact absurd rfl hne
  | cons hwrites hlater =>
    obtain ⟨t, ht, hbehind, hfield, hfields, hrecords⟩ :=
      exists_run?_of_writes (s := between rs) rfl rfl hwrites
    rw [record, Text.separated_cons, List.append_assoc, run?_append ht,
      run?_laterFields hlater hbehind, hfield, hfields, hrecords]
    simp [between]

/-- Records are read one after the other. -/
theorem run?_records {α : Type} {values : α → List (List Char)} {vs : α → List String}
    {rows : List α} (h : ∀ row ∈ rows, List.Forall₂ Writes (values row) (vs row))
    (hne : ∀ row, values row ≠ []) (rs : List (List (List Char))) :
    (between rs).run? (rows.map fun row => record (values row)).flatten =
      some (between (rs ++ rows.map fun row => (vs row).map String.toList)) := by
  induction rows generalizing rs with
  | nil => simp [run?]
  | cons row rows ih =>
    obtain ⟨hrow, hrows⟩ := List.forall_mem_cons.mp h
    rw [List.map_cons, List.flatten_cons, run?_append (run?_record hrow (hne row) rs), ih hrows,
      List.append_assoc, List.map_cons, List.singleton_append]

end Scan

/-! ### Texts -/

private theorem map_map_ofList (vs : List (List String)) :
    (vs.map (·.map String.toList)).map (·.map String.ofList) = vs := by
  simp [Function.comp_def]

/-- A text with a heading and rows is read as these. -/
theorem read?_rows {heading : List (List Char)} {names : List String}
    (hheading : List.Forall₂ Writes heading names) (hnames : heading ≠ []) {α : Type}
    {values : α → List (List Char)} {vs : α → List String} {rows : List α}
    (h : ∀ row ∈ rows, List.Forall₂ Writes (values row) (vs row))
    (hne : ∀ row, values row ≠ []) :
    read? (String.ofList (record heading ++ (rows.map fun row => record (values row)).flatten)) =
      some (names :: rows.map vs) := by
  have hfirst := Scan.run?_record hheading hnames []
  have hrows := Scan.run?_records h hne ([] ++ [names.map String.toList])
  rw [read?, String.toList_ofList, Scan.run?_append hfirst, hrows, Option.bind_some]
  have hall := map_map_ofList (names :: rows.map vs)
  rw [List.map_cons, List.map_map] at hall
  exact congrArg some hall

/-- A column is read as its name and its values, each in a record. -/
private theorem read?_column {name : String} (hname : IsName name.toList) (values : List String) :
    read? (String.ofList (column name values)) = some ([name] :: values.map ([·])) :=
  read?_rows (.cons (.bare hname) .nil) (List.cons_ne_nil _ _)
    (fun v _ => .cons (.quoted v) .nil) fun _ => List.cons_ne_nil _ _

/-- Pairs are read as records of two, below their heading. -/
private theorem read?_fields {rows : List (String × String)}
    (hrows : ∀ row ∈ rows, IsName row.1.toList) :
    read? (String.ofList (fields rows)) =
      some (["field", "value"] :: rows.map fun row => [row.1, row.2]) := by
  have hfield : IsName "field".toList := by decide
  have hvalue : IsName "value".toList := by decide
  exact read?_rows (.cons (.bare hfield) (.cons (.bare hvalue) .nil)) (List.cons_ne_nil _ _)
    (fun row hrow => .cons (.bare (hrows row hrow)) (.cons (.quoted row.2) .nil))
    fun _ => List.cons_ne_nil _ _

/-- A quote in a field without quotes is refused. -/
example : read? "name\n26\"\n" = none := by decide

/-- A failure is read as one message, below a heading of its own. -/
private theorem read?_failure (message : String) :
    read? (String.ofList (failure message)) = some [["error"], [message]] := by
  have hname : IsName "error".toList := by decide
  have hfirst := Scan.run?_record (.cons (.bare hname) .nil) (List.cons_ne_nil _ _) []
  obtain ⟨t, ht, hbehind, hfield, hfields, hrecords⟩ :=
    Scan.exists_run?_of_writes (s := Scan.between ([] ++ [["error"].map String.toList])) rfl rfl
      (.quoted message)
  rw [read?, String.toList_ofList, failure, Scan.run?_append hfirst, ht, Option.bind_some,
    hbehind.finish?, Scan.endRecord, hfield, hfields, hrecords]
  simp [Scan.between]

end Csv

/-! ### Reports -/

/-- The names of the fields of an explanation need no quotes. -/
private theorem Explanation.isName_of_mem_rows (e : Explanation) :
    ∀ row ∈ e.rows, Csv.IsName row.1.toList := by
  have hnames : ∀ name ∈ ["description", "hash", "tier", "predicate", "statement", "post_filter"],
      Csv.IsName name.toList := by decide
  exact fun row hrow => hnames row.1 (List.mem_map_of_mem (f := (·.1)) hrow)

variable {R : Type}

private theorem isName_of_mem_supplementRows {ss : List (Supplement R)} {n : Nat} :
    ∀ row ∈ supplementRows n ss, Csv.IsName row.1.toList := by
  induction ss generalizing n with
  | nil => exact List.forall_mem_nil _
  | cons s rest ih =>
    refine List.forall_mem_cons.mpr ⟨?_, ih⟩
    have hword : Csv.IsName "block ".toList := by decide
    have hnumber : (toString n).toList = Numeral.digitChars n := String.toList_ofList
    refine ⟨by simp, fun c hc => ?_⟩
    rw [String.toList_append, hnumber] at hc
    obtain hc | hc := List.mem_append.mp hc
    · exact hword.isPlain c hc
    · exact Csv.isPlain_of_isDigit (Numeral.isDigit_of_mem_digitChars hc)

variable [Scalar R]

private theorem Contract.isName_of_mem_rows (c : Contract R) :
    ∀ row ∈ c.rows, Csv.IsName row.1.toList := by
  have hnames : ∀ name ∈ ["version", "find", "hash", "main"], Csv.IsName name.toList := by decide
  intro row hrow
  simp only [rows, List.mem_append, List.mem_cons, List.not_mem_nil, or_false, Option.mem_toList,
    Option.map_eq_some_iff] at hrow
  obtain ((rfl | rfl | rfl) | ⟨m, -, rfl⟩) | hrow := hrow
  · exact hnames _ (by simp)
  · exact hnames _ (by simp)
  · exact hnames _ (by simp)
  · exact hnames _ (by simp)
  · exact isName_of_mem_supplementRows row hrow

namespace Report

/-- The record of a main clause that comes first: how results relate to the target, and the
radius. -/
def mainRecords : List (Entry R) → List (List String)
  | .main m :: _ =>
    [["main", m.relation.name ++ " " ++ m.target.name ++ " (" ++ Scalar.text m.distance ++ "m)"]]
  | _ => []

/-- The records of resolved blocks, counted from `n`. Another main clause among them has no record
and is not counted. -/
def blockRecords : Nat → List (Entry R) → List (List String)
  | _, [] => []
  | n, .main _ :: entries => blockRecords n entries
  | n, .supplement s :: entries =>
    ["block " ++ toString n, s.type.name ++ " " ++ s.clause.kind.name] ::
      blockRecords (n + 1) entries

omit [Scalar R] in
/-- The rows of the blocks are their records, with the same numbers. -/
private theorem map_supplementRows (n : Nat) (c : Contract R) :
    (supplementRows n c.supplements).map (fun row => [row.1, row.2]) =
      blockRecords n (c.entries.drop 1) := by
  unfold Contract.supplements
  induction c.entries.drop 1 generalizing n with
  | nil => rfl
  | cons entry entries ih =>
    cases entry with
    | main m => exact ih n
    | supplement s => exact congrArg (List.cons _) (ih (n + 1))

/-- The rows of a contract are the records of its fields and entries, in this order. -/
private theorem map_rows (c : Contract R) :
    c.rows.map (fun row => [row.1, row.2]) =
      ["version", c.version] :: ["find", c.find.name] :: ["hash", c.hash] ::
        (mainRecords c.entries ++ blockRecords 1 (c.entries.drop 1)) := by
  have hmain : (c.mainClause?.map fun m => ("main", m.summary)).toList.map
      (fun row => [row.1, row.2]) = mainRecords c.entries := by
    unfold Contract.mainClause?
    rcases c.entries with - | ⟨_ | _, _⟩ <;> rfl
  rw [Contract.rows, List.map_append, List.map_append, hmain, map_supplementRows]
  rfl

/-- What is read from reports as comma-separated values, whatever text they hold: from identifiers
the heading and each identifier in a record of its own; from a contract and an explanation the
heading and then each name with its value, in the order in which they are written here; and from a
failure its message, under a heading of its own. So no failure is read as a list of identifiers. -/
theorem read_csv :
    (∀ ids, Csv.read? (result (R := R) .csv (.ofIds ids)) =
      some (["service_id"] :: ids.map ([·]))) ∧
    (∀ c : Contract R, Csv.read? (contract .csv c) =
      some (["field", "value"] :: ["version", c.version] :: ["find", c.find.name] ::
        ["hash", c.hash] :: (mainRecords c.entries ++ blockRecords 1 (c.entries.drop 1)))) ∧
    (∀ e : Explanation, Csv.read? (explanation (R := R) .csv e) =
      some [["field", "value"], ["description", e.description], ["hash", e.hash],
        ["tier", e.tier], ["predicate", e.predicate], ["statement", e.statement],
        ["post_filter", if e.refined then "true" else "false"]]) ∧
    (∀ message, Csv.read? (result (R := R) .csv (.failure message)) =
      some [["error"], [message]]) ∧
    (∀ messages, Csv.read? (result (R := R) .csv (.invalid messages)) =
      some [["error"], [Text.joined "; " messages]]) ∧
    ∀ (r : QueryResult) (ids : List String), r.message?.isSome →
      Csv.read? (result (R := R) .csv r) ≠ some (["service_id"] :: ids.map ([·])) := by
  -- A result with a message is written as its message, whatever else it holds.
  have hmessage : ∀ {r : QueryResult} {message : String}, r.message? = some message →
      Csv.read? (result (R := R) .csv r) = some [["error"], [message]] := by
    intro r message h
    have hresult : result (R := R) .csv r = failure (R := R) .csv message := by
      simp only [result, h]
    rw [hresult]
    exact Csv.read?_failure message
  refine ⟨fun ids => Csv.read?_column (by decide) ids, fun c => ?_,
    fun e => Csv.read?_fields e.isName_of_mem_rows,
    fun message => hmessage rfl, fun messages => hmessage rfl, fun r ids h => ?_⟩
  · rw [← map_rows]
    exact Csv.read?_fields c.isName_of_mem_rows
  · obtain ⟨message, h⟩ := Option.isSome_iff_exists.mp h
    rw [hmessage h]
    intro heq
    exact absurd (List.cons.inj (Option.some.inj heq)).1 (by decide)

/-- A contract with a quote in its version, two blocks, and a main clause in place of a third. -/
def quotedContract : Contract Float where
  version := "1.0\"rc\""
  find := .routes
  entries := [.main ⟨.selectedPoint, Scalar.ofInt 300, .within⟩,
    .supplement ⟨.excluded, .mode "Night, bus"⟩, .main ⟨.boundary, Scalar.ofInt 0, .intersects⟩,
    .supplement ⟨.alsoIncluded, .nearPoint (Scalar.ofInt 50)⟩]
  boundary := none
  compiledAt := ⟨0, 0⟩
  context := ⟨true, false, false⟩
  hash := "a,b\nc"

/-- An explanation with quotes, commas and line feeds. -/
def quotedExplanation : Explanation where
  description := "Find routes, all"
  hash := "a,b\nc"
  tier := "bbox"
  predicate := "\"mode\" = 'Bus'"
  statement := "SELECT DISTINCT \"id\",\n\"mode\" FROM \"routes\""
  refined := true

/-- Quotes, commas and line feeds in identifiers, in a contract and in an explanation are read back
in their own fields and records, and a failure is told from an identifier that reads the same. -/
theorem read_csv_quoted :
    Csv.read? (result (R := Float) .csv (.ofIds ["26", "N\"7\",\nnight"])) =
        some [["service_id"], ["26"], ["N\"7\",\nnight"]] ∧
      Csv.read? (contract .csv quotedContract) =
        some [["field", "value"], ["version", "1.0\"rc\""], ["find", "routes"],
          ["hash", "a,b\nc"], ["main", "within selected_point (300m)"],
          ["block 1", "exclude mode"], ["block 2", "also-include near_point"]] ∧
      Csv.read? (explanation (R := Float) .csv quotedExplanation) =
        some [["field", "value"], ["description", "Find routes, all"], ["hash", "a,b\nc"],
          ["tier", "bbox"], ["predicate", "\"mode\" = 'Bus'"],
          ["statement", "SELECT DISTINCT \"id\",\n\"mode\" FROM \"routes\""],
          ["post_filter", "true"]] ∧
      (QueryResult.failure "query cancelled").message?.isSome ∧
      Csv.read? (result (R := Float) .csv (.failure "query cancelled")) =
        some [["error"], ["query cancelled"]] ∧
      Csv.read? (result (R := Float) .csv (.invalid ["no point", "no \"id\""])) =
        some [["error"], ["no point; no \"id\""]] ∧
      Csv.read? (result (R := Float) .csv (.failure "query cancelled")) ≠
        some (["service_id"] :: ["query cancelled"].map ([·])) := by
  obtain ⟨hids, hcontract, hexplanation, hfailure, hinvalid, hne⟩ := read_csv (R := Float)
  have hmain : mainRecords quotedContract.entries = [["main", "within selected_point (300m)"]] := by
    decide +kernel
  refine ⟨hids _, (hcontract quotedContract).trans ?_, hexplanation quotedExplanation, rfl,
    hfailure _, (hinvalid _).trans (by decide), hne _ _ rfl⟩
  rw [hmain]
  decide

end Report

end TransitQuery
