import TransitQuery.Predicate.Sql
import TransitQuery.Proofs.Predicate.Numbers
import TransitQuery.Proofs.Sql.Reader

/-!
# The condition that a predicate is

A predicate without functions is a condition of SQL, and this condition is what is read from the
text that is written for it (`Predicate.condition?_toSql`). Every predicate is written in a form
that `NOT`, `AND` and `OR` can take as an operand, whatever it is built from, so the induction over
the tree needs only one level of the grammar.

`Predicate.condition?` gives the condition as a tree of the grammar in `Sql.Condition`, with
comparisons of a column and a literal at its leaves. It is defined by recursion over the predicate
and does not look at a text. A predicate that calls a function is none, as on the native tier; on
the tier of boxes all leaves are comparisons.

The text has to be read in one way only. `Sql.ReadsFactor` says that a text is read as a condition
wherever an operand may stand, with anything behind it that cannot belong to it, and each
constructor has a lemma that puts the parts together. Names and texts are quoted, so that nothing
in them can end the text early. Numbers are finite and are written as literals: an infinite side of
a box would be written as a word that is a name in SQL, and this is why the theorem asks for finite
numbers.
-/

namespace TransitQuery

variable {R : Type} [Scalar R]

namespace Predicate

/-! ### The condition of a predicate -/

/-- The comparison of a column with a scalar. -/
def comparison (column : String) (operator : Sql.Comparison) (x : R) : Sql.Condition R :=
  .comparison (.column column) operator (.literal (.number x))

/-- The four comparisons by which the box of a row overlaps another. -/
def boxCondition (columns : BoxColumns) (box : Box R) : Sql.Condition R :=
  .all [comparison columns.minx .atMost box.maxx, comparison columns.maxx .atLeast box.minx,
    comparison columns.miny .atMost box.maxy, comparison columns.maxy .atLeast box.miny]

mutual

/-- The condition that a predicate is in SQL, if it makes no use of functions. -/
def condition? : Predicate R → Option (Sql.Condition R)
  | always => some (.constant true)
  | and l r => do return .and (← condition? l) (← condition? r)
  | or l r => do return .or (← condition? l) (← condition? r)
  | not p => (condition? p).map .not
  | anyOf members => (memberConditions? members).map .any
  | equals field value => some (.comparison (.column field) .equal (.literal (.text value)))
  | boxOverlap columns box => some (boxCondition columns box)
  | distanceWithin .. | intersectsBuffer .. | withinMeters .. | boundary .. => none

/-- The conditions that several predicates are in SQL. -/
def memberConditions? : List (Predicate R) → Option (List (Sql.Condition R))
  | [] => some []
  | p :: rest => do return (← condition? p) :: (← memberConditions? rest)

end

omit [Scalar R] in
/-- What is put together from two parts has both of them. -/
private theorem exists_parts_of_join {α β γ : Type} {join : α → β → γ} {x : Option α}
    {y : Option β} {c : γ} (h : (do return join (← x) (← y)) = some c) :
    ∃ a b, x = some a ∧ y = some b ∧ c = join a b := by
  cases x with
  | none => cases h
  | some a =>
    cases y with
    | none => cases h
    | some b => exact ⟨a, b, rfl, rfl, (Option.some.inj h).symm⟩

/-! ### Reading the text of a predicate -/

/-- A comparison of a column with a finite number is read as such. -/
private theorem readsFactor_comparison [PlainScalar R] [ReadableScalar R] [WrittenScalar R]
    {column operator : String} {o : Sql.Comparison}
    (h : Sql.Comparison.ofWord? operator.toList = some o) {x : R}
    (hx : Scalar.isFinite x = true) :
    Sql.ReadsFactor (Sql.comparison column operator x) (comparison column o x) :=
  Sql.readsFactor_operation h (Sql.readsOperand_chars hx)

/-- The box of a row is compared in four parts. -/
theorem readsFactor_overlap [PlainScalar R] [ReadableScalar R] [WrittenScalar R]
    (columns : BoxColumns) {box : Box R} (h : box.isFinite = true) :
    Sql.ReadsFactor (Sql.overlap columns box) (boxCondition columns box) := by
  obtain ⟨⟨hminx, hmaxx⟩, hminy, hmaxy⟩ := Box.isFinite_iff.mp h
  refine Sql.readsFactor_grouped (@Sql.readsCondition_separated_and _ _
    [(Sql.comparison columns.minx "<=" box.maxx, comparison columns.minx .atMost box.maxx),
      (Sql.comparison columns.maxx ">=" box.minx, comparison columns.maxx .atLeast box.minx),
      (Sql.comparison columns.miny "<=" box.maxy, comparison columns.miny .atMost box.maxy),
      (Sql.comparison columns.maxy ">=" box.miny, comparison columns.maxy .atLeast box.miny)]
    ?_ (List.cons_ne_nil _ _))
  simp only [List.forall_mem_cons, List.not_mem_nil, false_implies, implies_true, and_true]
  exact ⟨readsFactor_comparison rfl hmaxx, readsFactor_comparison rfl hminx,
    readsFactor_comparison rfl hmaxy, readsFactor_comparison rfl hminy⟩

mutual

/-- The text of a predicate is read as its condition. -/
theorem readsFactor_sqlChars [PlainScalar R] [ReadableScalar R] [WrittenScalar R] (p : Predicate R)
    {c : Sql.Condition R} (h : p.condition? = some c) (hfinite : p.hasFiniteNumbers = true) :
    Sql.ReadsFactor p.sqlChars c := by
  match p with
  | always =>
    obtain rfl := Option.some.inj h
    exact Sql.readsFactor_constant true
  | and l r =>
    obtain ⟨d, e, hd, he, rfl⟩ := exists_parts_of_join h
    obtain ⟨hl, hr⟩ := hasFiniteNumbers_and.mp hfinite
    exact (readsFactor_sqlChars l hd hl).and (readsFactor_sqlChars r he hr)
  | or l r =>
    obtain ⟨d, e, hd, he, rfl⟩ := exists_parts_of_join h
    obtain ⟨hl, hr⟩ := hasFiniteNumbers_or.mp hfinite
    exact (readsFactor_sqlChars l hd hl).or (readsFactor_sqlChars r he hr)
  | not p =>
    obtain ⟨d, hd, rfl⟩ := Option.map_eq_some_iff.mp h
    exact Sql.readsFactor_not (readsFactor_sqlChars p hd hfinite).condition
  | anyOf [] =>
    obtain rfl := Option.some.inj h
    exact Sql.readsFactor_constant false
  | anyOf [p] =>
    obtain ⟨cs, hcs, rfl⟩ := Option.map_eq_some_iff.mp h
    obtain ⟨d, ds, hd, hds, rfl⟩ := exists_parts_of_join hcs
    obtain rfl := Option.some.inj hds
    exact readsFactor_sqlChars p hd (hasFiniteNumbers_anyOf.mp hfinite p List.mem_cons_self)
  | anyOf (p :: q :: rest) =>
    obtain ⟨cs, hcs, rfl⟩ := Option.map_eq_some_iff.mp h
    obtain ⟨parts, htexts, rfl, hparts⟩ := exists_parts_of_memberConditions (p :: q :: rest) hcs
      (hasFiniteNumbers_anyOf.mp hfinite)
    have hread := Sql.readsCondition_separated_or hparts (by rintro rfl; cases htexts)
    rw [htexts] at hread
    exact Sql.readsFactor_grouped hread
  | equals field value =>
    obtain rfl := Option.some.inj h
    exact Sql.readsFactor_operation rfl (Sql.readsOperand_literal value)
  | boxOverlap columns box =>
    obtain rfl := Option.some.inj h
    rw [hasFiniteNumbers_boxOverlap] at hfinite
    exact readsFactor_overlap columns hfinite
  -- A spatial function is no condition that is read, so there is nothing to show.
  | distanceWithin field point radius => cases h
  | intersectsBuffer field point radius => cases h
  | withinMeters field point meters => cases h
  | boundary relation field wkt buffer => cases h

/-- So are those of several predicates. -/
theorem exists_parts_of_memberConditions [PlainScalar R] [ReadableScalar R] [WrittenScalar R]
    (members : List (Predicate R)) {cs : List (Sql.Condition R)}
    (h : memberConditions? members = some cs)
    (hfinite : ∀ p ∈ members, p.hasFiniteNumbers = true) :
    ∃ parts : List (List Char × Sql.Condition R), parts.map (·.1) = memberSqlChars members ∧
      parts.map (·.2) = cs ∧ ∀ part ∈ parts, Sql.ReadsFactor part.1 part.2 := by
  match members with
  | [] =>
    obtain rfl := Option.some.inj h
    exact ⟨[], rfl, rfl, by simp⟩
  | p :: rest =>
    obtain ⟨d, ds, hd, hds, rfl⟩ := exists_parts_of_join h
    obtain ⟨hp, hrest⟩ := List.forall_mem_cons.mp hfinite
    obtain ⟨parts, htexts, rfl, hparts⟩ := exists_parts_of_memberConditions rest hds hrest
    refine ⟨(p.sqlChars, d) :: parts, ?_, rfl, ?_⟩
    · rw [List.map_cons, htexts, memberSqlChars_cons]
    · exact List.forall_mem_cons.mpr ⟨readsFactor_sqlChars p hd hp, hparts⟩

end

end Predicate

end TransitQuery
