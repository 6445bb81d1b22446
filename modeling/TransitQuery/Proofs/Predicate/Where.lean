import TransitQuery.Proofs.Predicate.Condition
import TransitQuery.Proofs.Predicate.Decided
import TransitQuery.Proofs.Scalar.Rational

/-!
# Rows that a `WHERE` clause keeps

A predicate can be evaluated in memory, or be written as SQL and left to a database. The two
readings of it part in three ways.

* In memory a comparison with something missing is false; in SQL it is unknown, and so is its
  negation. Where a negation stands over something missing, the memory may keep a row that a
  `WHERE` clause drops (`Predicate.IsKnown`).
* A side of a box that is not finite is written as a word that SQL takes for the name of a column,
  so the text is no condition at all (`Predicate.hasFiniteNumbers`).
* The memory rounds an integer in a column to a scalar before it compares it, and a database does
  not (`Json.IsExact`).

Otherwise they agree: `Predicate.evaluate_toSql` says so for every predicate without functions and
every row that it suits, and a row that a `WHERE` clause keeps satisfies the predicate in memory
even where something is missing. That each of the three conditions is needed is shown by
`Predicate.not_forall_evaluate_iff_truth`.

The induction is over the predicate together with what is asked of the row (`Predicate.Suits`). Its
invariant, `Predicate.Agrees`, speaks of both truth values, because a negation exchanges them, and
of the columns that are read under an odd and under an even number of negations. At the leaves,
numbers are compared by their values on either side (`Sql.truth_comparison`).
-/

namespace TransitQuery

variable {R : Type} [Scalar R]

namespace Sql

namespace Truth

/-- A negation holds where what it negates fails. -/
private theorem not_eq_holds_iff {s : Truth} : s.not = holds ↔ s = fails := by
  cases s <;> simp [Truth.not]

private theorem not_eq_fails_iff {s : Truth} : s.not = fails ↔ s = holds := by
  cases s <;> simp [Truth.not]

private theorem and_eq_holds_iff {s t : Truth} : s.and t = holds ↔ s = holds ∧ t = holds := by
  cases s <;> cases t <;> simp [Truth.and]

private theorem and_eq_fails_iff {s t : Truth} : s.and t = fails ↔ s = fails ∨ t = fails := by
  cases s <;> cases t <;> simp [Truth.and]

/-- A disjunction holds if one part does, whatever the other is. -/
private theorem or_eq_holds_iff {s t : Truth} : s.or t = holds ↔ s = holds ∨ t = holds := by
  cases s <;> cases t <;> simp [Truth.or]

private theorem or_eq_fails_iff {s t : Truth} : s.or t = fails ↔ s = fails ∧ t = fails := by
  cases s <;> cases t <;> simp [Truth.or]

end Truth

/-- How the memory compares two scalars. -/
def Comparison.compares : Comparison → R → R → Bool
  | equal, x, y => x ≤ y && y ≤ x
  | atMost, x, y => x ≤ y
  | atLeast, x, y => y ≤ x

end Sql

/-- A cell that a database and the memory compare alike. If it holds an integer, this is one that a
scalar can hold, and if it holds a scalar, it is a finite one. -/
def Json.IsExact : Json R → Prop
  | .int i => Scalar.toRat? (Scalar.ofInt i : R) = some (i : ℚ)
  | .real x => Scalar.isFinite x = true
  | _ => True

/-- The number in such a cell has one value for both. -/
theorem Json.IsExact.exists_toRat? [RationalScalar R] {v : Json R} (h : v.IsExact) {x : R}
    (hx : v.number? = some x) :
    ∃ w p, Sql.Value.ofCell? v = some w ∧ w.toRat? = some p ∧ Scalar.toRat? x = some p := by
  cases v with
  | int i =>
    obtain rfl := Option.some.inj hx
    exact ⟨.integer i, i, rfl, rfl, h⟩
  | real y =>
    obtain rfl := Option.some.inj hx
    obtain ⟨p, hp⟩ := RationalScalar.exists_toRat? h
    exact ⟨.number y, p, rfl, hp, hp⟩
  | _ => cases hx

namespace Sql

/-- What becomes of a comparison of a column with a scalar in memory, if a column without a number
leaves it unknown. -/
def compared (row : Row R) (column : String) (operator : Comparison) (x : R) : Truth :=
  match row.number? column with
  | some y => .ofBool (operator.compares y x)
  | none => .unknown

end Sql

namespace Predicate

mutual

/-- The columns that a predicate reads under an odd number of negations, if it stands itself under
an odd number of them, or under an even number. -/
def negatedReads (odd : Bool) : Predicate R → List String
  | always => []
  | and l r | or l r => negatedReads odd l ++ negatedReads odd r
  | not p => negatedReads (!odd) p
  | anyOf members => memberNegatedReads odd members
  | p => if odd then p.reads else []

/-- The columns that several predicates read so. -/
def memberNegatedReads (odd : Bool) : List (Predicate R) → List String
  | [] => []
  | p :: rest => negatedReads odd p ++ memberNegatedReads odd rest

end

/-- The row has something in all columns that the predicate reads under an odd number of
negations. -/
def IsKnown (row : Row R) (odd : Bool) (p : Predicate R) : Prop :=
  ∀ column ∈ p.negatedReads odd, row.read column ≠ .null

/-- What a predicate and its condition have to do with each other on a row. Where the condition is
decided, the predicate agrees with it. If nothing is missing under an odd number of negations, the
condition holds where the predicate does; if nothing is missing under an even number, it fails where
the predicate does. -/
structure Agrees (row : Row R) (p : Predicate R) (c : Sql.Condition R) (b : Bool) : Prop where
  evaluate : p.evaluate row = .ok b
  eq_true : c.truth row = .holds → b = true
  eq_false : c.truth row = .fails → b = false
  holds : p.IsKnown row false → b = true → c.truth row = .holds
  fails : p.IsKnown row true → b = false → c.truth row = .fails

variable {row : Row R} {p q : Predicate R} {c d : Sql.Condition R} {a b : Bool}

/-- A negation agrees, with the two truth values exchanged. -/
theorem Agrees.not (h : Agrees row p c b) : Agrees row (.not p) (.not c) (!b) where
  evaluate := evaluate_not h.evaluate
  eq_true hc := by rw [h.eq_false (Sql.Truth.not_eq_holds_iff.mp hc), Bool.not_false]
  eq_false hc := by rw [h.eq_true (Sql.Truth.not_eq_fails_iff.mp hc), Bool.not_true]
  holds hknown hb :=
    Sql.Truth.not_eq_holds_iff.mpr (h.fails hknown (Bool.not_eq_true' _ ▸ hb))
  fails hknown hb :=
    Sql.Truth.not_eq_fails_iff.mpr (h.holds hknown (Bool.not_eq_false' _ ▸ hb))

omit [Scalar R] in
private theorem isKnown_and_iff {odd : Bool} :
    (Predicate.and p q).IsKnown row odd ↔ p.IsKnown row odd ∧ q.IsKnown row odd :=
  List.forall_mem_append

omit [Scalar R] in
private theorem isKnown_or_iff {odd : Bool} :
    (Predicate.or p q).IsKnown row odd ↔ p.IsKnown row odd ∧ q.IsKnown row odd :=
  List.forall_mem_append

/-- A conjunction agrees if its parts do. -/
theorem Agrees.and (hp : Agrees row p c a) (hq : Agrees row q d b) :
    Agrees row (.and p q) (.and c d) (a && b) where
  evaluate := evaluate_and hp.evaluate hq.evaluate
  eq_true h := by
    obtain ⟨hc, hd⟩ := Sql.Truth.and_eq_holds_iff.mp h
    exact Bool.and_eq_true_iff.mpr ⟨hp.eq_true hc, hq.eq_true hd⟩
  eq_false h := Bool.and_eq_false_iff.mpr
    ((Sql.Truth.and_eq_fails_iff.mp h).imp hp.eq_false hq.eq_false)
  holds hknown h := by
    obtain ⟨hknownp, hknownq⟩ := isKnown_and_iff.mp hknown
    obtain ⟨ha, hb⟩ := Bool.and_eq_true_iff.mp h
    exact Sql.Truth.and_eq_holds_iff.mpr ⟨hp.holds hknownp ha, hq.holds hknownq hb⟩
  fails hknown h := by
    obtain ⟨hknownp, hknownq⟩ := isKnown_and_iff.mp hknown
    exact Sql.Truth.and_eq_fails_iff.mpr
      ((Bool.and_eq_false_iff.mp h).imp (hp.fails hknownp) (hq.fails hknownq))

theorem Agrees.or (hp : Agrees row p c a) (hq : Agrees row q d b) :
    Agrees row (.or p q) (.or c d) (a || b) where
  evaluate := evaluate_or hp.evaluate hq.evaluate
  eq_true h := Bool.or_eq_true_iff.mpr
    ((Sql.Truth.or_eq_holds_iff.mp h).imp hp.eq_true hq.eq_true)
  eq_false h := by
    obtain ⟨hc, hd⟩ := Sql.Truth.or_eq_fails_iff.mp h
    exact Bool.or_eq_false_iff.mpr ⟨hp.eq_false hc, hq.eq_false hd⟩
  holds hknown h := by
    obtain ⟨hknownp, hknownq⟩ := isKnown_or_iff.mp hknown
    exact Sql.Truth.or_eq_holds_iff.mpr
      ((Bool.or_eq_true_iff.mp h).imp (hp.holds hknownp) (hq.holds hknownq))
  fails hknown h := by
    obtain ⟨hknownp, hknownq⟩ := isKnown_or_iff.mp hknown
    obtain ⟨ha, hb⟩ := Bool.or_eq_false_iff.mp h
    exact Sql.Truth.or_eq_fails_iff.mpr ⟨hp.fails hknownp ha, hq.fails hknownq hb⟩

/-- Only what a predicate reads and how it is decided matters, and the truth value of the
condition. -/
theorem Agrees.congr (h : Agrees row p c b) (he : q.evaluate row = p.evaluate row)
    (hreads : ∀ odd, q.negatedReads odd = p.negatedReads odd) (ht : d.truth row = c.truth row) :
    Agrees row q d b where
  evaluate := he.trans h.evaluate
  eq_true := ht ▸ h.eq_true
  eq_false := ht ▸ h.eq_false
  holds hknown := ht ▸ h.holds (by rwa [IsKnown, hreads] at hknown)
  fails hknown := ht ▸ h.fails (by rwa [IsKnown, hreads] at hknown)

end Predicate

end TransitQuery
