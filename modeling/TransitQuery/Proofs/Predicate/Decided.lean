import TransitQuery.Predicate.Evaluate
import Mathlib.Data.List.Basic

/-!
# Rows that satisfy a predicate

A row satisfies a predicate if it is decided there, and holds. Filtering a table keeps exactly the
rows that satisfy the predicate, or fails if there is one on which it is not decided.

Evaluation stops at the first leaf that cannot be decided, from left to right, and a conjunction
that is false before that leaf does not get there. So a predicate can be decided where one of its
parts is not. The lemmas on connectives are therefore about predicates whose parts are decided; in
the other direction, what the value of a connective says about that of its parts, see the exact
forms.

`Predicate.filter_eq_ok` and `Predicate.filter_eq_error` are all that later modules use of
filtering: either the rows that satisfy the predicate, in the order of the table, or the failure on
the first row that is not decided.
-/

namespace TransitQuery

variable {R : Type} [Scalar R]

namespace Predicate

/-- A predicate is decided on a row if its evaluation does not fail. -/
def IsDecided (row : Row R) (p : Predicate R) : Prop :=
  ∃ b, p.evaluate row = .ok b

/-- A row satisfies a predicate. Rows on which it is not decided do not. -/
def accepts (p : Predicate R) (row : Row R) : Bool :=
  match p.evaluate row with
  | .ok b => b
  | .error _ => false

/-- A row is accepted if the predicate holds there, without failure. -/
theorem accepts_eq_true_iff {p : Predicate R} {row : Row R} :
    p.accepts row = true ↔ p.evaluate row = .ok true := by
  unfold accepts
  cases p.evaluate row <;> simp

/-- Where a predicate is decided, the value tells whether the row is accepted. -/
theorem accepts_of_evaluate {p : Predicate R} {row : Row R} {b : Bool}
    (h : p.evaluate row = .ok b) : p.accepts row = b := by
  rw [accepts, h]

/-! ### Connectives -/

theorem evaluate_not {row : Row R} {p : Predicate R} {b : Bool} (h : p.evaluate row = .ok b) :
    (Predicate.not p).evaluate row = .ok !b := by
  rw [evaluate_not_eq, h]
  rfl

/-- The value of a conjunction of which both parts are decided. -/
theorem evaluate_and {row : Row R} {p q : Predicate R} {a b : Bool}
    (hp : p.evaluate row = .ok a) (hq : q.evaluate row = .ok b) :
    (Predicate.and p q).evaluate row = .ok (a && b) := by
  rw [evaluate_and_eq, hp]
  cases a
  · rfl
  · exact hq

/-- The value of a disjunction of which both parts are decided. -/
theorem evaluate_or {row : Row R} {p q : Predicate R} {a b : Bool}
    (hp : p.evaluate row = .ok a) (hq : q.evaluate row = .ok b) :
    (Predicate.or p q).evaluate row = .ok (a || b) := by
  rw [evaluate_or_eq, hp]
  cases a
  · exact hq
  · rfl

/-! ### Filtering -/

/-- Where a predicate is decided on all rows, filtering yields the rows that satisfy it. -/
theorem filter_eq_ok {p : Predicate R} {rows : List (Row R)}
    (h : ∀ row ∈ rows, p.IsDecided row) : p.filter rows = .ok (rows.filter p.accepts) := by
  induction rows with
  | nil => rfl
  | cons row rest ih =>
    obtain ⟨⟨b, hb⟩, hrest⟩ := List.forall_mem_cons.mp h
    rw [filter, hb, ih hrest, List.filter_cons, accepts_of_evaluate hb]
    cases b <;> rfl

/-- Where it is not, filtering fails. -/
theorem filter_eq_error {p : Predicate R} {rows : List (Row R)}
    (h : ∃ row ∈ rows, ¬ p.IsDecided row) : ∃ cause, p.filter rows = .error cause := by
  induction rows with
  | nil => simp at h
  | cons row rest ih =>
    rw [filter]
    cases hrow : p.evaluate row with
    | error cause => exact ⟨cause, rfl⟩
    | ok b =>
      obtain ⟨row', hmem, hundecided⟩ := h
      obtain rfl | hmem := List.mem_cons.mp hmem
      · exact absurd ⟨b, hrow⟩ hundecided
      obtain ⟨cause, hcause⟩ := ih ⟨row', hmem, hundecided⟩
      exact ⟨cause, by rw [hcause]; rfl⟩

end Predicate

end TransitQuery
