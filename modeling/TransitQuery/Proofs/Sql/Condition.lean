import Mathlib.Data.Rat.Lemmas
import TransitQuery.Proofs.Row

/-!
# Conditions of SQL

What a condition in SQL says about a row, as the language has it and not as predicates are evaluated
in memory.

* A cell that is missing or `null` is the null value. A comparison with it is neither true nor
  false but *unknown* (`Sql.Truth`), and unknown values spread through the connectives as far as
  the other operand leaves the outcome open. A `WHERE` clause keeps the rows on which its condition
  is true.
* The other values of a cell are texts and numbers. A cell with an integer holds just that integer,
  and a number that is written out, or stored with a fraction, is a scalar (`Sql.Value`). Two
  numbers are compared by what they are (`Sql.Value.toRat?`), whichever of the two kinds they are
  of: a database does not round an integer to a scalar before it compares it, as the memory does.
* Texts can be tested for equality. Their order is that of a collation, which is left open here,
  and values of two types are not compared; a condition that asks for either is unknown.

`Sql.Condition.truth` puts this together. What a condition is in text is told in `Sql.condition?`.
-/

namespace TransitQuery

namespace Sql

/-- The truth values of SQL. -/
inductive Truth where
  | holds
  | fails
  | unknown
  deriving DecidableEq

namespace Truth

/-- The truth value of something that is decided. -/
def ofBool (b : Bool) : Truth :=
  if b then holds else fails

/-- The truth value of a negation. -/
protected def not : Truth → Truth
  | holds => fails
  | fails => holds
  | unknown => unknown

/-- The truth value of a conjunction. -/
protected def and : Truth → Truth → Truth
  | fails, _ | _, fails => fails
  | holds, holds => holds
  | _, _ => unknown

/-- The truth value of a disjunction. -/
protected def or : Truth → Truth → Truth
  | holds, _ | _, holds => holds
  | fails, fails => fails
  | _, _ => unknown

end Truth

/-- A value other than the null value. -/
inductive Value (R : Type) where
  | text (s : String)
  | integer (i : Int)
  | number (x : R)

/-- What is compared: the content of a column, or a value that is written out. -/
inductive Operand (R : Type) where
  | column (name : String)
  | literal (v : Value R)

/-- The comparisons that conditions are made of. -/
inductive Comparison where
  | equal
  | atMost
  | atLeast
  deriving DecidableEq

/-- A condition on a row. -/
inductive Condition (R : Type) where
  | constant (b : Bool)
  | comparison (left : Operand R) (operator : Comparison) (right : Operand R)
  | not (inner : Condition R)
  | and (left right : Condition R)
  | or (left right : Condition R)

namespace Condition

variable {R : Type}

/-- Conditions joined from the right; no condition at all is the given one. -/
def joined (join : Condition R → Condition R → Condition R) (empty : Condition R) :
    List (Condition R) → Condition R
  | [] => empty
  | [c] => c
  | c :: rest => join c (joined join empty rest)

/-- Several conditions at once. -/
def all : List (Condition R) → Condition R :=
  joined and (constant true)

/-- One of several conditions. -/
def any : List (Condition R) → Condition R :=
  joined or (constant false)

end Condition

variable {R : Type} [Scalar R]

/-- The value in a cell; none, if it holds the null value. -/
def Value.ofCell? : Json R → Option (Value R)
  | .str s => some (.text s)
  | .int i => some (.integer i)
  | .real x => some (.number x)
  | _ => none

/-- What a number is worth. -/
def Value.toRat? : Value R → Option ℚ
  | text _ => none
  | integer i => some i
  | number x => Scalar.toRat? x

/-- What an operand stands for on a row. A column that is missing reads like one with `null`. -/
def Operand.value? (row : Row R) : Operand R → Option (Value R)
  | column name => Value.ofCell? (row.read name)
  | literal v => some v

/-- Whether two numbers are related as a comparison asks. -/
def Comparison.relates : Comparison → ℚ → ℚ → Bool
  | equal, p, q => p = q
  | atMost, p, q => p ≤ q
  | atLeast, p, q => q ≤ p

/-- The outcome of a comparison. Texts are ordered by a collation, and values of two types are not
compared; either is left unknown. -/
def Comparison.truth : Comparison → Value R → Value R → Truth
  | equal, .text a, .text b => .ofBool (a = b)
  | operator, v, w =>
    match v.toRat?, w.toRat? with
    | some p, some q => .ofBool (operator.relates p q)
    | _, _ => .unknown

/-- The truth value of a condition on a row. -/
def Condition.truth (row : Row R) : Condition R → Truth
  | constant b => .ofBool b
  | comparison left operator right =>
    match left.value? row, right.value? row with
    | some v, some w => operator.truth v w
    | _, _ => .unknown
  | not c => (c.truth row).not
  | and c d => (c.truth row).and (d.truth row)
  | or c d => (c.truth row).or (d.truth row)

end Sql

end TransitQuery
