import TransitQuery.Predicate.Basic
import TransitQuery.Proofs.Geometry.Finite

/-!
# The numbers in a predicate

A predicate holds numbers in its leaves: the point and the radius of a disc, the buffer of a
boundary and the sides of a box. `Predicate.numbers` lists them in the order in which they stand in
SQL, and `Predicate.hasFiniteNumbers` asks that each of them is finite.

A number that is not finite passes through a predicate without harm as long as that is evaluated in
memory. It has no text in JSON, and the word that stands for it in SQL is no number there. So all
that is said of a predicate in text is said of those with finite numbers, by induction on the
predicate; the lemmas here say what the condition comes to at each connective
(`Predicate.hasFiniteNumbers_and`, `Predicate.hasFiniteNumbers_or`,
`Predicate.hasFiniteNumbers_anyOf`).
-/

namespace TransitQuery

variable {R : Type}

namespace Predicate

mutual

/-- The numbers in a predicate, in the order in which they stand in SQL. -/
def numbers : Predicate R → List R
  | always | equals _ _ => []
  | and l r | or l r => numbers l ++ numbers r
  | not p => numbers p
  | anyOf members => memberNumbers members
  | distanceWithin _ point radius | intersectsBuffer _ point radius
  | withinMeters _ point radius => [point.lng, point.lat, radius]
  | boundary _ _ _ buffer => [buffer]
  | boxOverlap _ box => [box.maxx, box.minx, box.maxy, box.miny]

/-- The numbers in several predicates. -/
def memberNumbers : List (Predicate R) → List R
  | [] => []
  | p :: rest => numbers p ++ memberNumbers rest

end

theorem numbers_of_isTrivial {p : Predicate R} (h : p.isTrivial = true) : p.numbers = [] := by
  cases p with
  | always => rfl
  | _ => cases h

theorem memberNumbers_equals (fields : List String) (value : String) :
    memberNumbers (fields.map (equals · value) : List (Predicate R)) = [] := by
  induction fields with
  | nil => rfl
  | cons field rest ih => exact ih

/-! ### Finite numbers -/

variable [Scalar R]

/-- Whether all numbers in a predicate are finite. -/
def hasFiniteNumbers (p : Predicate R) : Bool :=
  p.numbers.all Scalar.isFinite

/-- A conjunction has the numbers of both its parts. -/
theorem hasFiniteNumbers_and {l r : Predicate R} :
    (and l r).hasFiniteNumbers = true ↔ l.hasFiniteNumbers = true ∧ r.hasFiniteNumbers = true := by
  simp [hasFiniteNumbers, numbers, List.all_append]

theorem hasFiniteNumbers_or {l r : Predicate R} :
    (or l r).hasFiniteNumbers = true ↔ l.hasFiniteNumbers = true ∧ r.hasFiniteNumbers = true :=
  hasFiniteNumbers_and

/-- Alternatives have the numbers of all of them. -/
theorem hasFiniteNumbers_anyOf {ps : List (Predicate R)} :
    (anyOf ps).hasFiniteNumbers = true ↔ ∀ p ∈ ps, p.hasFiniteNumbers = true := by
  rw [hasFiniteNumbers, numbers]
  induction ps with
  | nil => simp [memberNumbers]
  | cons p rest ih =>
    rw [memberNumbers, List.all_append, Bool.and_eq_true, ih, List.forall_mem_cons]
    rfl

/-- The numbers of a box are its sides. -/
theorem hasFiniteNumbers_boxOverlap (columns : BoxColumns) (box : Box R) :
    (boxOverlap columns box).hasFiniteNumbers = box.isFinite := by
  simp only [hasFiniteNumbers, numbers, List.all_cons, List.all_nil, Bool.and_true, Box.isFinite]
  ac_rfl

end Predicate

end TransitQuery
