import TransitQuery.Scalar.Basic

/-!
# JSON values

A JSON value keeps integers apart from other numbers, because the two are written differently.
An object is a list of named members. Text may name a member twice and order members freely;
`Json.normalize` gives the value that free-form data stands for, where members are sorted by name
and the last of several with one name counts.

The parts of a value are taken by partial readers (`string?`, `bool?`, `natural?`, `number?`, …)
that fail on values of another kind; `number?` alone accepts both kinds of numbers, because an
integer is a scalar wherever a scalar is wanted. `Json.lookup` gives the first member of a name. On
a value that has been normalized this is the only one, and the order of members then says nothing
any more.

On the way out, `ofScalar` writes `null` for infinities and for what is no number, since JSON has
no text for them. Two ways of writing an absent value are in use and kept apart: `ofOption` writes
`null`, `memberIfSome` leaves the member out.
-/

namespace TransitQuery

/-- A JSON value over a type of numbers. -/
inductive Json (R : Type) where
  | null
  | bool (b : Bool)
  | int (i : Int)
  | real (x : R)
  | str (s : String)
  | arr (items : List (Json R))
  | obj (members : List (String × Json R))
  deriving BEq

namespace Json

variable {R : Type}

/-! ### Members -/

/-- The value of the first member with a name. -/
def lookup (name : String) : List (String × Json R) → Option (Json R)
  | [] => none
  | (k, v) :: rest => if k = name then some v else lookup name rest

/-- Puts a member in its place among members sorted by name, instead of one with its name. -/
def insertMember (name : String) (v : Json R) :
    List (String × Json R) → List (String × Json R)
  | [] => [(name, v)]
  | (k, w) :: rest =>
    if name = k then (name, v) :: rest
    else if name < k then (name, v) :: (k, w) :: rest
    else (k, w) :: insertMember name v rest

/-- Members sorted by name, the last of several with one name. -/
def sortMembers (members : List (String × Json R)) : List (String × Json R) :=
  members.foldl (fun sorted m => insertMember m.1 m.2 sorted) []

mutual

/-- The value with the members of every object sorted by name, the last of several with one name
counting. -/
def normalize : Json R → Json R
  | arr items => arr (normalizeItems items)
  | obj members => obj (sortMembers (normalizeMembers members))
  | null => null
  | bool b => bool b
  | int i => int i
  | real x => real x
  | str s => str s

/-- Normalizes each item. -/
def normalizeItems : List (Json R) → List (Json R)
  | [] => []
  | v :: rest => normalize v :: normalizeItems rest

/-- Normalizes the value of each member. -/
def normalizeMembers : List (String × Json R) → List (String × Json R)
  | [] => []
  | (k, v) :: rest => (k, normalize v) :: normalizeMembers rest

end

/-! ### Parts of a value -/

/-- The member of an object with a name; no member on other values. -/
def member? (name : String) : Json R → Option (Json R)
  | obj members => lookup name members
  | _ => none

/-- The text of a string. -/
def string? : Json R → Option String
  | str s => some s
  | _ => none

/-- The truth value of a boolean. -/
def bool? : Json R → Option Bool
  | bool b => some b
  | _ => none

/-- The items of an array. -/
def items? : Json R → Option (List (Json R))
  | arr items => some items
  | _ => none

/-- The members of an object. -/
def members? : Json R → Option (List (String × Json R))
  | obj members => some members
  | _ => none

/-- An integer that is not negative. -/
def natural? : Json R → Option Nat
  | int (.ofNat n) => some n
  | _ => none

/-- The scalar that a number of either kind stands for. -/
def number? [Scalar R] : Json R → Option R
  | int i => some (Scalar.ofInt i)
  | real x => some x
  | _ => none

/-! ### Building values -/

/-- A scalar as a value. One that is no finite number has no JSON number and becomes `null`. -/
def ofScalar [Scalar R] (x : R) : Json R :=
  if Scalar.isFinite x then real x else null

/-- `null` for an absent value. -/
def ofOption {α : Type} (toJson : α → Json R) : Option α → Json R
  | none => null
  | some a => toJson a

/-- A member that is left out when there is no value. -/
def memberIfSome {α : Type} (name : String) (toJson : α → Json R) :
    Option α → List (String × Json R)
  | none => []
  | some a => [(name, toJson a)]

end Json

end TransitQuery
