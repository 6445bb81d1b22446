import TransitQuery.Geometry.Location

/-!
# Labels

A label says how a part of one figure, a node or an arc, lies to two figures: where its own
positions lie, and for an arc that bounds an area also what lies to its left and right. What is not
known yet is `none`.

A part of a line knows only where it is itself (`Sides.line`), a part of the border of an area also
knows what is on its two sides (`Sides.area`). Labels are found in portions: from the figure that a
part belongs to, from what the part meets, and at last from where it lies to the other figure. So
the setters only fill in, or replace, what is told, and `Label.flip` turns a label around with the
direction of its part.
-/

namespace TransitQuery

/-- One of two figures that are related. -/
inductive Operand where
  | first
  | second
  deriving DecidableEq

/-- How a part lies to one figure. -/
inductive Sides where
  /-- A part of which only its own positions are told. -/
  | line (on : Option Location)
  /-- A part whose neighbourhood is told, too. -/
  | area (on left right : Option Location)

namespace Sides

/-- Where the positions of the part lie. -/
def on : Sides → Option Location
  | line on => on
  | area on _ _ => on

/-- What lies to the left of the part. -/
def left : Sides → Option Location
  | line _ => none
  | area _ left _ => left

/-- What lies to the right of the part. -/
def right : Sides → Option Location
  | line _ => none
  | area _ _ right => right

/-- Whether the neighbourhood of the part is told. -/
def isArea : Sides → Bool
  | line _ => false
  | area _ _ _ => true

/-- The same with the place of the positions set. -/
def setOn (l : Location) : Sides → Sides
  | line _ => line (some l)
  | area _ left right => area (some l) left right

/-- The same with the neighbourhood set, where it is told. -/
def setSides (l : Location) : Sides → Sides
  | line on => line on
  | area on _ _ => area on (some l) (some l)

/-- Everything lies at one place. -/
def setAll (l : Location) : Sides → Sides
  | line _ => line (some l)
  | area _ _ _ => area (some l) (some l) (some l)

/-- What is not known lies at one place. -/
def fill (l : Location) : Sides → Sides
  | line on => line (on <|> some l)
  | area on left right => area (on <|> some l) (left <|> some l) (right <|> some l)

/-- Whether something is not known. -/
def isPartial : Sides → Bool
  | line on => on.isNone
  | area on left right => on.isNone || left.isNone || right.isNone

/-- The same seen in the opposite direction. -/
def flip : Sides → Sides
  | line on => line on
  | area on left right => area on right left

end Sides

/-- How a part lies to two figures. -/
structure Label where
  first : Sides
  second : Sides

namespace Label

/-- Nothing is known about a node. -/
def unknown : Label := ⟨.line none, .line none⟩

/-- How the part lies to one of the figures. -/
def get (l : Label) : Operand → Sides
  | .first => l.first
  | .second => l.second

/-- The same after a change of how the part lies to one of the figures. -/
def modify (l : Label) (o : Operand) (change : Sides → Sides) : Label :=
  match o with
  | .first => { l with first := change l.first }
  | .second => { l with second := change l.second }

/-- The label of a part of a line. -/
def ofLine (o : Operand) (on : Location) : Label :=
  unknown.modify o fun _ => .line (some on)

/-- The label of a part of the border of an area. -/
def ofBorder (o : Operand) (left right : Location) : Label :=
  modify ⟨.area none none none, .area none none none⟩ o fun _ =>
    .area (some .onBoundary) (some left) (some right)

/-- Whether the neighbourhood of the part is told for either figure. -/
def isArea (l : Label) : Bool :=
  l.first.isArea || l.second.isArea

/-- The same seen in the opposite direction. -/
def flip (l : Label) : Label :=
  ⟨l.first.flip, l.second.flip⟩

end Label

end TransitQuery
