import TransitQuery.Geometry.Basic
import TransitQuery.Wkt.Token

/-!
# Reading Well-Known Text

`Geometry.ofWkt?` reads the geometry that starts a text; what follows it is passed over. The name
of the kind may carry a suffix that declares further ordinates, or a word may declare them after
it; they must then be given, and are dropped. `EMPTY` may stand for anything in parentheses. A
point without position becomes a multi-point without members.

The readers of parts take the tokens that are left and return what they read together with the
rest.

The reader is lenient where texts of other programs differ: keywords in any case, an optional
suffix for further ordinates, both ways to write a multi-point, further text behind the geometry.
It is strict about numbers, parentheses and commas. Each part of the grammar is a function on the
tokens that are left (`Reader`), and only the lists and the nested collections need fuel, which is
bounded by the number of tokens.

The first ring of a polygon is its outer one. Rings are not closed and not checked here: what a
geometry must satisfy to be decided is the concern of whoever decides it.
-/

namespace TransitQuery

namespace Wkt

/-- How many ordinates follow the two of a position. -/
abbrev Extra := Nat

/-- A word in capital letters. -/
def capital (s : List Char) : List Char :=
  s.map Char.toUpper

/-- Whether a word is a keyword, in any mixture of cases. -/
def isWord (s : List Char) (keyword : String) : Bool :=
  capital s = keyword.toList

/-- The kinds of geometry by their names. -/
inductive Kind where
  | point
  | lineString
  | polygon
  | multiPoint
  | multiLineString
  | multiPolygon
  | collection
  deriving DecidableEq

/-- The names of the kinds. -/
def Kind.names : List (String × Kind) :=
  [("POINT", point), ("LINESTRING", lineString), ("POLYGON", polygon),
    ("MULTIPOINT", multiPoint), ("MULTILINESTRING", multiLineString),
    ("MULTIPOLYGON", multiPolygon), ("GEOMETRYCOLLECTION", collection)]

/-- The suffixes that declare further ordinates. -/
def suffixes : List (String × Extra) :=
  [("Z", 1), ("M", 1), ("ZM", 2)]

/-- The further ordinates that a word declares. -/
def extraOf? (s : List Char) : Option Extra :=
  (suffixes.find? fun x => isWord s x.1).map (·.2)

/-- The kind that a word names, and the further ordinates if its suffix declares them. A closed
line goes by a name of its own, without suffix. -/
def kindOf? (s : List Char) : Option (Kind × Option Extra) :=
  match Kind.names.find? fun k => isWord s k.1 with
  | some (_, kind) => some (kind, none)
  | none =>
    if isWord s "LINEARRING" then some (.lineString, none)
    else
      Kind.names.findSome? fun k =>
        suffixes.findSome? fun x =>
          if isWord s (k.1 ++ x.1) then some (k.2, some x.2) else none

variable {R : Type}

/-- The tokens that are left. -/
abbrev Rest (R : Type) := List (Token R)

/-- A reader of a part. -/
abbrev Reader (R α : Type) := Rest R → Option (α × Rest R)

/-- The further ordinates declared by a word before the parentheses. -/
def readExtra : Reader R Extra
  | .word s :: rest =>
    match extraOf? s with
    | some extra => some (extra, rest)
    | none => if isWord s "EMPTY" then some (0, .word s :: rest) else none
  | .malformed :: _ => none
  | [] => none
  | rest => some (0, rest)

/-- A number. -/
def readScalar : Reader R R
  | .number x :: rest => some (x, rest)
  | _ => none

/-- Passes over so many numbers. -/
def skipScalars : Nat → Rest R → Option (Rest R)
  | 0, rest => some rest
  | n + 1, .number _ :: rest => skipScalars n rest
  | _, _ => none

/-- A position with its further ordinates, which are dropped. -/
def readPosition (extra : Extra) : Reader R (Position R) := fun rest => do
  let (x, rest) ← readScalar rest
  let (y, rest) ← readScalar rest
  let rest ← skipScalars extra rest
  return (⟨x, y⟩, rest)

/-- One item, and one more after each comma. -/
def readMany {α : Type} (item : Reader R α) : (fuel : Nat) → Reader R (List α)
  | 0, _ => none
  | fuel + 1, rest =>
    match item rest with
    | none => none
    | some (a, .comma :: rest) => (readMany item fuel rest).map fun (as, rest) => (a :: as, rest)
    | some (a, rest) => some ([a], rest)

/-- Items in parentheses, or `EMPTY`. -/
def readGroup {α : Type} (item : Reader R α) (rest : Rest R) : Option (List α × Rest R) :=
  match rest with
  | .opening :: rest =>
    -- every item takes a token, so that there is fuel for all of them
    match readMany item rest.length rest with
    | some (items, .closing :: rest) => some (items, rest)
    | _ => none
  | .word s :: rest => if isWord s "EMPTY" then some ([], rest) else none
  | _ => none

/-- A line in parentheses. -/
def readLine (extra : Extra) : Reader R (List (Position R)) :=
  readGroup (readPosition extra)

/-- Lines in parentheses. -/
def readLines (extra : Extra) : Reader R (List (List (Position R))) :=
  readGroup (readLine extra)

/-- One position in parentheses, or none. -/
def readOptionalPosition (extra : Extra) : Reader R (Option (Position R))
  | .opening :: rest =>
    match readPosition extra rest with
    | some (p, .closing :: rest) => some (some p, rest)
    | _ => none
  | .word s :: rest => if isWord s "EMPTY" then some (none, rest) else none
  | _ => none

/-- A member of a multi-point, whose parentheses may be missing. -/
def readMember (extra : Extra) : Reader R (Position R)
  | .opening :: rest =>
    match readPosition extra rest with
    | some (p, .closing :: rest) => some (p, rest)
    | _ => none
  | rest => readPosition extra rest

variable [Scalar R]

/-- The polygon with the given rings, the outer one first. -/
def polygonOfRings : List (List (Position R)) → Polygon R
  | [] => Polygon.ofRings [] []
  | exterior :: interiors => Polygon.ofRings exterior interiors

/-- The parts of a geometry of a kind that is no collection. -/
def readBody (kind : Kind) (extra : Extra) : Reader R (Geometry R) := fun rest =>
  match kind with
  | .point =>
    (readOptionalPosition extra rest).map fun (p, rest) =>
      (match p with
        | some p => .point p
        | none => .multiPoint [], rest)
  | .lineString => (readLine extra rest).map fun (line, rest) => (.lineString line, rest)
  | .polygon =>
    (readLines extra rest).map fun (rings, rest) => (.polygon (polygonOfRings rings), rest)
  | .multiPoint =>
    (readGroup (readMember extra) rest).map fun (points, rest) => (.multiPoint points, rest)
  | .multiLineString =>
    (readLines extra rest).map fun (lines, rest) => (.multiLineString lines, rest)
  | .multiPolygon =>
    (readGroup (readLines extra) rest).map fun (polygons, rest) =>
      (.multiPolygon (polygons.map polygonOfRings), rest)
  | .collection => none

/-- A geometry with its name. Collections nest at most as deep as there is fuel. -/
def readGeometry : (fuel : Nat) → Reader R (Geometry R)
  | 0, _ => none
  | fuel + 1, rest =>
    match rest with
    | .word s :: rest =>
      match kindOf? s with
      | none => none
      | some (kind, declared) =>
        match declared.elim (readExtra rest) fun extra => some (extra, rest) with
        | none => none
        | some (extra, rest) =>
          if kind = .collection then
            (readGroup (readGeometry fuel) rest).map fun (members, rest) =>
              (.collection members, rest)
          else readBody kind extra rest
    | _ => none

end Wkt

namespace Geometry

variable {R : Type} [Scalar R]

/-- The geometry that starts a text. -/
def ofWktChars? (s : List Char) : Option (Geometry R) :=
  let tokens := Wkt.tokens s
  (Wkt.readGeometry tokens.length tokens).map (·.1)

/-- The geometry that starts a text. -/
def ofWkt? (text : String) : Option (Geometry R) :=
  ofWktChars? text.toList

end Geometry

end TransitQuery
