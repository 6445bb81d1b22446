import TransitQuery.Geometry.GeoJson
import TransitQuery.Json.Reader
import TransitQuery.Text.Blank
import TransitQuery.Wkt.Reader

/-!
# Cells that hold a geometry

The cell of a row may hold a geometry in three ways: as a GeoJSON object, as the text of one, or as
Well-Known Text.

The first character of a text, blanks left aside, tells GeoJSON from Well-Known Text. A text that
is neither is an error, and so is any other value. The error says which, but a predicate does not
look at it: a row whose cell cannot be read counts as one without a geometry.
-/

namespace TransitQuery

namespace Geometry

variable {R : Type} [Scalar R]

/-- Reads GeoJSON text. -/
def ofGeoJsonText (text : String) : Except (GeometryError R) (Geometry R) :=
  match Json.ofText? text with
  | some v => ofGeoJson v
  | none => .error .unreadableText

/-- Reads Well-Known Text. -/
def ofWkt (text : String) : Except (GeometryError R) (Geometry R) :=
  match ofWkt? text with
  | some g => .ok g
  | none => .error .unreadableText

/-- Reads a cell. Blanks around a text do not count. -/
def ofCell (v : Json R) : Except (GeometryError R) (Geometry R) :=
  match v with
  | .obj _ => ofGeoJson v
  | .str s =>
    let text := Text.trimmed s
    if text.toList.head? = some '{' then ofGeoJsonText text else ofWkt text
  | v => .error (.notACell v)

end Geometry

end TransitQuery
