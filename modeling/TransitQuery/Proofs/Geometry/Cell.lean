import TransitQuery.Proofs.Json.ReadBack
import TransitQuery.Proofs.Predicate.Reads
import TransitQuery.Proofs.Text.Blank
import TransitQuery.Proofs.Wkt.Boundary

/-!
# The encodings of a cell

A cell can hold a geometry as a GeoJSON object, as the text of this object, or as Well-Known Text,
and there may be blanks around the texts. No part of the geometry may be empty, or its Well-Known
Text could lose something. Then all of these are read as the same geometry, and no predicate can
tell them apart unless it compares the cell itself with a text (`Geometry.Encodes.ofCell_eq`,
`Geometry.encodings_agree`).

What tells the encodings apart is their first character that is not a blank. An object starts with
a brace, and Well-Known Text with the letter of a kind; neither starts or ends with a blank, so
trimming finds both as they were written (`Geometry.isTrim_wktChars`,
`Json.isTrim_compactChars_obj`). The text of an object is read back as the object, because it
is in normal form and its numbers come back, and the geometry of the object is the one that its
Well-Known Text is read as, because nothing in it is empty (`Geometry.IsFull.isKept`).

The last step is about rows. A predicate reads a column as a geometry, as a number, or as a text.
Two rows that hold encodings of one geometry in a column and agree elsewhere look alike to every
predicate that reads that column in the first two ways only (`lookAlike_of_geometry`), and rows
that look alike get the same verdict.
-/

namespace TransitQuery

variable {R : Type}

/-! ### Geometries without empty parts -/

namespace Geometry

mutual

/-- A geometry in which no line, no ring and no list of members is empty. -/
def IsFull : Geometry R → Prop
  | point _ => True
  | lineString line => line ≠ []
  | polygon g => g.IsFull
  | multiPoint points => points ≠ []
  | multiLineString lines => lines ≠ [] ∧ ∀ line ∈ lines, line ≠ []
  | multiPolygon polygons => polygons ≠ [] ∧ ∀ g ∈ polygons, g.IsFull
  | collection members => members ≠ [] ∧ MembersAreFull members

/-- Several such geometries. -/
def MembersAreFull : List (Geometry R) → Prop
  | [] => True
  | g :: rest => IsFull g ∧ MembersAreFull rest

end

mutual

/-- The text of a geometry without empty parts keeps it. -/
theorem IsFull.isKept {g : Geometry R} (h : g.IsFull) : g.IsKept := by
  match g with
  | point _ | lineString _ | multiPoint _ => trivial
  | polygon g => exact .inl h
  | multiLineString lines => exact h.2
  | multiPolygon polygons => exact h.2
  | collection members => exact MembersAreFull.membersAreKept h.2

private theorem MembersAreFull.membersAreKept {members : List (Geometry R)}
    (h : MembersAreFull members) :
    MembersAreKept members := by
  match members with
  | [] => trivial
  | g :: rest => exact ⟨IsFull.isKept h.1, MembersAreFull.membersAreKept h.2⟩

end

end Geometry

/-! ### How the texts start and end -/

namespace Wkt

/-- The name of a kind starts with a letter, so that it is no JSON object. -/
theorem Kind.exists_name_eq_cons (kind : Kind) :
    ∃ c s, kind.name.toList = c :: s ∧ Text.isBlank c = false ∧ c ≠ '{' := by
  cases kind <;> exact ⟨_, _, rfl, by decide, by decide⟩

/-- What follows the name of a kind does not end with a blank. -/
theorem exists_tagged_eq {α : Type} (kind : Kind) (write : List α → List Char) (parts : List α) :
    ∃ s c, tagged kind.name write parts = kind.name.toList ++ (s ++ [c]) ∧
      Text.isBlank c = false := by
  unfold tagged
  split
  · exact ⟨[' ', 'E', 'M', 'P', 'T'], 'Y', rfl, by decide⟩
  · exact ⟨'(' :: write parts, ')', rfl, by decide⟩

end Wkt

namespace Geometry

open Wkt

variable [Scalar R]

/-- Well-Known Text starts with the name of a kind and does not end with a blank. -/
private theorem exists_wktChars_eq (g : Geometry R) :
    ∃ (kind : Kind) (s : List Char) (c : Char),
      g.wktChars = kind.name.toList ++ (s ++ [c]) ∧ Text.isBlank c = false := by
  cases g with
  | point p => exact ⟨.point, exists_tagged_eq .point _ [p]⟩
  | lineString line => exact ⟨.lineString, exists_tagged_eq .lineString _ line⟩
  | polygon g => exact ⟨.polygon, exists_tagged_eq .polygon _ (writtenRings g)⟩
  | multiPoint points =>
    exact ⟨.multiPoint, exists_tagged_eq .multiPoint (fun ps => Text.separated [',']
      (ps.map fun p => parenthesized (positionChars p))) points⟩
  | multiLineString lines => exact ⟨.multiLineString, exists_tagged_eq .multiLineString _ lines⟩
  | multiPolygon polygons =>
    exact ⟨.multiPolygon, exists_tagged_eq .multiPolygon (fun gs => Text.separated [',']
      (gs.map fun g => parenthesized (linesChars (writtenRings g)))) polygons⟩
  | collection members =>
    refine ⟨.collection, ?_⟩
    cases members with
    | nil => exact exists_tagged_eq .collection (membersWktChars (R := R)) []
    | cons g rest => exact exists_tagged_eq .collection membersWktChars (g :: rest)

/-- Well-Known Text does not start with a blank or a brace, and does not end with a blank. -/
theorem isTrim_wktChars (g : Geometry R) :
    Text.IsTrim g.wktChars ∧ g.wktChars.head? ≠ some '{' := by
  obtain ⟨kind, s, c, heq, hc⟩ := exists_wktChars_eq g
  obtain ⟨d, t, hname, hd, hbrace⟩ := kind.exists_name_eq_cons
  rw [heq]
  refine ⟨⟨⟨d, t ++ (s ++ [c]), by rw [hname, List.cons_append], hd⟩,
    ⟨c, kind.name.toList ++ s, by rw [List.append_assoc], hc⟩⟩, ?_⟩
  rw [hname, List.cons_append, List.head?_cons]
  exact fun h => hbrace (Option.some.inj h)

end Geometry

namespace Json

variable [Scalar R]

/-- The text of an object starts and ends with a brace. -/
theorem isTrim_compactChars_obj (members : List (String × Json R)) :
    Text.IsTrim (obj members).compactChars ∧ (obj members).compactChars.head? = some '{' :=
  ⟨⟨⟨'{', _, rfl, by decide⟩, ⟨'}', '{' :: compactMembers members, rfl, by decide⟩⟩, rfl⟩

/-- A value in normal form is read from its text as it is, if its scalars are. -/
theorem ofText?_compact [LegibleScalar R] {v : Json R} (hfits : v.Fits .any maxDepth)
    (hnormal : v.IsNormal) (hreals : ∀ x ∈ v.reals, reread? x = some x) :
    ofText? v.compact = some v := by
  rw [ofText?, parse?_compact hfits v.keeps_any, (mapReals?_eq_self_iff v).mpr hreals,
    Option.map_some, hnormal.normalize_eq]

end Json

/-! ### The encodings -/

namespace Geometry

variable [Scalar R]

/-- The cells that hold a geometry which is given as a value: this value, or one of the texts of
the two, in blanks. -/
inductive Encodes (v : Json R) (g : Geometry R) : Json R → Prop
  | value : Encodes v g v
  | geoJson {before after : List Char} (hbefore : Text.IsBlanks before)
    (hafter : Text.IsBlanks after) :
    Encodes v g (.str (String.ofList (before ++ v.compactChars ++ after)))
  | wkt {before after : List Char} (hbefore : Text.IsBlanks before)
    (hafter : Text.IsBlanks after) :
    Encodes v g (.str (String.ofList (before ++ g.wktChars ++ after)))

/-- Only objects are geometries. -/
theorem eq_obj_of_ofGeoJson {v : Json R} {g : Geometry R} (h : ofGeoJson v = .ok g) :
    ∃ members, v = .obj members := by
  cases v with
  | obj members => exact ⟨members, rfl⟩
  | _ => cases h

/-- All encodings of a geometry are read as it. -/
theorem Encodes.ofCell_eq [LegibleScalar R] [SteadyScalar R] [ReadableScalar R] [WrittenScalar R]
    {v cell : Json R} {g : Geometry R} (hfits : v.Fits .any Json.maxDepth) (hnormal : v.IsNormal)
    (hreals : ∀ x ∈ v.reals, Json.reread? x = some x) (hread : ofGeoJson v = .ok g)
    (hkept : g.IsKept) (hcell : Encodes v g cell) : ofCell cell = .ok g := by
  obtain ⟨members, rfl⟩ := eq_obj_of_ofGeoJson hread
  cases hcell with
  | value => exact hread
  | geoJson hbefore hafter =>
    obtain ⟨htrim, hhead⟩ := Json.isTrim_compactChars_obj members
    simp only [ofCell]
    rw [Text.trimmed_eq hbefore htrim hafter, String.toList_ofList, if_pos hhead, ofGeoJsonText,
      ← Json.compact, Json.ofText?_compact hfits hnormal hreals]
    exact hread
  | wkt hbefore hafter =>
    obtain ⟨htrim, hhead⟩ := isTrim_wktChars g
    have hsound := isSound_of_ofGeoJson ⟨_, hfits⟩ hread
    simp only [ofCell]
    rw [Text.trimmed_eq hbefore htrim hafter, String.toList_ofList, if_neg hhead]
    exact (ofWkt_toWkt_eq_ok_iff hsound).mpr hkept

end Geometry

namespace Row

variable [Scalar R] {row row' : Row R} {field : String} {g : Geometry R}

/-- Cells with a geometry hold no number. -/
theorem number?_of_ofCell_eq_ok {v : Json R} (h : Geometry.ofCell v = .ok g) :
    v.number? = none := by
  cases v with
  | obj _ | str _ => rfl
  | _ => cases h

/-- Rows that hold the same geometry in a column and read alike elsewhere look alike to every
predicate that does not compare this column with a text. -/
theorem lookAlike_of_geometry (hg : Geometry.ofCell (row.read field) = .ok g)
    (hg' : Geometry.ofCell (row'.read field) = .ok g)
    (hother : ∀ c, c ≠ field → row.read c = row'.read c) {columns texts : List String}
    (htexts : field ∉ texts) : LookAlike columns texts row row' where
  geometry c _ := by
    rw [geometry?_eq_read, geometry?_eq_read]
    by_cases hc : c = field
    · rw [hc, hg, hg']
    · rw [hother c hc]
  number c _ := by
    rw [number?_eq_read, number?_eq_read]
    by_cases hc : c = field
    · rw [hc, number?_of_ofCell_eq_ok hg, number?_of_ofCell_eq_ok hg']
    · rw [hother c hc]
  text c hc := by
    rw [id?_eq_read, id?_eq_read, hother c fun heq => htexts (heq ▸ hc)]

end Row

namespace Geometry

variable [Scalar R] [LegibleScalar R] [SteadyScalar R] [ReadableScalar R] [WrittenScalar R]

/-- All encodings of a geometry without empty parts are read as it, and predicates give the same
answer on rows that hold the geometry in different encodings, unless they compare this column with
a text. -/
theorem encodings_agree {v : Json R} {g : Geometry R} (hfits : v.Fits .any Json.maxDepth)
    (hnormal : v.IsNormal) (hreals : ∀ x ∈ v.reals, Json.reread? x = some x)
    (hread : ofGeoJson v = .ok g) (hfull : g.IsFull) :
    (∀ cell, Encodes v g cell → ofCell cell = .ok g) ∧
    ∀ (field : String) (row row' : Row R), Encodes v g (row.read field) →
      Encodes v g (row'.read field) → (∀ c, c ≠ field → row.read c = row'.read c) →
      ∀ p : Predicate R, field ∉ p.compared → p.evaluate row = p.evaluate row' := by
  have hcell : ∀ cell, Encodes v g cell → ofCell cell = .ok g := fun cell =>
    Encodes.ofCell_eq hfits hnormal hreals hread hfull.isKept
  refine ⟨hcell, fun field row row' hrow hrow' hother p hp => p.evaluate_of_lookAlike ?_⟩
  exact Row.lookAlike_of_geometry (hcell _ hrow) (hcell _ hrow') hother hp

/-- A collection with one line, whose first position has an altitude. -/
def jetty : Json FlatDouble :=
  .obj [("geometries", .arr [.obj [("coordinates",
    .arr [.arr [.int 0, .int 0, .int 7], .arr [.int 4, .int 1]]), ("type", .str "LineString")]]),
    ("type", .str "GeometryCollection")]

/-- The geometry of this collection. -/
def jettyShape : Geometry FlatDouble :=
  .collection [.lineString [⟨Scalar.ofInt 0, Scalar.ofInt 0⟩, ⟨Scalar.ofInt 4, Scalar.ofInt 1⟩]]

/-- A collection is read from its text and from its Well-Known Text, and rows that hold it in
either way get the same verdicts. -/
theorem encodings_agree_jetty :
    ofGeoJson jetty = .ok jettyShape ∧
    ofCell (.str (String.ofList ([' '] ++ jetty.compactChars ++ ['\n']))) = .ok jettyShape ∧
    ∀ p : Predicate FlatDouble, "shape" ∉ p.compared →
      p.evaluate [("shape", jetty)] =
        p.evaluate [("shape", .str (String.ofList ([] ++ jettyShape.wktChars ++ [' '])))] := by
  have hread : ofGeoJson jetty = .ok jettyShape := rfl
  have hfits : jetty.Fits .any Json.maxDepth := by
    simp [jetty, Json.Fits, Json.MembersFit, Json.ItemsFit, Json.Shape.depthInside?,
      Json.Shape.head, Json.Shape.tail, Json.Shape.member, Json.IsWord64, Json.maxDepth]
  have hnormal : jetty.IsNormal := by
    simp only [jetty, Json.IsNormal, Json.MembersAreNormal, Json.ItemsAreNormal, Json.IsSorted]
    decide +kernel
  have hfull : jettyShape.IsFull := by simp [jettyShape, IsFull, MembersAreFull]
  have hblank : Text.IsBlanks [' '] := List.forall_mem_singleton.mpr (by decide)
  have hnewline : Text.IsBlanks ['\n'] := List.forall_mem_singleton.mpr (by decide)
  obtain ⟨hcell, hrows⟩ := encodings_agree hfits hnormal (fun x hx => by cases hx) hread hfull
  refine ⟨hread, hcell _ (.geoJson hblank hnewline), fun p hp => hrows "shape" _ _ .value
    (.wkt (List.forall_mem_nil _) hblank) (fun c hc => ?_) p hp⟩
  simp [Row.read, Row.cell?, Json.lookup, Ne.symm hc]

end Geometry

end TransitQuery
