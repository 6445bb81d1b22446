import TransitQuery.Proofs.Geometry.Finite
import TransitQuery.Proofs.Wkt.Reader

/-!
# Reading back Well-Known Text

What the text of a geometry is read as (`Geometry.reread?`). Points, lines and lists of points are
read back as they are. A line of several, or a ring, that is empty is written with nothing in its
parentheses and is refused; so is a polygon among others that has no ring to write. A polygon whose
outer ring is empty loses it, and its first hole takes the place.

`Geometry.reread?` is defined by recursion over the geometry, without a look at the text, and
`Geometry.isReadAs` says that it is what the reader makes of the text, for geometries with finite
positions and closed rings. The proof is in three stages.

* Parts: positions, lines and lists of lines, each as a text that is read wherever it stands
  (`Wkt.Reads`).
* Kinds: the name of a geometry and its parts (`Geometry.isReadAs_of_kind`), where the kind tells
  the reader which parts to expect.
* Collections: their members are geometries, and by induction each of these is read or refused.
  There is fuel for them, as the tokens of a member are fewer (`Geometry.length_tokens_lt_of_mem`).

What becomes of a geometry then is a matter of its own structure, and is told in `Kept`.
-/

namespace TransitQuery

variable {R : Type}

namespace Wkt

/-- A line in parentheses, which is refused if it is empty. -/
def reread? (line : List (Position R)) : Option (List (Position R)) :=
  if line.isEmpty then none else some line

/-- The polygon with the given rings in parentheses. -/
def rereadPolygon? [Scalar R] (rings : List (List (Position R))) : Option (Polygon R) :=
  (rings.mapM reread?).map polygonOfRings

/-- The lines that a list of lines looks like. No line looks like an empty one. -/
def shownLines (lines : List (List (Position R))) : List (List (Position R)) :=
  if lines.isEmpty then [[]] else lines

end Wkt

namespace Geometry

open Wkt

variable [Scalar R]

mutual

/-- What the text of a geometry is read as. -/
def reread? : Geometry R → Option (Geometry R)
  | polygon g => (rereadPolygon? (writtenRings g)).map polygon
  | multiLineString lines => (lines.mapM Wkt.reread?).map multiLineString
  | multiPolygon polygons =>
    (polygons.mapM fun g => rereadPolygon? (shownLines (writtenRings g))).map multiPolygon
  | collection members => (rereadMembers? members).map collection
  | g => some g

/-- What the texts of several geometries are read as. -/
def rereadMembers? : List (Geometry R) → Option (List (Geometry R))
  | [] => some []
  | g :: rest => do return (← reread? g) :: (← rereadMembers? rest)

end

theorem rereadMembers?_eq_mapM (members : List (Geometry R)) :
    rereadMembers? members = members.mapM reread? := by
  induction members with
  | nil => rfl
  | cons g rest ih => rw [rereadMembers?, List.mapM_cons, ih]

end Geometry

/-! ### Texts of parts -/

namespace Wkt

/-- Lines with parentheses and commas between them are lines in parentheses with commas between
them. -/
theorem parenthesized_separated {texts : List (List Char)} (hne : texts ≠ []) :
    parenthesized (Text.separated [')', ',', '('] texts) =
      Text.separated [','] (texts.map parenthesized) := by
  induction texts with
  | nil => exact absurd rfl hne
  | cons s texts ih =>
    cases texts with
    | nil => rfl
    | cons t texts =>
      calc parenthesized (Text.separated [')', ',', '('] (s :: t :: texts))
          = parenthesized s ++ [','] ++
              parenthesized (Text.separated [')', ',', '('] (t :: texts)) := by
            simp [parenthesized, Text.separated]
        _ = Text.separated [','] ((s :: t :: texts).map parenthesized) := by
            rw [ih (List.cons_ne_nil t texts)]
            rfl

variable [Scalar R]

/-- The text of several lines, each in parentheses. -/
private theorem linesChars_eq (lines : List (List (Position R))) :
    linesChars lines =
      Text.separated [','] ((shownLines lines).map (groupChars positionChars)) := by
  have hgroup : (groupChars positionChars : List (Position R) → List Char) =
      parenthesized ∘ lineChars := rfl
  unfold shownLines
  cases lines with
  | nil => rfl
  | cons line lines =>
    rw [linesChars, parenthesized_separated (by simp), hgroup, List.map_map]
    rfl

/-- With parentheses around them, it is a list of lists. -/
private theorem parenthesized_linesChars (lines : List (List (Position R))) :
    parenthesized (linesChars lines) =
      groupChars (groupChars positionChars) (shownLines lines) := by
  rw [linesChars_eq, groupChars]

/-- Lines that are not in parentheses already. -/
theorem tagged_linesChars (name : String) (lines : List (List (Position R))) :
    tagged name linesChars lines =
      name.toList ++ bodyChars (groupChars positionChars) lines := by
  unfold tagged bodyChars
  cases lines with
  | nil => rfl
  | cons line lines =>
    rw [parenthesized_linesChars]
    rfl

end Wkt

/-! ### Reading the parts -/

namespace Wkt

variable [Scalar R] {α : Type} {s : List Char} {value : Option α}

/-- What is read may be passed on. -/
theorem Reads.map {β : Type} {item : Reader R α} (h : Reads item s value) (f : α → β) :
    Reads (fun rest => (item rest).map fun (a, rest) => (f a, rest)) s (value.map f) where
  isWhole := h.isWhole
  read rest := by
    rw [h.read]
    cases value <;> rfl

theorem mapM_cons_eq_some_iff {β : Type} {f : α → Option β} {a : α} {as : List α} {bs : List β} :
    (a :: as).mapM f = some bs ↔
      ∃ b bs', f a = some b ∧ as.mapM f = some bs' ∧ bs = b :: bs' := by
  rw [List.mapM_cons]
  cases f a with
  | none => simp
  | some b => cases as.mapM f <;> simp [eq_comm]

/-- A list is taken to itself if each member is. -/
theorem mapM_eq_some_self_iff {f : α → Option α} {as : List α} :
    as.mapM f = some as ↔ ∀ a ∈ as, f a = some a := by
  induction as with
  | nil => simp
  | cons a as ih =>
    rw [mapM_cons_eq_some_iff, List.forall_mem_cons, ← ih]
    simp

theorem isSome_mapM_iff {β : Type} {f : α → Option β} {as : List α} :
    (as.mapM f).isSome = true ↔ ∀ a ∈ as, (f a).isSome = true := by
  induction as with
  | nil => simp
  | cons a as ih =>
    rw [List.forall_mem_cons, ← ih, List.mapM_cons]
    cases f a with
    | none => simp
    | some b => cases as.mapM f <;> simp

private theorem map_mapM {β γ : Type} {f : α → Option β} {k : β → γ} {as : List α} :
    (as.mapM f).map (List.map k) = as.mapM fun a => (f a).map k := by
  induction as with
  | nil => rfl
  | cons a as ih =>
    rw [List.mapM_cons, List.mapM_cons, ← ih]
    cases f a with
    | none => rfl
    | some b => cases as.mapM f <;> rfl

variable [ReadableScalar R] [WrittenScalar R]

private theorem reads_position {p : Position R} (h : p.isFinite = true) :
    Reads (readPosition 0) (positionChars p) (some p) :=
  reads_positionChars (Bool.and_eq_true_iff.mp h).1 (Bool.and_eq_true_iff.mp h).2

/-- A line is read back unless it is empty. -/
private theorem reads_line {line : List (Position R)} (h : ∀ p ∈ line, p.isFinite = true) :
    Reads (readLine 0) (groupChars positionChars line) (reread? line) := by
  unfold reread?
  cases line with
  | nil => exact reads_group_nil fun rest => rfl
  | cons p line =>
    have hread := Reads.group (List.cons_ne_nil p line) fun p hp => reads_position (h p hp)
    rwa [mapM_eq_some_self_iff.mpr fun _ _ => rfl] at hread

/-- Several lines are read back unless one of them is empty. -/
private theorem reads_lines {lines : List (List (Position R))}
    (h : ∀ line ∈ lines, ∀ p ∈ line, p.isFinite = true) :
    Reads (readLines 0) (groupChars (groupChars positionChars) (shownLines lines))
      ((shownLines lines).mapM reread?) := by
  unfold shownLines
  cases lines with
  | nil => exact Reads.group (List.cons_ne_nil [] []) fun line hline => reads_line (by simp_all)
  | cons line lines =>
    exact Reads.group (List.cons_ne_nil line lines) fun line hline => reads_line (h line hline)

end Wkt

namespace Polygon

variable [Scalar R]

/-- A polygon whose rings are closed and have finite positions. -/
def IsSound (g : Polygon R) : Prop :=
  ∀ ring ∈ g.rings, isClosed ring = true ∧ ∀ p ∈ ring, p.isFinite = true

end Polygon

namespace Geometry

open Wkt

variable [Scalar R]

/-- A geometry with finite positions, whose rings are closed. -/
def IsSound : Geometry R → Prop :=
  Consists (·.isFinite = true) Polygon.IsSound

private theorem membersWktChars_eq (members : List (Geometry R)) :
    membersWktChars members = Text.separated [','] (members.map wktChars) := by
  induction members with
  | nil => rfl
  | cons g rest ih =>
    cases rest with
    | nil => rfl
    | cons g' rest =>
      rw [membersWktChars, ih]
      · simp [Text.separated]
      · exact List.cons_ne_nil g' rest

private theorem wktChars_collection (members : List (Geometry R)) :
    wktChars (collection members) =
      Kind.collection.name.toList ++ bodyChars wktChars members := by
  cases members with
  | nil => rfl
  | cons g rest =>
    change _ ++ parenthesized (membersWktChars (g :: rest)) = _
    rw [membersWktChars_eq]
    rfl

private theorem wktChars_multiPolygon (polygons : List (Polygon R)) :
    wktChars (multiPolygon polygons) = Kind.multiPolygon.name.toList ++
      bodyChars (fun g => groupChars (groupChars positionChars) (shownLines (writtenRings g)))
        polygons := by
  change tagged "MULTIPOLYGON" (fun gs => Text.separated [','] (gs.map fun g =>
    parenthesized (linesChars (writtenRings g)))) polygons = _
  rw [tagged, bodyChars, groupChars]
  simp only [parenthesized_linesChars]
  rfl

private theorem isFinite_of_mem_writtenRings {g : Polygon R} (hg : g.IsSound)
    {ring : List (Position R)} (hring : ring ∈ writtenRings g) : ∀ p ∈ ring, p.isFinite = true := by
  refine (hg ring ?_).2
  unfold writtenRings at hring
  split at hring
  · exact List.mem_cons_of_mem _ hring
  · exact hring

private theorem length_le_of_mem_intercalate {α : Type} {separator l : List α}
    {lists : List (List α)}
    (h : l ∈ lists) : l.length ≤ (separator.intercalate lists).length := by
  induction lists with
  | nil => cases h
  | cons l' lists ih =>
    cases lists with
    | nil =>
      obtain rfl := List.mem_singleton.mp h
      rw [List.intercalate_singleton]
    | cons l'' lists =>
      rw [List.intercalate_cons_cons, List.length_append, List.length_append]
      rcases List.mem_cons.mp h with rfl | h
      · omega
      · exact (ih h).trans (Nat.le_add_left _ _)

/-- The tokens of a collection are more than those of each member. -/
theorem length_tokens_lt_of_mem {members : List (Geometry R)} {g : Geometry R}
    (hg : g ∈ members) (hwhole : ∀ g ∈ members, IsWhole g.wktChars) :
    (tokens g.wktChars : List (Token R)).length <
      (tokens (collection members).wktChars : List (Token R)).length := by
  obtain ⟨hname, htokens, -⟩ := Kind.collection.tokens_name (R := R)
  have hbody : bodyChars wktChars members = groupChars wktChars members := by
    rw [bodyChars, List.isEmpty_eq_false_iff.mpr (List.ne_nil_of_mem hg)]
    rfl
  have hle : (tokens g.wktChars : List (Token R)).length ≤
      ([.comma].intercalate (members.map fun g => tokens g.wktChars)).length :=
    length_le_of_mem_intercalate (List.mem_map_of_mem hg)
  rw [wktChars_collection, tokens_append hname endsWord_bodyChars, htokens, hbody,
    tokens_groupChars hwhole]
  simp only [List.length_append, List.length_cons, List.length_nil]
  omega

/-- A collection is read if its members are. -/
private theorem isReadAs_collection {members : List (Geometry R)}
    (h : ∀ g ∈ members, IsReadAs g.wktChars g.reread?) :
    IsReadAs (collection members).wktChars (collection members).reread? := by
  have hwhole : ∀ g ∈ members, IsWhole g.wktChars := fun g hg => (h g hg).isWhole
  have hreread : (collection members).reread? = (members.mapM reread?).map collection :=
    congrArg (Option.map collection) (rereadMembers?_eq_mapM members)
  rw [hreread]
  have hlength := fun g hg => length_tokens_lt_of_mem (g := g) hg hwhole
  rw [wktChars_collection] at hlength ⊢
  refine isReadAs_tagged .collection hwhole fun fuel hfuel => ?_
  exact (Reads.body fun g hg => (h g hg).reads fuel (by have := hlength g hg; omega)).map collection

section

variable [ReadableScalar R] [WrittenScalar R]

private theorem reads_optionalPosition {p : Position R} (h : p.isFinite = true) :
    Reads (readOptionalPosition 0) (bodyChars positionChars [p]) (some (some p)) where
  isWhole := isWhole_groupChars (List.forall_mem_singleton.mpr (isWhole_positionChars p))
  read rest := by
    have htokens : tokens (bodyChars positionChars [p]) =
        .opening :: ((tokens (positionChars p) : List (Token R)) ++ [.closing]) :=
      tokens_parenthesized (isWhole_positionChars p)
    rw [htokens, List.cons_append, List.append_assoc, readOptionalPosition,
      (reads_position h).read]
    rfl

private theorem reads_member {p : Position R} (h : p.isFinite = true) :
    Reads (readMember 0) (parenthesized (positionChars p)) (some p) where
  isWhole := isWhole_parenthesized (isWhole_positionChars p)
  read rest := by
    rw [tokens_parenthesized (isWhole_positionChars p), List.cons_append, List.append_assoc,
      readMember, (reads_position h).read]
    rfl

/-- A geometry that is no collection is read back from its text, or refused. -/
theorem isReadAs_of_kind (g : Geometry R) (hg : g.IsSound)
    (hkind : ∀ members, g ≠ collection members) : IsReadAs g.wktChars g.reread? := by
  cases g with
  | point p =>
    have hread : Reads (readOptionalPosition 0) _ _ := reads_optionalPosition hg
    refine isReadAs_tagged .point (fun p _ => isWhole_positionChars p)
      fun _ _ => ⟨hread.isWhole, fun rest => ?_⟩
    rw [readParts, if_neg (by decide), readBody, hread.read]
    rfl
  | lineString line =>
    have hread := (Reads.body fun p hp => reads_position (hg p hp)).map lineString
    rw [mapM_eq_some_self_iff.mpr fun _ _ => rfl] at hread
    exact isReadAs_tagged .lineString (fun p _ => isWhole_positionChars p) fun _ _ => hread
  -- An outer ring without positions is not written, so the rings that are read are `writtenRings`.
  | polygon g =>
    have hrings : ∀ ring ∈ writtenRings g, _ := fun ring hring =>
      reads_line (isFinite_of_mem_writtenRings hg hring)
    have hread := (Reads.body hrings).map fun rings => polygon (polygonOfRings rings)
    have hvalue : (polygon g).reread? = _ := Option.map_map polygon polygonOfRings _
    change IsReadAs (tagged "POLYGON" linesChars (writtenRings g)) _
    rw [tagged_linesChars, hvalue]
    exact isReadAs_tagged .polygon (fun ring hring => (hrings ring hring).isWhole) fun _ _ => hread
  | multiPoint points =>
    have hread := (Reads.body fun p hp => reads_member (hg p hp)).map multiPoint
    rw [mapM_eq_some_self_iff.mpr fun _ _ => rfl] at hread
    exact isReadAs_tagged .multiPoint
      (fun p _ => isWhole_parenthesized (isWhole_positionChars p)) fun _ _ => hread
  | multiLineString lines =>
    have hlines : ∀ line ∈ lines, _ := fun line hline => reads_line (hg line hline)
    have hread := (Reads.body hlines).map multiLineString
    change IsReadAs (tagged "MULTILINESTRING" linesChars lines) _
    rw [tagged_linesChars]
    exact isReadAs_tagged .multiLineString (fun line hline => (hlines line hline).isWhole)
      fun _ _ => hread
  | multiPolygon polygons =>
    have hpolygons : ∀ g ∈ polygons, _ := fun g hmem =>
      reads_lines fun ring hring => isFinite_of_mem_writtenRings (hg g hmem) hring
    have hread := (Reads.body hpolygons).map fun read => multiPolygon (read.map polygonOfRings)
    have hvalue : (multiPolygon polygons).reread? = _ :=
      (congrArg (Option.map multiPolygon) map_mapM.symm).trans (Option.map_map _ _ _)
    rw [wktChars_multiPolygon, hvalue]
    exact isReadAs_tagged .multiPolygon (fun g hmem => (hpolygons g hmem).isWhole) fun _ _ => hread
  | collection members => exact absurd rfl (hkind members)

end

mutual

/-- Every geometry is read back from its text, or refused. -/
theorem isReadAs [ReadableScalar R] [WrittenScalar R] (g : Geometry R) (hg : g.IsSound) :
    IsReadAs g.wktChars g.reread? := by
  match g with
  | .collection members => exact isReadAs_collection (isReadAs_of_mem members hg)
  | .point p => exact isReadAs_of_kind _ hg (by simp)
  | .lineString line => exact isReadAs_of_kind _ hg (by simp)
  | .polygon g => exact isReadAs_of_kind _ hg (by simp)
  | .multiPoint points => exact isReadAs_of_kind _ hg (by simp)
  | .multiLineString lines => exact isReadAs_of_kind _ hg (by simp)
  | .multiPolygon polygons => exact isReadAs_of_kind _ hg (by simp)

private theorem isReadAs_of_mem [ReadableScalar R] [WrittenScalar R] (members : List (Geometry R))
    (h : MembersConsist (·.isFinite = true) Polygon.IsSound members) :
    ∀ g ∈ members, IsReadAs g.wktChars g.reread? := by
  match members with
  | [] => exact List.forall_mem_nil _
  | g :: rest => exact List.forall_mem_cons.mpr ⟨isReadAs g h.1, isReadAs_of_mem rest h.2⟩

end

/-- What the text of a geometry is read as. -/
theorem ofWkt?_toWkt [ReadableScalar R] [WrittenScalar R] {g : Geometry R} (hg : g.IsSound) :
    ofWkt? g.toWkt = g.reread? := by
  have hread := ((isReadAs g hg).reads _ le_rfl).read []
  rw [List.append_nil] at hread
  rw [ofWkt?, toWkt, String.toList_ofList, ofWktChars?, hread]
  cases g.reread? <;> rfl

end Geometry

end TransitQuery
