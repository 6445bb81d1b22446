import TransitQuery.Proofs.Wkt.Token
import TransitQuery.Wkt.Reader

/-!
# Reading written text

What the readers of parts make of a part that is written, with anything behind it
(`Wkt.Reads`). A list in parentheses is read if it is not empty and all of its items are, which
also says which texts are refused (`Wkt.Reads.group`).

A reader takes the tokens that are left, and returns what it reads with the rest of them.
`Wkt.Reads` says this of a text: it is read as a value, or refused with `none`, whatever tokens
follow. Only geometries need fuel, as collections nest, and `Wkt.IsReadAs` says the same for them
with any fuel that is not less than the number of the tokens.

* `Wkt.Reads.group`, `Wkt.Reads.body`: a list in parentheses, and one for which the word for
  nothing may stand.
* `Wkt.readExtra_bodyChars`: what stands between the name of a geometry and its parts, which is
  nothing where a text is written.
* `Wkt.isReadAs_tagged`: so a geometry is read if its parts are. The kind is known from its name,
  which is one word.
-/

namespace TransitQuery

namespace Wkt

variable {R α β : Type}

/-! ### Items -/

/-- Items with commas between them are read if each of them is. -/
theorem readMany_intercalate {item : Reader R β} {spell : α → List (Token R)}
    {value : α → Option β} {as : List α} (hne : as ≠ [])
    (h : ∀ a ∈ as, ∀ rest, item (spell a ++ rest) = (value a).map (·, rest)) {fuel : Nat}
    (hfuel : as.length ≤ fuel) (rest : Rest R) :
    readMany item fuel ([.comma].intercalate (as.map spell) ++ .closing :: rest) =
      (as.mapM value).map (·, .closing :: rest) := by
  induction as generalizing fuel with
  | nil => exact absurd rfl hne
  | cons a as ih =>
    obtain ⟨ha, has⟩ := List.forall_mem_cons.mp h
    obtain ⟨fuel, rfl⟩ := Nat.exists_eq_succ_of_ne_zero (Nat.ne_zero_of_lt hfuel)
    rw [List.mapM_cons]
    cases as with
    | nil =>
      rw [List.map_singleton, List.intercalate_singleton, readMany, ha]
      cases value a <;> rfl
    | cons a' as =>
      have hrest := ih (List.cons_ne_nil a' as) has (Nat.le_of_succ_le_succ hfuel)
      rw [List.map_cons, List.map_cons, List.intercalate_cons_cons, ← List.map_cons,
        List.append_assoc, List.append_assoc, readMany, ha]
      cases value a with
      | none => rfl
      | some b =>
        simp only [Option.map_some, List.singleton_append, hrest]
        cases (a' :: as).mapM value <;> rfl

/-- There is fuel for each item. -/
theorem length_le_intercalate {separator : List β} (hseparator : separator ≠ [])
    (lists : List (List β)) : lists.length ≤ (separator.intercalate lists).length + 1 := by
  have hpos := List.length_pos_of_ne_nil hseparator
  induction lists with
  | nil => exact Nat.zero_le _
  | cons l lists ih =>
    cases lists with
    | nil => simp
    | cons l' lists =>
      rw [List.intercalate_cons_cons]
      simp only [List.length_cons, List.length_append] at ih ⊢
      omega

/-- A list in parentheses is read if each item is. -/
theorem readGroup_intercalate {item : Reader R β} {spell : α → List (Token R)}
    {value : α → Option β} {as : List α} (hne : as ≠ [])
    (h : ∀ a ∈ as, ∀ rest, item (spell a ++ rest) = (value a).map (·, rest)) (rest : Rest R) :
    readGroup item (.opening :: ([.comma].intercalate (as.map spell) ++ .closing :: rest)) =
      (as.mapM value).map (·, rest) := by
  have hfuel : as.length ≤
      ([.comma].intercalate (as.map spell) ++ .closing :: rest : List (Token R)).length := by
    have hlength := length_le_intercalate (List.cons_ne_nil Token.comma []) (as.map spell)
    simp only [List.length_map, List.length_append, List.length_cons] at hlength ⊢
    omega
  rw [readGroup, readMany_intercalate hne h hfuel]
  cases as.mapM value <;> rfl

/-- Nothing in parentheses is refused, if a parenthesis is no item. -/
theorem readGroup_nothing {item : Reader R β} {rest : Rest R}
    (h : item (.closing :: rest) = none) :
    readGroup item (.opening :: .closing :: rest) = none := by
  rw [readGroup, List.length_cons, readMany, h]

/-! ### Parts of a text -/

variable [Scalar R]

/-- A text that a reader reads as a value, or refuses, wherever it stands. -/
structure Reads (item : Reader R β) (s : List Char) (value : Option β) : Prop where
  isWhole : IsWhole s
  read : ∀ rest, item (tokens s ++ rest) = value.map (·, rest)

/-- The text of a list in parentheses. -/
def groupChars (write : α → List Char) (as : List α) : List Char :=
  parenthesized (Text.separated [','] (as.map write))

variable {item : Reader R β} {write : α → List Char} {value : α → Option β} {as : List α}

/-- A list in parentheses ends with its last character. -/
theorem isWhole_groupChars (h : ∀ a ∈ as, IsWhole (write a)) : IsWhole (groupChars write as) :=
  isWhole_parenthesized (isWhole_separated (List.forall_mem_singleton.mpr (by decide))
    (List.forall_mem_map.mpr h))

/-- Its tokens are those of its items, with commas between them. -/
theorem tokens_groupChars (h : ∀ a ∈ as, IsWhole (write a)) :
    tokens (groupChars write as) = .opening ::
      ([.comma].intercalate (as.map fun a => tokens (write a)) ++ [(.closing : Token R)]) := by
  have hwhole : ∀ s ∈ as.map write, IsWhole s := List.forall_mem_map.mpr h
  rw [groupChars, tokens_parenthesized, tokens_separated hwhole, List.map_map]
  · rfl
  · exact isWhole_separated (List.forall_mem_singleton.mpr (by decide)) hwhole

/-- A list that is not empty is read if each item is, and refused otherwise. -/
theorem Reads.group (hne : as ≠ []) (h : ∀ a ∈ as, Reads item (write a) (value a)) :
    Reads (readGroup item) (groupChars write as) (as.mapM value) where
  isWhole := isWhole_groupChars fun a ha => (h a ha).isWhole
  read rest := by
    rw [tokens_groupChars fun a ha => (h a ha).isWhole, List.cons_append, List.append_assoc]
    exact readGroup_intercalate hne (fun a ha => (h a ha).read) rest

/-- Nothing in parentheses is refused. -/
theorem reads_group_nil (h : ∀ rest, item (.closing :: rest) = none) :
    Reads (readGroup item) (groupChars write []) none where
  isWhole := isWhole_groupChars (List.forall_mem_nil _)
  read rest := readGroup_nothing (h rest)

/-- The parts of a geometry: a list in parentheses, or the word for nothing. -/
def bodyChars (write : α → List Char) (as : List α) : List Char :=
  if as.isEmpty then [' ', 'E', 'M', 'P', 'T', 'Y'] else groupChars write as

private theorem isWhole_bodyChars (h : ∀ a ∈ as, IsWhole (write a)) :
    IsWhole (bodyChars write as) := by
  unfold bodyChars
  split
  · simp [IsWhole]
  · exact isWhole_groupChars h

/-- The parts of a geometry end its name. -/
theorem endsWord_bodyChars : EndsWord (bodyChars write as) := by
  unfold bodyChars
  split <;> exact endsWord_cons rfl _

/-- A list may be empty where there is a word for it. -/
theorem Reads.body (h : ∀ a ∈ as, Reads item (write a) (value a)) :
    Reads (readGroup item) (bodyChars write as) (as.mapM value) := by
  cases as with
  | nil => exact ⟨isWhole_bodyChars (List.forall_mem_nil _), fun rest => rfl⟩
  | cons a as => exact Reads.group (List.cons_ne_nil a as) h

/-! ### Positions and lines -/

/-- A position ends with its last character. -/
theorem isWhole_positionChars (p : Position R) : IsWhole (positionChars p) :=
  isWhole_append.mpr ⟨isWhole_chars p.x,
    List.forall_mem_cons.mpr ⟨by decide, isWhole_chars p.y⟩⟩

theorem reads_positionChars [ReadableScalar R] [WrittenScalar R] {p : Position R}
    (hx : Scalar.isFinite p.x = true) (hy : Scalar.isFinite p.y = true) :
    Reads (readPosition 0) (positionChars p) (some p) where
  isWhole := isWhole_positionChars p
  read rest := by
    rw [positionChars, tokens_append (isWhole_chars p.x) (endsWord_cons rfl _), tokens_blank,
      tokens_chars hx, tokens_chars hy]
    rfl

/-! ### Reading geometries -/

/-- The name of a kind. -/
def Kind.name : Kind → String
  | point => "POINT"
  | lineString => "LINESTRING"
  | polygon => "POLYGON"
  | multiPoint => "MULTIPOINT"
  | multiLineString => "MULTILINESTRING"
  | multiPolygon => "MULTIPOLYGON"
  | collection => "GEOMETRYCOLLECTION"

/-- The name of a kind is one word, from which the kind is known. -/
theorem Kind.tokens_name (kind : Kind) :
    IsWhole kind.name.toList ∧ tokens kind.name.toList = [(.word kind.name.toList : Token R)] ∧
      kindOf? kind.name.toList = some (kind, none) := by
  cases kind
  all_goals exact ⟨by simp [IsWhole, name], rfl, by decide⟩

/-- The parts of a geometry declare no further ordinates. -/
theorem readExtra_bodyChars {α : Type} {write : α → List Char} {as : List α}
    (h : ∀ a ∈ as, IsWhole (write a)) (rest : Rest R) :
    readExtra (tokens (bodyChars write as) ++ rest) =
      some (0, tokens (bodyChars write as) ++ rest) := by
  cases as with
  | nil => rfl
  | cons a as =>
    have htokens := tokens_groupChars (R := R) h
    rw [bodyChars, List.isEmpty_cons, if_neg Bool.false_ne_true, htokens]
    rfl

/-- What the reader of a geometry makes of its parts. -/
def readParts (fuel : Nat) (kind : Kind) : Reader R (Geometry R) := fun rest =>
  if kind = .collection then
    (readGroup (readGeometry fuel) rest).map fun (members, rest) => (.collection members, rest)
  else readBody kind 0 rest

/-- A text that is read as a geometry, or refused, by a reader with fuel for it. -/
structure IsReadAs (s : List Char) (value : Option (Geometry R)) : Prop where
  isWhole : IsWhole s
  reads : ∀ fuel, (tokens s : List (Token R)).length ≤ fuel → Reads (readGeometry fuel) s value

/-- A name with parts is read if the parts are. -/
theorem isReadAs_tagged (kind : Kind) {α : Type} {write : α → List Char} {as : List α}
    {value : Option (Geometry R)} (hwrite : ∀ a ∈ as, IsWhole (write a))
    (h : ∀ fuel, (tokens (kind.name.toList ++ bodyChars write as) : List (Token R)).length ≤
      fuel + 1 → Reads (readParts fuel kind) (bodyChars write as) value) :
    IsReadAs (kind.name.toList ++ bodyChars write as) value := by
  obtain ⟨hname, htokens, hkind⟩ := kind.tokens_name (R := R)
  have hwhole : IsWhole (kind.name.toList ++ bodyChars write as) :=
    isWhole_append.mpr ⟨hname, isWhole_bodyChars hwrite⟩
  have hall : tokens (kind.name.toList ++ bodyChars write as) =
      .word kind.name.toList :: (tokens (bodyChars write as) : List (Token R)) := by
    rw [tokens_append hname endsWord_bodyChars, htokens, List.singleton_append]
  refine ⟨hwhole, fun fuel hfuel => ⟨hwhole, fun rest => ?_⟩⟩
  obtain ⟨fuel, rfl⟩ : ∃ n, fuel = n + 1 := by
    refine Nat.exists_eq_succ_of_ne_zero fun hzero => ?_
    rw [hall, hzero, List.length_cons] at hfuel
    omega
  rw [hall, List.cons_append, readGeometry, hkind]
  dsimp only [Option.elim]
  rw [readExtra_bodyChars hwrite]
  exact (h fuel hfuel).read rest

end Wkt

end TransitQuery
