import TransitQuery.Proofs.Json.Normal

/-!
# Texts are read back

A value that fits a shape, and of which the shape keeps every part, is read back from its text
with each of its scalars as the text of the scalar is read (`Json.parse?_compact`). Nothing else
of a value changes, and none of it is lost: the result is the value itself just if all its scalars
are read as themselves (`Json.mapReals?_eq_self_iff`).

Three things are needed of a value that is to be read back, and each is a predicate of its own:

* `Json.Fits`: its integers have 64 bits, its scalars are finite, and it does not nest too deep;
* `Json.Keeps`: the shape in which it is read skips no part of it;
* `Json.mapReals?` with `Json.reread?`: each scalar is read from its text, perhaps as another one.

The first two hold after the scalars have been replaced, if they did before
(`Json.Fits.mapReals?`), so a value can be written and read any number of times. The main theorem
is an induction over the value, with any text behind it (`Json.readValue_compactChars`): the first
character tells the reader the form of the value, strings and numbers are read by their own lemmas,
and items and members one after the other. Two steps of fuel for each character of the text are
enough, as every value has at least one character.
-/

namespace TransitQuery

namespace Json

variable {R : Type}

/-! ### The scalars of a value -/

mutual

/-- The scalars in a value, in the order of its text. -/
def reals : Json R → List R
  | real x => [x]
  | arr items => itemReals items
  | obj members => memberReals members
  | _ => []

/-- The scalars in several items. -/
def itemReals : List (Json R) → List R
  | [] => []
  | v :: rest => v.reals ++ itemReals rest

/-- The scalars in several members. -/
def memberReals : List (String × Json R) → List R
  | [] => []
  | (_, v) :: rest => v.reals ++ memberReals rest

end

mutual

/-- A value with each scalar replaced by what it is taken to, if each is taken to something. -/
def mapReals? (f : R → Option R) : Json R → Option (Json R)
  | null => some null
  | bool b => some (bool b)
  | int i => some (int i)
  | real x => (f x).map real
  | str s => some (str s)
  | arr items => (mapItems? f items).map arr
  | obj members => (mapMembers? f members).map obj

/-- Several items with each scalar replaced. -/
def mapItems? (f : R → Option R) : List (Json R) → Option (List (Json R))
  | [] => some []
  | v :: rest => (v.mapReals? f).bind fun v => (mapItems? f rest).map (v :: ·)

/-- Several members with each scalar replaced. -/
def mapMembers? (f : R → Option R) : List (String × Json R) → Option (List (String × Json R))
  | [] => some []
  | (k, v) :: rest => (v.mapReals? f).bind fun v => (mapMembers? f rest).map ((k, v) :: ·)

end

mutual

/-- Replacing the scalars leaves a value as it is just if it leaves each of them. -/
theorem mapReals?_eq_self_iff {f : R → Option R} (v : Json R) :
    v.mapReals? f = some v ↔ ∀ x ∈ v.reals, f x = some x := by
  match v with
  | real x => simp [mapReals?, reals]
  | arr items => simp [mapReals?, reals, mapItems?_eq_self_iff items]
  | obj members => simp [mapReals?, reals, mapMembers?_eq_self_iff members]
  | null | bool _ | int _ | str _ => simp [mapReals?, reals]

private theorem mapItems?_eq_self_iff {f : R → Option R} (items : List (Json R)) :
    mapItems? f items = some items ↔ ∀ x ∈ itemReals items, f x = some x := by
  match items with
  | [] => simp [mapItems?, itemReals]
  | v :: rest =>
    simp only [mapItems?, itemReals, List.forall_mem_append, ← mapReals?_eq_self_iff v,
      ← mapItems?_eq_self_iff rest]
    simp [Option.bind_eq_some_iff]

private theorem mapMembers?_eq_self_iff {f : R → Option R} (members : List (String × Json R)) :
    mapMembers? f members = some members ↔ ∀ x ∈ memberReals members, f x = some x := by
  match members with
  | [] => simp [mapMembers?, memberReals]
  | (k, v) :: rest =>
    simp only [mapMembers?, memberReals, List.forall_mem_append, ← mapReals?_eq_self_iff v,
      ← mapMembers?_eq_self_iff rest]
    simp [Option.bind_eq_some_iff]

end

/-! ### Replacing keeps the form -/

private theorem map_fst_mapMembers? {f : R → Option R} {members members' : List (String × Json R)}
    (h : mapMembers? f members = some members') : members'.map (·.1) = members.map (·.1) := by
  induction members generalizing members' with
  | nil =>
    obtain rfl := Option.some.inj h
    rfl
  | cons m rest ih =>
    obtain ⟨k, v⟩ := m
    obtain ⟨w, -, h⟩ := Option.bind_eq_some_iff.mp h
    obtain ⟨rest', hrest, rfl⟩ := Option.map_eq_some_iff.mp h
    simp [ih hrest]

mutual

/-- Replacing the scalars of a value in normal form leaves it in normal form. -/
theorem IsNormal.mapReals? {f : R → Option R} {v w : Json R} (h : v.IsNormal)
    (hw : v.mapReals? f = some w) : w.IsNormal := by
  match v with
  | arr items =>
    obtain ⟨items', hitems, rfl⟩ := Option.map_eq_some_iff.mp hw
    exact ItemsAreNormal.mapItems? h hitems
  | obj members =>
    obtain ⟨members', hmembers, rfl⟩ := Option.map_eq_some_iff.mp hw
    refine ⟨?_, MembersAreNormal.mapMembers? h.2 hmembers⟩
    have hsorted := List.pairwise_map.mpr h.1
    rw [← map_fst_mapMembers? hmembers] at hsorted
    exact List.pairwise_map.mp hsorted
  | real x =>
    obtain ⟨y, -, rfl⟩ := Option.map_eq_some_iff.mp hw
    trivial
  | null | bool _ | int _ | str _ =>
    obtain rfl := Option.some.inj hw
    trivial

theorem ItemsAreNormal.mapItems? {f : R → Option R} {items items' : List (Json R)}
    (h : ItemsAreNormal items) (hw : Json.mapItems? f items = some items') :
    ItemsAreNormal items' := by
  match items with
  | [] =>
    obtain rfl := Option.some.inj hw
    trivial
  | v :: rest =>
    obtain ⟨w, hv, hw⟩ := Option.bind_eq_some_iff.mp hw
    obtain ⟨rest', hrest, rfl⟩ := Option.map_eq_some_iff.mp hw
    exact ⟨IsNormal.mapReals? h.1 hv, ItemsAreNormal.mapItems? h.2 hrest⟩

theorem MembersAreNormal.mapMembers? {f : R → Option R} {members members' : List (String × Json R)}
    (h : MembersAreNormal members) (hw : Json.mapMembers? f members = some members') :
    MembersAreNormal members' := by
  match members with
  | [] =>
    obtain rfl := Option.some.inj hw
    trivial
  | (k, v) :: rest =>
    obtain ⟨w, hv, hw⟩ := Option.bind_eq_some_iff.mp hw
    obtain ⟨rest', hrest, rfl⟩ := Option.map_eq_some_iff.mp hw
    exact ⟨IsNormal.mapReals? h.1 hv, MembersAreNormal.mapMembers? h.2 hrest⟩

end

/-- Replacing makes no `null`. -/
theorem ne_null_of_mapReals? {f : R → Option R} {v w : Json R} (hv : v ≠ null)
    (hw : v.mapReals? f = some w) : w ≠ null := by
  rintro rfl
  cases v with
  | null => exact hv rfl
  | real x | arr items | obj members => simp [mapReals?] at hw
  | bool _ | int _ | str _ => cases hw

/-- Replacing makes no string. -/
theorem ne_str_of_mapReals? {f : R → Option R} {v w : Json R} (hv : ∀ s, v ≠ str s)
    (hw : v.mapReals? f = some w) (s : String) : w ≠ str s := by
  rintro rfl
  cases v with
  | str t => exact hv t rfl
  | real x | arr items | obj members => simp [mapReals?] at hw
  | null | bool _ | int _ => cases hw

/-- A function on scalars whose values are finite. -/
def YieldsFinite [Scalar R] (f : R → Option R) : Prop :=
  ∀ x y, f x = some y → Scalar.isFinite y = true

mutual

/-- Replacing scalars by finite ones keeps the levels of a value, and so it fits as before. -/
theorem Fits.mapReals? [Scalar R] {f : R → Option R} (hf : YieldsFinite f) {shape : Shape}
    {depth : Nat} {v w : Json R} (h : v.Fits shape depth) (hw : v.mapReals? f = some w) :
    w.Fits shape depth := by
  match v with
  | arr items =>
    obtain ⟨inner, hinner, hitems⟩ := h
    obtain ⟨items', hmap, rfl⟩ := Option.map_eq_some_iff.mp hw
    exact ⟨inner, hinner, ItemsFit.mapItems? hf hitems hmap⟩
  | obj members =>
    obtain ⟨inner, hinner, hmembers⟩ := h
    obtain ⟨members', hmap, rfl⟩ := Option.map_eq_some_iff.mp hw
    exact ⟨inner, hinner, MembersFit.mapMembers? hf hmembers hmap⟩
  | real x =>
    obtain ⟨y, hy, rfl⟩ := Option.map_eq_some_iff.mp hw
    exact hf x y hy
  | null | bool _ | int _ | str _ =>
    obtain rfl := Option.some.inj hw
    exact h

theorem ItemsFit.mapItems? [Scalar R] {f : R → Option R} (hf : YieldsFinite f) {shape : Shape}
    {depth : Nat} {items items' : List (Json R)} (h : ItemsFit shape depth items)
    (hw : Json.mapItems? f items = some items') : ItemsFit shape depth items' := by
  match items with
  | [] =>
    obtain rfl := Option.some.inj hw
    trivial
  | v :: rest =>
    obtain ⟨w, hv, hw⟩ := Option.bind_eq_some_iff.mp hw
    obtain ⟨rest', hrest, rfl⟩ := Option.map_eq_some_iff.mp hw
    exact ⟨Fits.mapReals? hf h.1 hv, ItemsFit.mapItems? hf h.2 hrest⟩

theorem MembersFit.mapMembers? [Scalar R] {f : R → Option R} (hf : YieldsFinite f)
    {shape : Shape} {depth : Nat} {members members' : List (String × Json R)}
    (h : MembersFit shape depth members) (hw : Json.mapMembers? f members = some members') :
    MembersFit shape depth members' := by
  match members with
  | [] =>
    obtain rfl := Option.some.inj hw
    trivial
  | (k, v) :: rest =>
    obtain ⟨w, hv, hw⟩ := Option.bind_eq_some_iff.mp hw
    obtain ⟨rest', hrest, rfl⟩ := Option.map_eq_some_iff.mp hw
    exact ⟨Fits.mapReals? hf h.1 hv, MembersFit.mapMembers? hf h.2 hrest⟩

end

/-! ### What a shape keeps -/

mutual

/-- Whether a shape keeps every part of a value. -/
def Keeps (shape : Shape) : Json R → Prop
  | arr items => shape ≠ .skipped ∧ ItemsKept shape items
  | obj members => shape ≠ .skipped ∧ MembersKept shape members
  | _ => shape ≠ .skipped

/-- Whether it keeps every item of an array. -/
def ItemsKept (shape : Shape) : List (Json R) → Prop
  | [] => True
  | v :: rest => v.Keeps shape.head ∧ ItemsKept shape.tail rest

/-- Whether it keeps every member of an object. -/
def MembersKept (shape : Shape) : List (String × Json R) → Prop
  | [] => True
  | (k, v) :: rest => v.Keeps (shape.member k) ∧ MembersKept shape rest

end

mutual

/-- Where everything is kept, every value is. -/
theorem keeps_any (v : Json R) : v.Keeps .any := by
  match v with
  | arr items => exact ⟨nofun, itemsKept_any items⟩
  | obj members => exact ⟨nofun, membersKept_any members⟩
  | null | bool _ | int _ | real _ | str _ => exact nofun

private theorem itemsKept_any (items : List (Json R)) : ItemsKept .any items := by
  match items with
  | [] => trivial
  | v :: rest => exact ⟨keeps_any v, itemsKept_any rest⟩

private theorem membersKept_any (members : List (String × Json R)) : MembersKept .any members := by
  match members with
  | [] => trivial
  | (k, v) :: rest => exact ⟨keeps_any v, membersKept_any rest⟩

end

private theorem Keeps.ne_skipped {shape : Shape} {v : Json R} (h : v.Keeps shape) :
    shape ≠ .skipped := by
  cases v with
  | arr items => exact h.1
  | obj members => exact h.1
  | _ => exact h

variable [Scalar R]

mutual

/-- The numbers in what a text can hold are finite. -/
theorem Fits.hasFiniteNumbers {shape : Shape} {depth : Nat} {v : Json R}
    (h : v.Fits shape depth) : v.hasFiniteNumbers = true := by
  match v with
  | real x => exact h
  | arr items =>
    obtain ⟨inner, -, hitems⟩ := h
    exact ItemsFit.haveFiniteNumbers hitems
  | obj members =>
    obtain ⟨inner, -, hmembers⟩ := h
    exact MembersFit.haveFiniteNumbers hmembers
  | null | bool _ | int _ | str _ => rfl

private theorem ItemsFit.haveFiniteNumbers {shape : Shape} {depth : Nat} {items : List (Json R)}
    (h : ItemsFit shape depth items) : itemsHaveFiniteNumbers items = true := by
  match items with
  | [] => rfl
  | v :: rest =>
    exact Bool.and_eq_true_iff.mpr
      ⟨Fits.hasFiniteNumbers h.1, ItemsFit.haveFiniteNumbers h.2⟩

private theorem MembersFit.haveFiniteNumbers {shape : Shape} {depth : Nat}
    {members : List (String × Json R)} (h : MembersFit shape depth members) :
    membersHaveFiniteNumbers members = true := by
  match members with
  | [] => rfl
  | (k, v) :: rest =>
    exact Bool.and_eq_true_iff.mpr
      ⟨Fits.hasFiniteNumbers h.1, MembersFit.haveFiniteNumbers h.2⟩

end

/-! ### Reading words and starts -/

private theorem skipBlanks_cons {c : Char} {s : List Char} (h : isBlank c = false) :
    skipBlanks (c :: s) = c :: s := by
  simp [skipBlanks, h]

private theorem isBlank_of_isWordChar {c : Char} (h : isWordChar c = true) : isBlank c = false := by
  rw [Bool.eq_false_iff]
  intro hblank
  have hno : [' ', '\n', '\t', '\r'].any isWordChar = false := by decide
  refine List.any_eq_false.mp hno c ?_ h
  simpa [isBlank, or_assoc] using hblank

/-- No text of a value starts with a blank. -/
theorem skipBlanks_compactChars_append (v : Json R) (s : List Char) :
    skipBlanks (v.compactChars ++ s) = v.compactChars ++ s := by
  obtain ⟨c, t, hc, hopen⟩ := exists_compactChars_eq_cons v
  rw [hc, List.cons_append]
  refine skipBlanks_cons ?_
  cases hword : isWordChar c
  · rw [hword] at hopen
    cases v with
    | str x => obtain rfl := Option.some.inj hopen; rfl
    | arr items => obtain rfl := Option.some.inj hopen; rfl
    | obj members => obtain rfl := Option.some.inj hopen; rfl
    | _ => cases hopen
  · exact isBlank_of_isWordChar hword

/-- A text that starts like a number is read as a number. -/
theorem readValue_of_isNumberChar {fuel : Nat} {shape : Shape} {depth : Nat} {c : Char}
    {s : List Char} (hc : Numeral.IsNumberChar c) :
    readValue (R := R) (fuel + 1) shape depth (c :: s) = readNumberAs shape (c :: s) := by
  have hne : ∀ d ∈ ['n', 't', 'f', '"', '[', '\x7b'], c ≠ d := by
    rintro d hd rfl
    simp only [List.mem_cons, List.not_mem_nil, or_false] at hd
    obtain rfl | rfl | rfl | rfl | rfl | rfl := hd <;>
      simp [Numeral.IsNumberChar] at hc
  rw [readValue, skipBlanks_cons (isBlank_of_isWordChar (isWordChar_of_isNumberChar hc))]
  split
  · rename_i h
    exact absurd (List.cons.inj h).1 (hne _ (by simp))
  · rename_i h
    exact absurd (List.cons.inj h).1 (hne _ (by simp))
  · rename_i h
    exact absurd (List.cons.inj h).1 (hne _ (by simp))
  · rename_i h
    exact absurd (List.cons.inj h).1 (hne _ (by simp))
  · rename_i h
    exact absurd (List.cons.inj h).1 (hne _ (by simp))
  · rename_i h
    exact absurd (List.cons.inj h).1 (hne _ (by simp))
  · rfl

/-- A number is read back, and a name. -/
theorem readValue_leafChars [LegibleScalar R] {v : Json R} (hv : v.isWord = true) {shape : Shape}
    {depth : Nat} (hfits : v.Fits shape depth) (hshape : shape ≠ .skipped) {rest : List Char}
    (hrest : IsDelimited rest) (fuel : Nat) :
    readValue (fuel + 1) shape depth (v.leafChars ++ rest) =
      (v.mapReals? reread?).map (·, rest) := by
  cases v with
  | null => rfl
  | bool b => cases b <;> rfl
  | int i =>
    obtain ⟨c, s, hc⟩ := List.exists_cons_of_ne_nil (integerChars_ne_nil i)
    have hnumber : Numeral.IsNumberChar c := by
      obtain rfl | hdigit := mem_integerChars (hc ▸ List.mem_cons_self)
      · exact .inr (by simp)
      · exact .inl hdigit
    have hread := readNumberAs_integerChars (R := R) hfits hshape hrest
    rw [leafChars]
    rw [hc, List.cons_append] at hread ⊢
    rw [readValue_of_isNumberChar hnumber, hread]
    rfl
  | real x =>
    obtain ⟨hall, hmark⟩ := realChars_shape (x := x) hfits
    have hne : realChars x ≠ [] := hmark.elim List.ne_nil_of_mem List.ne_nil_of_mem
    obtain ⟨c, s, hc⟩ := List.exists_cons_of_ne_nil hne
    have hread := readNumberAs_realChars hfits hshape hrest
    have hnumber := hall c (hc ▸ List.mem_cons_self)
    rw [leafChars]
    rw [hc, List.cons_append] at hread ⊢
    rw [readValue_of_isNumberChar hnumber, hread, mapReals?, Option.map_map]
    rfl
  | _ => cases hv

/-! ### Reading strings -/

omit [Scalar R] in
/-- A string is read back unless it is skipped. -/
private theorem readStringAs_escapes {shape : Shape} (hshape : shape ≠ .skipped) {s : String}
    {rest : List Char} : readStringAs (R := R) shape (s.toList.flatMap escape ++ '"' :: rest) =
      some (str s, rest) := by
  cases shape with
  | skipped => exact absurd rfl hshape
  | _ => simp [readStringAs, readString_escapes]

private theorem readNameAs_escapes {shape : Shape} (hshape : shape ≠ .skipped) {s : String}
    {rest : List Char} : readNameAs shape (s.toList.flatMap escape ++ '"' :: rest) =
      some (s, rest) := by
  cases shape with
  | skipped => exact absurd rfl hshape
  | _ => simp [readNameAs, readString_escapes]

/-! ### Reading values -/

/-- What is read as an array that is not empty. -/
theorem readValue_bracket {fuel : Nat} {shape : Shape} {depth inner : Nat}
    (hinner : shape.depthInside? depth = some inner) {s : List Char}
    (hs : ∀ t, skipBlanks s ≠ ']' :: t) :
    readValue (R := R) (fuel + 1) shape depth ('[' :: s) =
      (readItems fuel shape inner s).map fun (items, rest) => (arr items, rest) := by
  rw [readValue, skipBlanks_cons rfl]
  simp only [hinner, Option.bind_some]

/-- What is read as an object that is not empty. -/
theorem readValue_brace {fuel : Nat} {shape : Shape} {depth inner : Nat}
    (hinner : shape.depthInside? depth = some inner) {s : List Char}
    (hs : ∀ t, skipBlanks s ≠ '}' :: t) :
    readValue (R := R) (fuel + 1) shape depth ('\x7b' :: s) =
      (readMembers fuel shape inner s).map fun (members, rest) => (obj members, rest) := by
  rw [readValue, skipBlanks_cons rfl]
  simp only [hinner, Option.bind_some]

mutual

/-- A value is read back, each scalar as its text is read, whatever follows it. -/
theorem readValue_compactChars [LegibleScalar R] (v : Json R) {shape : Shape} {depth : Nat}
    (hfits : v.Fits shape depth) (hkeeps : v.Keeps shape) {rest : List Char}
    (hrest : IsDelimited rest) {fuel : Nat} (hfuel : 2 * v.compactChars.length ≤ fuel) :
    readValue fuel shape depth (v.compactChars ++ rest) =
      (v.mapReals? reread?).map (·, rest) := by
  -- two steps of fuel for each character are enough, as every value has at least one
  obtain ⟨c, s, hc, -⟩ := exists_compactChars_eq_cons v
  obtain ⟨fuel, rfl⟩ : ∃ n, fuel = n + 1 := by
    rw [hc, List.length_cons] at hfuel
    exact Nat.exists_eq_add_one.mpr (by omega)
  have hshape := hkeeps.ne_skipped
  match v with
  | null | bool _ | int _ | real _ =>
    exact readValue_leafChars rfl hfits hshape hrest fuel
  | str x =>
    have htext : (str x : Json R).compactChars ++ rest =
        '"' :: (x.toList.flatMap escape ++ '"' :: rest) := by
      simp [compactChars, leafChars, quoted]
    rw [htext, readValue, skipBlanks_cons rfl]
    exact readStringAs_escapes hshape
  | arr [] =>
    obtain ⟨inner, hinner, -⟩ := hfits
    rw [compactChars, compactItems, readValue]
    simp [skipBlanks, isBlank, hinner, mapReals?, mapItems?]
  | arr (w :: later) =>
    obtain ⟨inner, hinner, hitems⟩ := hfits
    have htext : (arr (w :: later)).compactChars = '[' :: compactItems (w :: later) ++ [']'] := rfl
    have hlength : (arr (w :: later)).compactChars.length =
        (compactItems (w :: later)).length + 2 := by simp [htext]
    have hread : readItems fuel shape inner (compactItems (w :: later) ++ ']' :: rest) =
        (mapItems? reread? (w :: later)).map (·, rest) :=
      readItems_compactItems (w :: later) (by simp) hitems hkeeps.2 (by omega)
    have hstart : ∀ t, skipBlanks (compactItems (w :: later) ++ ']' :: rest) ≠ ']' :: t := by
      intro t
      rw [compactItems_cons, List.append_assoc, skipBlanks_compactChars_append]
      exact compactChars_append_ne
    rw [htext, List.append_assoc, List.cons_append, List.singleton_append,
      readValue_bracket hinner hstart, hread, mapReals?, Option.map_map, Option.map_map]
    rfl
  | obj [] =>
    obtain ⟨inner, hinner, -⟩ := hfits
    rw [compactChars, compactMembers, readValue]
    simp [skipBlanks, isBlank, hinner, mapReals?, mapMembers?]
  | obj (m :: later) =>
    obtain ⟨inner, hinner, hmembers⟩ := hfits
    have htext : (obj (m :: later)).compactChars =
        '\x7b' :: compactMembers (m :: later) ++ ['}'] := rfl
    have hlength : (obj (m :: later)).compactChars.length =
        (compactMembers (m :: later)).length + 2 := by simp [htext]
    have hread : readMembers fuel shape inner (compactMembers (m :: later) ++ '}' :: rest) =
        (mapMembers? reread? (m :: later)).map (·, rest) :=
      readMembers_compactMembers (m :: later) (by simp) hshape hmembers hkeeps.2 (by omega)
    have hstart : ∀ t, skipBlanks (compactMembers (m :: later) ++ '}' :: rest) ≠ '}' :: t := by
      intro t
      rw [compactMembers_cons, quoted, List.cons_append, List.cons_append, List.cons_append,
        skipBlanks_cons rfl]
      exact fun h => nomatch (List.cons.inj h).1
    rw [htext, List.append_assoc, List.cons_append, List.singleton_append,
      readValue_brace hinner hstart, hread, mapReals?, Option.map_map, Option.map_map]
    rfl

/-- Items that are not none are read back. -/
theorem readItems_compactItems [LegibleScalar R] (items : List (Json R)) (hne : items ≠ [])
    {shape : Shape} {depth : Nat} (hfits : ItemsFit shape depth items)
    (hkeeps : ItemsKept shape items) {rest : List Char} {fuel : Nat}
    (hfuel : 2 * (compactItems items).length < fuel) :
    readItems fuel shape depth (compactItems items ++ ']' :: rest) =
      (mapItems? reread? items).map (·, rest) := by
  obtain ⟨fuel, rfl⟩ : ∃ n, fuel = n + 1 := Nat.exists_eq_add_one.mpr (by omega)
  match items with
  | [] => exact absurd rfl hne
  | v :: later =>
    rw [compactItems_cons, List.length_append] at hfuel
    have hread : readValue fuel shape.head depth
        (v.compactChars ++ (laterItems later ++ ']' :: rest)) =
          (v.mapReals? reread?).map (·, laterItems later ++ ']' :: rest) :=
      readValue_compactChars v hfits.1 hkeeps.1 (isDelimited_laterItems later) (by omega)
    rw [compactItems_cons, List.append_assoc, readItems, hread, mapItems?]
    cases v.mapReals? reread? with
    | none => rfl
    | some v' =>
      match later with
      | [] => simp [laterItems, mapItems?, skipBlanks, isBlank]
      | w :: later =>
        -- The comma takes one of the steps that the later items leave over.
        have hbehind : laterItems (w :: later) = ',' :: compactItems (w :: later) := rfl
        rw [hbehind, List.length_cons] at hfuel
        have hlater : readItems fuel shape.tail depth (compactItems (w :: later) ++ ']' :: rest) =
            (mapItems? reread? (w :: later)).map (·, rest) :=
          readItems_compactItems (w :: later) (by simp) hfits.2 hkeeps.2 (by omega)
        simp only [hbehind, List.cons_append, Option.map_some, skipBlanks_cons (c := ',') rfl,
          hlater, Option.bind_some, Option.map_map]
        rfl

/-- Members that are not none are read back. -/
theorem readMembers_compactMembers [LegibleScalar R] (members : List (String × Json R))
    (hne : members ≠ []) {shape : Shape} {depth : Nat} (hshape : shape ≠ .skipped)
    (hfits : MembersFit shape depth members) (hkeeps : MembersKept shape members)
    {rest : List Char} {fuel : Nat} (hfuel : 2 * (compactMembers members).length < fuel) :
    readMembers fuel shape depth (compactMembers members ++ '}' :: rest) =
      (mapMembers? reread? members).map (·, rest) := by
  obtain ⟨fuel, rfl⟩ : ∃ n, fuel = n + 1 := Nat.exists_eq_add_one.mpr (by omega)
  match members with
  | [] => exact absurd rfl hne
  | (k, v) :: later =>
    rw [compactMembers_cons, List.length_append, List.length_cons, List.length_append] at hfuel
    have hname : readNameAs shape (k.toList.flatMap escape ++
        '"' :: ':' :: (v.compactChars ++ (laterMembers later ++ '}' :: rest))) =
          some (k, ':' :: (v.compactChars ++ (laterMembers later ++ '}' :: rest))) :=
      readNameAs_escapes hshape
    have hread : readValue fuel (shape.member k) depth
        (v.compactChars ++ (laterMembers later ++ '}' :: rest)) =
          (v.mapReals? reread?).map (·, laterMembers later ++ '}' :: rest) :=
      readValue_compactChars v hfits.1 hkeeps.1 (isDelimited_laterMembers later) (by omega)
    have htext : compactMembers ((k, v) :: later) ++ '}' :: rest =
        '"' :: (k.toList.flatMap escape ++
          '"' :: ':' :: (v.compactChars ++ (laterMembers later ++ '}' :: rest))) := by
      rw [compactMembers_cons]
      simp [quoted]
    rw [htext, readMembers, skipBlanks_cons rfl]
    simp only [hname, skipBlanks_cons (c := ':') rfl, hread, mapMembers?]
    cases v.mapReals? reread? with
    | none => rfl
    | some v' =>
      -- Behind the first member stands either the closing brace or a comma and the same again.
      match later with
      | [] => simp [laterMembers, mapMembers?, skipBlanks, isBlank]
      | m :: later =>
        have hbehind : laterMembers (m :: later) = ',' :: compactMembers (m :: later) := rfl
        rw [hbehind, List.length_cons] at hfuel
        have hlater : readMembers fuel shape depth
            (compactMembers (m :: later) ++ '}' :: rest) =
              (mapMembers? reread? (m :: later)).map (·, rest) :=
          readMembers_compactMembers (m :: later) (by simp) hshape hfits.2 hkeeps.2 (by omega)
        simp only [hbehind, List.cons_append, Option.map_some, skipBlanks_cons (c := ',') rfl,
          hlater, Option.bind_some, Option.map_map]
        rfl

end

/-- A value is read from its text as it is, but for its scalars, which are read as their own texts
are. -/
theorem parse?_compact [LegibleScalar R] {v : Json R} {shape : Shape}
    (hfits : v.Fits shape maxDepth) (hkeeps : v.Keeps shape) :
    parse? shape v.compact = v.mapReals? reread? := by
  have hread := readValue_compactChars v hfits hkeeps isDelimited_nil
    (by omega : 2 * v.compactChars.length ≤ 2 * v.compactChars.length + 2)
  rw [List.append_nil] at hread
  rw [parse?, compact, String.toList_ofList, parseChars?, hread]
  cases v.mapReals? reread? <;> rfl

end Json

end TransitQuery
