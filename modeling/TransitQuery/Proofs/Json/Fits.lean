import TransitQuery.Json.Record
import TransitQuery.Proofs.Json.NumberText

/-!
# What a text can hold

Not every JSON value can be read from a text: its integers have 64 bits, its scalars are finite,
and its containers nest only so deep, where the depth counts only in what the shape of the record
keeps. `Json.Fits` says so of a value, a shape and a depth. Whatever is read from a text fits the
shape it is read in (`Json.fits_of_parse?`), and so does the value of each field of a record
(`Json.Fits.of_fields?`).

The readers of values, items and members call each other, each with less fuel, so `Json.ReadersFit`
states the result for all three and is proved by induction on the fuel (`Json.readersFit`).

`Json.Fits.of_any` compares shapes. What is kept whole counts at every level, and a shape that
skips some parts counts less, so a value that fits where all is kept fits everywhere. This is how a
value that was built, rather than read, is shown to fit: `Json.IsRecord.fits` counts the levels of
it.
-/

namespace TransitQuery

namespace Json

variable {R : Type} [Scalar R]

mutual

/-- Whether a value of some shape can be read inside containers that leave room for some levels. -/
def Fits (shape : Shape) (depth : Nat) : Json R → Prop
  | int i => IsWord64 i
  | real x => Scalar.isFinite x = true
  | arr items => ∃ inner, shape.depthInside? depth = some inner ∧ ItemsFit shape inner items
  | obj members => ∃ inner, shape.depthInside? depth = some inner ∧ MembersFit shape inner members
  | _ => True

/-- Whether the items of an array of some shape can be. -/
def ItemsFit (shape : Shape) (depth : Nat) : List (Json R) → Prop
  | [] => True
  | v :: rest => v.Fits shape.head depth ∧ ItemsFit shape.tail depth rest

/-- Whether the members of an object of some shape can be. -/
def MembersFit (shape : Shape) (depth : Nat) : List (String × Json R) → Prop
  | [] => True
  | (k, v) :: rest => v.Fits (shape.member k) depth ∧ MembersFit shape depth rest

end

/-- Members fit if each value fits the shape of its name. -/
theorem membersFit_iff {shape : Shape} {depth : Nat} {members : List (String × Json R)} :
    MembersFit shape depth members ↔ ∀ m ∈ members, m.2.Fits (shape.member m.1) depth := by
  induction members with
  | nil => simp [MembersFit]
  | cons m rest ih =>
    obtain ⟨k, v⟩ := m
    rw [MembersFit, ih, List.forall_mem_cons]

/-! ### Reading -/

/-- A number that is read is an integer of 64 bits or a finite scalar. -/
private theorem fits_of_readNumberAs [SteadyScalar R] {shape : Shape} {depth : Nat}
    {s rest : List Char}
    {v : Json R} (h : readNumberAs shape s = some (v, rest)) : v.Fits shape depth := by
  obtain ⟨⟨t, rest'⟩, -, ht⟩ := Option.bind_eq_some_iff.mp h
  cases shape with
  | skipped =>
    obtain rfl : null = v := (Prod.mk.inj (Option.some.inj ht)).1
    trivial
  | _ =>
    obtain ⟨w, hw, heq⟩ := Option.map_eq_some_iff.mp ht
    obtain rfl : w = v := (Prod.mk.inj heq).1
    obtain ⟨i, hi, rfl⟩ | ⟨x, hx, rfl⟩ := NumberText.value?_cases hw
    · exact hi
    · exact hx

private theorem fits_of_readStringAs {shape : Shape} {depth : Nat} {s rest : List Char} {v : Json R}
    (h : readStringAs shape s = some (v, rest)) : v.Fits shape depth := by
  cases shape with
  | skipped =>
    obtain ⟨_, -, heq⟩ := Option.map_eq_some_iff.mp h
    obtain rfl : null = v := (Prod.mk.inj heq).1
    trivial
  | _ =>
    obtain ⟨⟨cs, rest'⟩, -, heq⟩ := Option.map_eq_some_iff.mp h
    obtain rfl : str (String.ofList cs) = v := (Prod.mk.inj heq).1
    trivial

/-- What the readers of values, items and members read with some fuel fits. They call each other
with less fuel, so this is shown of all three at once. -/
structure ReadersFit (R : Type) [Scalar R] (fuel : Nat) : Prop where
  value : ∀ {shape : Shape} {depth : Nat} {s rest : List Char} {v : Json R},
    readValue fuel shape depth s = some (v, rest) → v.Fits shape depth
  items : ∀ {shape : Shape} {depth : Nat} {s rest : List Char} {items : List (Json R)},
    readItems fuel shape depth s = some (items, rest) → ItemsFit shape depth items
  members : ∀ {shape : Shape} {depth : Nat} {s rest : List Char} {members : List (String × Json R)},
    readMembers fuel shape depth s = some (members, rest) → MembersFit shape depth members

namespace ReadersFit

variable {fuel : Nat} {shape : Shape} {depth : Nat} {s rest : List Char}

theorem zero : ReadersFit R 0 where
  value h := by rw [readValue] at h; cases h
  items h := by rw [readItems] at h; cases h
  members h := by rw [readMembers] at h; cases h

/-- What a value is read as fits if its items and members do. -/
private theorem fits_of_readValue [SteadyScalar R] (ih : ReadersFit R fuel) {v : Json R}
    (h : readValue (fuel + 1) shape depth s = some (v, rest)) : v.Fits shape depth := by
  rw [readValue] at h
  split at h
  · cases h; trivial
  · cases h; trivial
  · cases h; trivial
  · exact fits_of_readStringAs h
  · obtain ⟨inner, hinner, h⟩ := Option.bind_eq_some_iff.mp h
    split at h
    · cases h
      exact ⟨inner, hinner, trivial⟩
    · obtain ⟨⟨items, behind⟩, hitems, heq⟩ := Option.map_eq_some_iff.mp h
      cases heq
      exact ⟨inner, hinner, ih.items hitems⟩
  · obtain ⟨inner, hinner, h⟩ := Option.bind_eq_some_iff.mp h
    split at h
    · cases h
      exact ⟨inner, hinner, trivial⟩
    · obtain ⟨⟨members, behind⟩, hmembers, heq⟩ := Option.map_eq_some_iff.mp h
      cases heq
      exact ⟨inner, hinner, ih.members hmembers⟩
  · exact fits_of_readNumberAs h

/-- Items fit if the first and the rest of them do. -/
private theorem itemsFit_of_readItems (ih : ReadersFit R fuel) {items : List (Json R)}
    (h : readItems (fuel + 1) shape depth s = some (items, rest)) : ItemsFit shape depth items := by
  rw [readItems] at h
  split at h
  · cases h
  rename_i v behind hv
  split at h
  · obtain ⟨⟨later, _⟩, hlater, heq⟩ := Option.map_eq_some_iff.mp h
    cases heq
    exact ⟨ih.value hv, ih.items hlater⟩
  · cases h
    exact ⟨ih.value hv, trivial⟩
  · cases h

private theorem membersFit_of_readMembers (ih : ReadersFit R fuel)
    {members : List (String × Json R)}
    (h : readMembers (fuel + 1) shape depth s = some (members, rest)) :
    MembersFit shape depth members := by
  rw [readMembers] at h
  -- a name, a colon and a value must have been read, in this order
  split at h
  swap
  · cases h
  split at h
  · cases h
  rename_i name behindName hname
  split at h
  swap
  · cases h
  split at h
  · cases h
  rename_i v behind hv
  split at h
  · obtain ⟨⟨later, _⟩, hlater, heq⟩ := Option.map_eq_some_iff.mp h
    cases heq
    exact ⟨ih.value hv, ih.members hlater⟩
  · cases h
    exact ⟨ih.value hv, trivial⟩
  · cases h

end ReadersFit

private theorem readersFit [SteadyScalar R] (fuel : Nat) : ReadersFit R fuel := by
  induction fuel with
  | zero => exact .zero
  | succ fuel ih =>
    exact ⟨ih.fits_of_readValue, ih.itemsFit_of_readItems, ih.membersFit_of_readMembers⟩

/-- What is read from a text fits. -/
theorem fits_of_parse? [SteadyScalar R] {shape : Shape} {text : String} {v : Json R}
    (h : parse? shape text = some v) : v.Fits shape maxDepth := by
  unfold parse? parseChars? at h
  split at h
  · rename_i w rest hread
    obtain ⟨-, heq⟩ := Option.ite_none_right_eq_some.mp h
    obtain rfl := Option.some.inj heq
    exact (readersFit _).value hread
  · cases h

/-! ### Values that are kept whole -/

/-- Wherever a value that is kept whole may stand, any other shape leaves as much room. -/
theorem Shape.exists_depthInside? {shape : Shape} {depth depth' inner : Nat}
    (h : Shape.any.depthInside? depth = some inner) (hle : depth ≤ depth') :
    ∃ inner', shape.depthInside? depth' = some inner' ∧ inner ≤ inner' := by
  obtain ⟨room, rfl⟩ : ∃ n, depth' = n + 1 := by
    cases depth' with
    | zero =>
      obtain rfl := Nat.le_zero.mp hle
      cases h
    | succ n => exact ⟨n, rfl⟩
  have hinner : inner ≤ room := by
    cases depth with
    | zero => cases h
    | succ n =>
      obtain rfl : n = inner := Option.some.inj h
      omega
  cases shape with
  | skipped => exact ⟨room + 1, rfl, by omega⟩
  | _ => exact ⟨room, rfl, hinner⟩

mutual

/-- A value that can be kept whole fits every shape. -/
theorem Fits.of_any {depth depth' : Nat} {v : Json R} (h : v.Fits .any depth)
    (hle : depth ≤ depth') (shape : Shape) : v.Fits shape depth' := by
  match v with
  | int i => exact h
  | real x => exact h
  | arr items =>
    obtain ⟨inner, hinner, hitems⟩ := h
    obtain ⟨inner', hinner', hle'⟩ := Shape.exists_depthInside? hinner hle
    exact ⟨inner', hinner', ItemsFit.of_any hitems hle' shape⟩
  | obj members =>
    obtain ⟨inner, hinner, hmembers⟩ := h
    obtain ⟨inner', hinner', hle'⟩ := Shape.exists_depthInside? hinner hle
    exact ⟨inner', hinner', MembersFit.of_any hmembers hle' shape⟩
  | null | bool _ | str _ => trivial

theorem ItemsFit.of_any {depth depth' : Nat} {items : List (Json R)}
    (h : ItemsFit .any depth items) (hle : depth ≤ depth') (shape : Shape) :
    ItemsFit shape depth' items := by
  match items with
  | [] => trivial
  | v :: rest => exact ⟨Fits.of_any h.1 hle shape.head, ItemsFit.of_any h.2 hle shape.tail⟩

theorem MembersFit.of_any {depth depth' : Nat} {members : List (String × Json R)}
    (h : MembersFit .any depth members) (hle : depth ≤ depth') (shape : Shape) :
    MembersFit shape depth' members := by
  match members with
  | [] => trivial
  | (k, v) :: rest =>
    exact ⟨Fits.of_any h.1 hle (shape.member k), MembersFit.of_any h.2 hle shape⟩

end

/-! ### Fields -/

/-- The value of a member fits the shape of the member. -/
theorem fits_of_uniqueMember? {shape : Shape} {depth : Nat} {members : List (String × Json R)}
    (hfits : MembersFit shape depth members) {name : String} {v : Json R}
    (h : uniqueMember? name members = some (some v)) : v.Fits (shape.member name) depth := by
  unfold uniqueMember? at h
  split at h
  · cases h
  · rename_i k w hfilter
    obtain rfl : w = v := Option.some.inj (Option.some.inj h)
    have hmem : (k, w) ∈ members.filter (fun m => m.1 = name) := by simp [hfilter]
    obtain ⟨hmem, hname⟩ := List.mem_filter.mp hmem
    have hfitsMember := membersFit_iff.mp hfits _ hmem
    rw [of_decide_eq_true hname] at hfitsMember
    exact hfitsMember
  · cases h

/-- The value of a field, where there is one, fits the shape of the field. -/
def FieldFits (depth : Nat) (field : String × Shape) (v : Option (Json R)) : Prop :=
  ∀ w, v = some w → w.Fits field.2 depth

theorem fieldsFit_of_uniqueMembers? {shape : Shape} {depth : Nat}
    {members : List (String × Json R)} (hfits : MembersFit shape depth members)
    {fields : List (String × Shape)} (hfields : ∀ field ∈ fields, shape.member field.1 = field.2)
    {vs : List (Option (Json R))} (h : uniqueMembers? members (fields.map (·.1)) = some vs) :
    List.Forall₂ (FieldFits depth) fields vs := by
  induction fields generalizing vs with
  | nil =>
    obtain rfl := Option.some.inj h
    exact .nil
  | cons field fields ih =>
    simp only [List.map_cons, uniqueMembers?, Option.bind_eq_bind, Option.bind_eq_some_iff] at h
    obtain ⟨v, hv, rest, hrest, heq⟩ := h
    obtain rfl := Option.some.inj heq
    obtain ⟨hfield, hfields⟩ := List.forall_mem_cons.mp hfields
    refine .cons (fun w hw => ?_) (ih hfields hrest)
    rw [← hfield]
    exact fits_of_uniqueMember? hfits (hw ▸ hv)

private theorem fieldsFit_of_positionalFields? {depth : Nat} {items : List (Json R)}
    {fields : List (String × Shape)} (hfits : ItemsFit (.record fields) depth items)
    {vs : List (Option (Json R))} (h : positionalFields? (fields.map (·.1)) items = some vs) :
    List.Forall₂ (FieldFits depth) fields vs := by
  induction fields generalizing items vs with
  | nil =>
    cases items with
    | nil =>
      obtain rfl := Option.some.inj h
      exact .nil
    | cons v rest => cases h
  | cons field fields ih =>
    cases items with
    | nil =>
      obtain ⟨rest, hrest, rfl⟩ := Option.map_eq_some_iff.mp h
      have hnone : ItemsFit (.record fields) depth ([] : List (Json R)) := trivial
      exact .cons (fun w hw => nomatch hw) (ih hnone hrest)
    | cons v items =>
      obtain ⟨rest, hrest, rfl⟩ := Option.map_eq_some_iff.mp h
      refine .cons (fun w hw => ?_) (ih hfits.2 hrest)
      obtain rfl := Option.some.inj hw
      exact hfits.1

/-- A record whose fields have different names keeps each of them in its own shape. -/
theorem Shape.member_record {fields : List (String × Shape)}
    (hnodup : (fields.map (·.1)).Nodup) :
    ∀ field ∈ fields, (record fields).member field.1 = field.2 := by
  intro field hfield
  have hlookup : fields.lookup field.1 = some field.2 := by
    induction fields with
    | nil => cases hfield
    | cons other fields ih =>
      rw [List.map_cons, List.nodup_cons] at hnodup
      obtain rfl | hfield := List.mem_cons.mp hfield
      · exact List.lookup_cons_self
      · have hne : field.1 ≠ other.1 := by
          intro heq
          exact hnodup.1 (heq ▸ List.mem_map_of_mem hfield)
        rw [List.lookup_cons, beq_false_of_ne hne]
        exact ih hnodup.2 hfield
  rw [member, hlookup, Option.getD_some]

/-- The fields of a record that fits fit, each in its own shape, with one level less of room. -/
theorem Fits.of_fields? {fields : List (String × Shape)} {depth : Nat} {v : Json R}
    (hfits : v.Fits (.record fields) (depth + 1)) (hnodup : (fields.map (·.1)).Nodup)
    {vs : List (Option (Json R))} (h : v.fields? (fields.map (·.1)) = some vs) :
    List.Forall₂ (FieldFits depth) fields vs := by
  cases v with
  | obj members =>
    obtain ⟨inner, hinner, hmembers⟩ := hfits
    obtain rfl : depth = inner := Option.some.inj hinner
    exact fieldsFit_of_uniqueMembers? hmembers (Shape.member_record hnodup) h
  | arr items =>
    obtain ⟨inner, hinner, hitems⟩ := hfits
    obtain rfl : depth = inner := Option.some.inj hinner
    exact fieldsFit_of_positionalFields? hitems h
  | _ => cases h

end Json

end TransitQuery
