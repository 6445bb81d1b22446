import TransitQuery.Proofs.Json.ReadBack

/-!
# Fields of records

What holds of a record comes from what holds of its fields. Here are the ways in which a field may
be read (required, with a default, left out or `null` where it is missing, a list) and written. On
the way in, `Json.Reads` carries a condition from the JSON value of a field to what is read; on the
way out, `Json.IsRecord.fields?_eq` finds every field of a record that was written, also where
others are left out.

There is one lemma for each way, in each of the four sections, and the record types of the project
have no others:

* reading, `Json.Reads`: what is read from a value that fits satisfies the condition;
* reading back, `Json.IsRecord.fields?_eq`, `Json.optional_map` and `Json.optional_ofOption`: what
  was written comes out;
* fitting, `Json.IsRecord.fits` and `Json.IsRecord.keeps`: what is written is not too deep, and the
  shape of the record skips no field of it;
* replacing, `Json.IsRecord.mapReals?_eq`: to replace the scalars in a record is to replace them
  field by field.

A record is written as a list of named fields, of which `Json.present` leaves those out that have
no value. The names have to be different, because a name that stands twice is refused.
-/

namespace TransitQuery

variable {R α : Type} [Scalar R]

namespace Json

/-! ### What readers read -/

/-- Whether a condition holds of all that a reader makes of values that fit. -/
def Reads (read : Json R → Option α) (shape : Shape) (depth : Nat) (Holds : α → Prop) : Prop :=
  ∀ v a, v.Fits shape depth → read v = some a → Holds a

section Reads

variable {read : Json R → Option α} {shape : Shape} {depth : Nat} {Holds : α → Prop}

/-- An integer of 64 bits is below the bound, whatever its sign. -/
private theorem natAbs_lt_of_isWord64 {i : Int} (h : IsWord64 i) : i.natAbs < UInt64.size := by
  have hmin : Int64.minValue.toInt = -2 ^ 63 := by decide
  have hmax : (UInt64.size : Int) = 2 ^ 64 := by decide
  obtain ⟨hlow, hhigh⟩ := h
  omega

/-- A number that is read is finite. -/
theorem reads_number? [SteadyScalar R] (shape : Shape) (depth : Nat) :
    Reads number? shape depth fun x : R => Scalar.isFinite x = true := by
  intro v x hfits h
  cases v with
  | int i =>
    obtain rfl := Option.some.inj h
    exact SteadyScalar.isFinite_ofInt (natAbs_lt_of_isWord64 hfits)
  | real y =>
    obtain rfl := Option.some.inj h
    exact hfits
  | _ => cases h

omit [Scalar R] in
/-- Whatever a list is taken to comes from a member of it. -/
theorem exists_of_mapM_eq_some {β : Type} {g : α → Option β} {as : List α} {bs : List β}
    (h : as.mapM g = some bs) : ∀ b ∈ bs, ∃ a ∈ as, g a = some b := by
  induction as generalizing bs with
  | nil =>
    obtain rfl := Option.some.inj h
    simp
  | cons a rest ih =>
    rw [List.mapM_cons] at h
    obtain ⟨b, hb, h⟩ := Option.bind_eq_some_iff.mp h
    obtain ⟨later, hlater, heq⟩ := Option.bind_eq_some_iff.mp h
    obtain rfl := Option.some.inj heq
    refine List.forall_mem_cons.mpr ⟨⟨a, List.mem_cons_self, hb⟩, fun b hb => ?_⟩
    obtain ⟨a, ha, hab⟩ := ih hlater b hb
    exact ⟨a, List.mem_cons_of_mem _ ha, hab⟩

/-- The items of an array that have one shape fit it. -/
theorem ItemsFit.forall_fits {items : List (Json R)} (h : ItemsFit shape depth items)
    (htail : shape.tail = shape) : ∀ v ∈ items, v.Fits shape.head depth := by
  induction items with
  | nil => simp
  | cons v rest ih =>
    rw [ItemsFit, htail] at h
    exact List.forall_mem_cons.mpr ⟨h.1, ih h.2⟩

/-- A list satisfies the condition item by item. -/
theorem Reads.listOf? (hread : Reads read shape.head depth Holds) (htail : shape.tail = shape)
    (hinside : shape.depthInside? (depth + 1) = some depth) :
    Reads (listOf? read) shape (depth + 1) fun as => ∀ a ∈ as, Holds a := by
  intro v as hfits h
  cases v with
  | arr items =>
    obtain ⟨inner, hinner, hitems⟩ := hfits
    obtain rfl : depth = inner := Option.some.inj (hinside.symm.trans hinner)
    intro a ha
    obtain ⟨w, hw, hwa⟩ := exists_of_mapM_eq_some h a ha
    exact hread w a (hitems.forall_fits htail w hw) hwa
  | _ => cases h

variable {name : String} {v : Option (Json R)}

/-- A field that has to be there. -/
theorem Reads.required (hread : Reads read shape depth Holds)
    (hfits : FieldFits depth (name, shape) v) {a : α} (h : required read v = some a) :
    Holds a := by
  cases v with
  | none => cases h
  | some w => exact hread w a (hfits w rfl) h

/-- A field with a default, which has to satisfy the condition, too. -/
theorem Reads.orElse (hread : Reads read shape depth Holds)
    (hfits : FieldFits depth (name, shape) v) {fallback : α} (hfallback : Holds fallback) {a : α}
    (h : orElse fallback read v = some a) : Holds a := by
  cases v with
  | none =>
    obtain rfl := Option.some.inj h
    exact hfallback
  | some w => exact hread w a (hfits w rfl) h

omit [Scalar R] in
/-- A value other than `null` is read as it stands. -/
private theorem optional_some_of_ne_null {w : Json R} (hw : w ≠ null) :
    optional read (some w) = (read w).map some := by
  cases w with
  | null => exact absurd rfl hw
  | _ => rfl

/-- A field that may be left out or `null`. -/
theorem Reads.optional (hread : Reads read shape depth Holds)
    (hfits : FieldFits depth (name, shape) v) {o : Option α} (h : optional read v = some o) :
    ∀ a ∈ o, Holds a := by
  rintro a rfl
  cases v with
  | none => cases h
  | some w =>
    by_cases hw : w = null
    · subst hw
      cases h
    · rw [optional_some_of_ne_null hw] at h
      obtain ⟨b, hb, heq⟩ := Option.map_eq_some_iff.mp h
      obtain rfl := Option.some.inj heq
      exact hread w b (hfits w rfl) hb

omit [Scalar R] in
/-- A field that may be missing is read only if it is not `null`. -/
theorem optional_nonNull? : optional (fun v => v.nonNull?.bind read) v = optional read v := by
  cases v with
  | none => rfl
  | some w => cases w <;> rfl

end Reads

/-! ### What writers write -/

/-- The members that are there, of fields that may be left out. -/
def present (fields : List (String × Option (Json R))) : List (String × Json R) :=
  fields.filterMap fun (name, v) => v.map (name, ·)

omit [Scalar R] in
private theorem present_cons_none {name : String} {fields : List (String × Option (Json R))} :
    present ((name, none) :: fields) = present fields := rfl

omit [Scalar R] in
private theorem present_cons_some {name : String} {w : Json R}
    {fields : List (String × Option (Json R))} :
    present ((name, some w) :: fields) = (name, w) :: present fields := rfl

omit [Scalar R] in
/-- The names that are there are some of the names, in their order. -/
private theorem map_fst_present_sublist (fields : List (String × Option (Json R))) :
    ((present fields).map (·.1)).Sublist (fields.map (·.1)) := by
  induction fields with
  | nil => exact .slnil
  | cons field fields ih =>
    obtain ⟨name, v⟩ := field
    cases v with
    | none => exact ih.cons name
    | some w => exact ih.cons_cons name

omit [Scalar R] in
private theorem filter_present_of_notMem {fields : List (String × Option (Json R))} {name : String}
    (h : name ∉ fields.map (·.1)) : (present fields).filter (fun m => m.1 = name) = [] := by
  refine List.filter_eq_nil_iff.mpr fun m hm => ?_
  have hmem := (map_fst_present_sublist fields).subset (List.mem_map_of_mem hm)
  rw [decide_eq_true_eq]
  rintro rfl
  exact h hmem

omit [Scalar R] in
/-- A record has no member of another name. -/
theorem uniqueMember?_present_of_notMem {fields : List (String × Option (Json R))} {name : String}
    (h : name ∉ fields.map (·.1)) : uniqueMember? name (present fields) = some none := by
  rw [uniqueMember?, filter_present_of_notMem h]

omit [Scalar R] in
/-- The member of a record with a name is the value of the field, if there is one. -/
theorem uniqueMember?_present {fields : List (String × Option (Json R))}
    (hnodup : (fields.map (·.1)).Nodup) {name : String} {v : Option (Json R)}
    (hmem : (name, v) ∈ fields) : uniqueMember? name (present fields) = some v := by
  induction fields with
  | nil => cases hmem
  | cons field fields ih =>
    obtain ⟨name', v'⟩ := field
    rw [List.map_cons, List.nodup_cons] at hnodup
    obtain heq | hmem := List.mem_cons.mp hmem
    · cases heq
      have hnone := filter_present_of_notMem hnodup.1
      cases v with
      | none => rw [present_cons_none, uniqueMember?, hnone]
      | some w => rw [present_cons_some, uniqueMember?, List.filter_cons_of_pos (by simp), hnone]
    · have hne : name' ≠ name := by
        rintro rfl
        exact hnodup.1 (List.mem_map.mpr ⟨_, hmem, rfl⟩)
      rw [← ih hnodup.2 hmem]
      cases v' with
      | none => rw [present_cons_none]
      | some w =>
        rw [present_cons_some, uniqueMember?, uniqueMember?, List.filter_cons_of_neg (by simpa)]

omit [Scalar R] in
/-- Each of several fields of a record is found, also where others are left out. -/
theorem uniqueMembers?_present {fields part : List (String × Option (Json R))}
    (hnodup : (fields.map (·.1)).Nodup) (hpart : part ⊆ fields) :
    uniqueMembers? (present fields) (part.map (·.1)) = some (part.map (·.2)) := by
  induction part with
  | nil => rfl
  | cons field part ih =>
    obtain ⟨hfield, hpart⟩ := List.cons_subset.mp hpart
    simp only [List.map_cons, uniqueMembers?, uniqueMember?_present hnodup hfield, ih hpart]
    rfl

/-- An object whose members are the fields of a record that are there. -/
def IsRecord (v : Json R) (fields : List (String × Option (Json R))) : Prop :=
  v = obj (present fields)

omit [Scalar R] in
/-- **Reading back a record**: its fields are found under their names, in their order. -/
theorem IsRecord.fields?_eq {v : Json R} {fields : List (String × Option (Json R))}
    (hv : v.IsRecord fields) {names : List String} (hnames : fields.map (·.1) = names)
    (hnodup : names.Nodup) : v.fields? names = some (fields.map (·.2)) := by
  subst hnames hv
  exact uniqueMembers?_present hnodup (List.Subset.refl _)

section Optional

variable {read : Json R → Option α} {write : α → Json R} {o : Option α}

omit [Scalar R] in
private theorem ne_null_of_read (hnull : read null = none) {v : Json R} {a : α}
    (h : read v = some a) :
    v ≠ null := by
  rintro rfl
  cases hnull.symm.trans h

omit [Scalar R] in
/-- A field that is left out where there is no value is read back. -/
theorem optional_map (hnull : read null = none) (hread : ∀ a ∈ o, read (write a) = some a) :
    optional read (o.map write) = some o := by
  cases o with
  | none => rfl
  | some a =>
    have ha := hread a rfl
    rw [Option.map_some, optional_some_of_ne_null (ne_null_of_read hnull ha), ha, Option.map_some]

omit [Scalar R] in
/-- A field that is `null` where there is no value is read back. -/
theorem optional_ofOption (hnull : read null = none) (hread : ∀ a ∈ o, read (write a) = some a) :
    optional read (some (ofOption write o)) = some o := by
  cases o with
  | none => rfl
  | some a =>
    have ha := hread a rfl
    rw [ofOption, optional_some_of_ne_null (ne_null_of_read hnull ha), ha, Option.map_some]

omit [Scalar R] in
@[simp]
theorem optional_string?_map (o : Option String) :
    optional string? (o.map (str : String → Json R)) = some o :=
  optional_map rfl fun _ _ => rfl

omit [Scalar R] in
@[simp]
theorem optional_string?_ofOption (o : Option String) :
    optional string? (some (ofOption (str : String → Json R) o)) = some o :=
  optional_ofOption rfl fun _ _ => rfl

omit [Scalar R] in
/-- A list is read back if its items are. -/
theorem listOf?_map {as : List α} (hread : ∀ a ∈ as, read (write a) = some a) :
    listOf? read (arr (as.map write)) = some as := by
  rw [listOf?, List.mapM_map]
  induction as with
  | nil => rfl
  | cons a rest ih =>
    obtain ⟨ha, hrest⟩ := List.forall_mem_cons.mp hread
    rw [List.mapM_cons, ih hrest, Function.comp_apply, ha]
    rfl

omit [Scalar R] in
@[simp]
theorem listOf?_string?_map (ss : List String) :
    listOf? string? (arr (ss.map (str : String → Json R))) = some ss :=
  listOf?_map fun _ _ => rfl

end Optional

/-- A finite scalar is read back from the value it is written as. -/
theorem number?_ofScalar {x : R} (hx : Scalar.isFinite x = true) :
    (ofScalar x).number? = some x := by
  rw [ofScalar, if_pos hx, number?]

/-! ### What is written can be read -/

@[simp]
theorem fits_str (s : String) (shape : Shape) (depth : Nat) : (str s : Json R).Fits shape depth :=
  trivial

@[simp]
theorem fits_bool (b : Bool) (shape : Shape) (depth : Nat) : (bool b : Json R).Fits shape depth :=
  trivial

@[simp]
theorem fits_ofScalar (x : R) (shape : Shape) (depth : Nat) : (ofScalar x).Fits shape depth := by
  unfold ofScalar
  split
  · assumption
  · trivial

/-- A value that may be `null` fits if it does where it is there. -/
theorem fits_ofOption {write : α → Json R} {o : Option α} {shape : Shape} {depth : Nat}
    (h : ∀ a ∈ o, (write a).Fits shape depth) : (ofOption write o).Fits shape depth := by
  cases o with
  | none => trivial
  | some a => exact h a rfl

@[simp]
theorem fits_ofOption_str (o : Option String) (shape : Shape) (depth : Nat) :
    (ofOption (str : String → Json R) o).Fits shape depth :=
  fits_ofOption fun _ _ => trivial

/-- An array fits if its items do. -/
theorem fits_arr {items : List (Json R)} {depth : Nat} (h : ∀ v ∈ items, v.Fits .any depth) :
    (arr items).Fits .any (depth + 1) := by
  refine ⟨depth, rfl, ?_⟩
  induction items with
  | nil => trivial
  | cons v rest ih =>
    obtain ⟨hv, hrest⟩ := List.forall_mem_cons.mp h
    exact ⟨hv, ih hrest⟩

/-- An object fits if the values of its members do. -/
theorem fits_obj {members : List (String × Json R)} {depth : Nat}
    (h : ∀ m ∈ members, m.2.Fits .any depth) : (obj members).Fits .any (depth + 1) :=
  ⟨depth, rfl, membersFit_iff.mpr h⟩

/-- A record fits if its fields do, one level further in. -/
theorem IsRecord.fits {v : Json R} {fields : List (String × Option (Json R))}
    (hv : v.IsRecord fields) {depth : Nat}
    (h : ∀ field ∈ fields, ∀ w ∈ field.2, w.Fits .any depth) : v.Fits .any (depth + 1) := by
  subst hv
  refine fits_obj fun m hm => ?_
  obtain ⟨⟨name, v⟩, hfield, hv⟩ := List.mem_filterMap.mp hm
  obtain ⟨w, hw, rfl⟩ := Option.map_eq_some_iff.mp hv
  exact h (name, v) hfield w hw

omit [Scalar R] in
/-- An object is kept if its members count. -/
theorem keeps_obj {members : List (String × Json R)} {fields : List (String × Shape)}
    (h : ∀ m ∈ members, m.2.Keeps (Shape.member m.1 (.record fields))) :
    (obj members).Keeps (.record fields) := by
  refine ⟨nofun, ?_⟩
  induction members with
  | nil => trivial
  | cons m rest ih =>
    obtain ⟨hm, hrest⟩ := List.forall_mem_cons.mp h
    exact ⟨hm, ih hrest⟩

omit [Scalar R] in
private theorem Shape.member_ofNames {name : String} {names : List String} (h : name ∈ names) :
    (ofNames names).member name = any := by
  have hlookup : (names.map fun name => (name, any)).lookup name = some any := by
    induction names with
    | nil => cases h
    | cons other names ih =>
      rw [List.map_cons, List.lookup_cons]
      split
      · rfl
      · rename_i hne
        exact ih ((List.mem_cons.mp h).resolve_left fun heq => by simp [heq] at hne)
  rw [ofNames, member, hlookup, Option.getD_some]

omit [Scalar R] in
/-- A record is kept if each field that is there is kept in its own shape. -/
theorem IsRecord.keeps {v : Json R} {fields : List (String × Option (Json R))}
    (hv : v.IsRecord fields) {shapes : List (String × Shape)}
    (h : ∀ field ∈ fields, ∀ w ∈ field.2, w.Keeps (Shape.member field.1 (.record shapes))) :
    v.Keeps (.record shapes) := by
  subst hv
  refine keeps_obj fun m hm => ?_
  obtain ⟨⟨name, v⟩, hfield, hv⟩ := List.mem_filterMap.mp hm
  obtain ⟨w, hw, rfl⟩ := Option.map_eq_some_iff.mp hv
  exact h (name, v) hfield w hw

omit [Scalar R] in
/-- A record whose fields are all kept as they stand is kept. -/
theorem IsRecord.keeps_ofNames {v : Json R} {fields : List (String × Option (Json R))}
    (hv : v.IsRecord fields) {names : List String} (hnames : fields.map (·.1) = names) :
    v.Keeps (.ofNames names) := by
  refine hv.keeps fun field hfield w _ => ?_
  have hmember := Shape.member_ofNames (hnames ▸ List.mem_map_of_mem hfield)
  rw [Shape.ofNames] at hmember
  rw [hmember]
  exact keeps_any w

omit [Scalar R] in
/-- An array is kept if its items are. -/
theorem keeps_arr {items : List (Json R)} {item : Shape} (h : ∀ v ∈ items, v.Keeps item) :
    (arr items).Keeps (.list item) := by
  refine ⟨nofun, ?_⟩
  induction items with
  | nil => trivial
  | cons v rest ih =>
    obtain ⟨hv, hrest⟩ := List.forall_mem_cons.mp h
    exact ⟨hv, ih hrest⟩

/-! ### Replacing scalars in what is written -/

section MapReals

variable {f : R → Option R} {write : α → Json R} {g : α → Option α}

/-- A scalar is replaced by what it is taken to. -/
theorem mapReals?_ofScalar (hf : YieldsFinite f) {x : R} (hx : Scalar.isFinite x = true) :
    (ofScalar x).mapReals? f = (f x).map ofScalar := by
  rw [ofScalar, if_pos hx, mapReals?]
  cases hy : f x with
  | none => rfl
  | some y => rw [Option.map_some, Option.map_some, ofScalar, if_pos (hf x y hy)]

/-- The fields of a record with each scalar replaced. -/
def mapFields? (f : R → Option R) :
    List (String × Option (Json R)) → Option (List (String × Option (Json R)))
  | [] => some []
  | (name, v) :: rest =>
    (v.mapM (mapReals? f)).bind fun v => (mapFields? f rest).map ((name, v) :: ·)

omit [Scalar R] in
/-- The scalars of a record are replaced field by field. -/
theorem IsRecord.mapReals?_eq {v : Json R} {fields : List (String × Option (Json R))}
    (hv : v.IsRecord fields) :
    v.mapReals? f = (mapFields? f fields).map fun fields => obj (present fields) := by
  subst hv
  have hmembers : mapMembers? f (present fields) = (mapFields? f fields).map present := by
    induction fields with
    | nil => rfl
    | cons field fields ih =>
      obtain ⟨name, v⟩ := field
      cases v with
      | none =>
        rw [present_cons_none, ih, mapFields?, Option.mapM_none]
        cases mapFields? f fields <;> rfl
      | some v =>
        rw [present_cons_some, mapMembers?, ih, mapFields?, Option.mapM_some]
        cases v.mapReals? f with
        | none => rfl
        | some w => cases mapFields? f fields <;> rfl
  rw [mapReals?, hmembers, Option.map_map]
  rfl

omit [Scalar R] in
@[simp]
theorem mapM_map_str (o : Option String) :
    (o.map (str : String → Json R)).mapM (mapReals? f) = some (o.map str) := by
  cases o <;> rfl

theorem mapM_map_ofScalar (hf : YieldsFinite f) {o : Option R}
    (h : ∀ x ∈ o, Scalar.isFinite x = true) :
    (o.map ofScalar).mapM (mapReals? f) = (o.mapM f).map (Option.map ofScalar) := by
  cases o with
  | none => rfl
  | some x =>
    rw [Option.map_some, Option.mapM_some, Option.mapM_some, mapReals?_ofScalar hf (h x rfl)]
    cases f x <;> rfl

omit [Scalar R] in
/-- A value that may be `null` is replaced where it is there. -/
theorem mapReals?_ofOption {o : Option α}
    (h : ∀ a ∈ o, (write a).mapReals? f = (g a).map write) :
    (ofOption write o).mapReals? f = (o.mapM g).map (ofOption write) := by
  cases o with
  | none => rfl
  | some a =>
    rw [ofOption, h a rfl, Option.mapM_some]
    cases g a <;> rfl

omit [Scalar R] in
@[simp]
theorem mapReals?_ofOption_str (o : Option String) :
    (ofOption (str : String → Json R) o).mapReals? f = some (ofOption str o) := by
  cases o <;> rfl

omit [Scalar R] in
/-- A list is replaced item by item. -/
theorem mapItems?_map {as : List α} (h : ∀ a ∈ as, (write a).mapReals? f = (g a).map write) :
    mapItems? f (as.map write) = (as.mapM g).map (List.map write) := by
  induction as with
  | nil => rfl
  | cons a rest ih =>
    obtain ⟨ha, hrest⟩ := List.forall_mem_cons.mp h
    rw [List.map_cons, mapItems?, ha, ih hrest, List.mapM_cons]
    cases g a with
    | none => rfl
    | some b => cases rest.mapM g <;> rfl

omit [Scalar R] in
@[simp]
theorem mapItems?_map_str (ss : List String) :
    mapItems? f (ss.map (str : String → Json R)) = some (ss.map str) := by
  induction ss with
  | nil => rfl
  | cons s rest ih => rw [List.map_cons, mapItems?, mapReals?, ih]; rfl

omit [Scalar R] in
/-- What holds of all that a value may be replaced by holds where there is one. -/
theorem forall_mem_of_optionMapM {Holds : α → Prop} {o o' : Option α}
    (hg : ∀ a ∈ o, ∀ b, g a = some b → Holds b) (h : o.mapM g = some o') :
    ∀ b ∈ o', Holds b := by
  cases o with
  | none =>
    obtain rfl := Option.some.inj h
    nofun
  | some a =>
    rw [Option.mapM_some] at h
    obtain ⟨b, hb, rfl⟩ := Option.map_eq_some_iff.mp h
    rintro _ ⟨⟩
    exact hg a rfl b hb

end MapReals

end Json

end TransitQuery
