import TransitQuery.Proofs.Json.Fits
import Mathlib.Data.String.Basic

/-!
# Values in normal form

Free-form data is kept with the members of every object sorted by name, each name once. To bring
a value into this form twice is no different from doing it once (`Json.normalize_normalize`), and
what could be read from a text before can be read afterwards (`Json.Fits.normalize`).

A name that stands twice has its last value, as in the maps that hold such data.
`Json.insertMember` puts a member in its place or replaces the one that is there, so what it makes
of sorted members is sorted (`Json.IsSorted.insertMember`), and members that arrive in order are
left as they are (`Json.IsSorted.sortMembers_eq`). The rest is an induction over values, with their
items and members.

Two values with different texts can have one normal form, and then they are the same data. The
modules on the wire need that nothing is lost the second time, since a normal form is what they
hold.
-/

namespace TransitQuery

namespace Json

variable {R : Type}

/-! ### Sorted members -/

private theorem mem_of_mem_insertMember {m : String × Json R} {k : String} {v : Json R}
    {members : List (String × Json R)} (h : m ∈ insertMember k v members) :
    m = (k, v) ∨ m ∈ members := by
  induction members with
  | nil => exact .inl (List.mem_singleton.mp h)
  | cons other rest ih =>
    obtain ⟨k', w⟩ := other
    rw [insertMember] at h
    split at h
    · exact (List.mem_cons.mp h).imp_right (List.mem_cons_of_mem _)
    split at h
    · exact List.mem_cons.mp h
    · obtain rfl | h := List.mem_cons.mp h
      · exact .inr List.mem_cons_self
      · exact (ih h).imp_right (List.mem_cons_of_mem _)

private theorem mem_of_mem_sortMembers {m : String × Json R} {members : List (String × Json R)}
    (h : m ∈ sortMembers members) : m ∈ members := by
  suffices hfold : ∀ sorted : List (String × Json R),
      m ∈ members.foldl (fun sorted m => insertMember m.1 m.2 sorted) sorted →
        m ∈ sorted ∨ m ∈ members by
    exact (hfold [] h).resolve_left (by simp)
  clear h
  induction members with
  | nil => exact fun _ h => .inl h
  | cons other rest ih =>
    intro sorted h
    obtain h | h := ih _ h
    · obtain rfl | h := mem_of_mem_insertMember h
      · exact .inr List.mem_cons_self
      · exact .inl h
    · exact .inr (List.mem_cons_of_mem _ h)

/-- Members in the order of their names, no two with one name. -/
def IsSorted (members : List (String × Json R)) : Prop :=
  members.Pairwise (·.1 < ·.1)

/-- Sorted members stay sorted when one is put among them. -/
theorem IsSorted.insertMember {members : List (String × Json R)} (h : IsSorted members)
    (k : String) (v : Json R) : IsSorted (insertMember k v members) := by
  induction members with
  | nil => exact List.pairwise_singleton _ _
  | cons m rest ih =>
    obtain ⟨k', w⟩ := m
    obtain ⟨hfirst, hrest⟩ := List.pairwise_cons.mp h
    rw [Json.insertMember]
    split
    · rename_i heq
      subst heq
      exact List.pairwise_cons.mpr ⟨hfirst, hrest⟩
    split
    · rename_i hlt
      refine List.pairwise_cons.mpr ⟨fun m hm => ?_, h⟩
      obtain rfl | hm := List.mem_cons.mp hm
      · exact hlt
      · exact hlt.trans (hfirst m hm)
    · rename_i hne hge
      refine List.pairwise_cons.mpr ⟨fun m hm => ?_, ih hrest⟩
      obtain rfl | hm := mem_of_mem_insertMember hm
      · exact lt_of_le_of_ne (not_lt.mp hge) (Ne.symm hne)
      · exact hfirst m hm

private theorem isSorted_sortMembers (members : List (String × Json R)) :
    IsSorted (sortMembers members) :=
  List.foldlRecOn members _ List.Pairwise.nil fun _ hsorted m _ => hsorted.insertMember m.1 m.2

/-- What comes last in the order is put in the last place. -/
theorem insertMember_of_forall_lt {members : List (String × Json R)} {k : String} {v : Json R}
    (h : ∀ m ∈ members, m.1 < k) : insertMember k v members = members ++ [(k, v)] := by
  induction members with
  | nil => rfl
  | cons m rest ih =>
    obtain ⟨k', w⟩ := m
    obtain ⟨hlt, hrest⟩ := List.forall_mem_cons.mp h
    rw [insertMember, if_neg hlt.ne', if_neg hlt.asymm, ih hrest]
    rfl

/-- Sorted members stay where they are. -/
theorem IsSorted.sortMembers_eq {members : List (String × Json R)} (h : IsSorted members) :
    sortMembers members = members := by
  suffices hfold : ∀ sorted : List (String × Json R), IsSorted (sorted ++ members) →
      members.foldl (fun sorted m => Json.insertMember m.1 m.2 sorted) sorted =
        sorted ++ members by
    exact hfold [] h
  clear h
  induction members with
  | nil => exact fun sorted _ => (List.append_nil sorted).symm
  | cons m rest ih =>
    intro sorted h
    have hlast : ∀ n ∈ sorted, n.1 < m.1 := fun n hn =>
      (List.pairwise_append.mp h).2.2 n hn m List.mem_cons_self
    rw [List.foldl_cons, insertMember_of_forall_lt hlast, ih _ (by simpa using h)]
    simp

/-! ### Normal form -/

mutual

/-- Whether the members of every object in a value are sorted. -/
def IsNormal : Json R → Prop
  | arr items => ItemsAreNormal items
  | obj members => IsSorted members ∧ MembersAreNormal members
  | _ => True

/-- Whether several items are in normal form. -/
def ItemsAreNormal : List (Json R) → Prop
  | [] => True
  | v :: rest => v.IsNormal ∧ ItemsAreNormal rest

/-- Whether the values of several members are in normal form. -/
def MembersAreNormal : List (String × Json R) → Prop
  | [] => True
  | (_, v) :: rest => v.IsNormal ∧ MembersAreNormal rest

end

/-- Members are in normal form if each value is. -/
private theorem membersAreNormal_iff {members : List (String × Json R)} :
    MembersAreNormal members ↔ ∀ m ∈ members, m.2.IsNormal := by
  induction members with
  | nil => simp [MembersAreNormal]
  | cons m rest ih =>
    obtain ⟨k, v⟩ := m
    rw [MembersAreNormal, ih, List.forall_mem_cons]

mutual

/-- What is brought into normal form is in normal form. -/
theorem isNormal_normalize (v : Json R) : v.normalize.IsNormal := by
  match v with
  | arr items => exact itemsAreNormal_normalizeItems items
  | obj members =>
    refine ⟨isSorted_sortMembers _, membersAreNormal_iff.mpr fun m hm => ?_⟩
    exact membersAreNormal_iff.mp (membersAreNormal_normalizeMembers members) m
      (mem_of_mem_sortMembers hm)
  | null | bool _ | int _ | real _ | str _ => trivial

private theorem itemsAreNormal_normalizeItems (items : List (Json R)) :
    ItemsAreNormal (normalizeItems items) := by
  match items with
  | [] => trivial
  | v :: rest => exact ⟨isNormal_normalize v, itemsAreNormal_normalizeItems rest⟩

private theorem membersAreNormal_normalizeMembers (members : List (String × Json R)) :
    MembersAreNormal (normalizeMembers members) := by
  match members with
  | [] => trivial
  | (k, v) :: rest => exact ⟨isNormal_normalize v, membersAreNormal_normalizeMembers rest⟩

end

mutual

/-- A value in normal form is left as it is. -/
theorem IsNormal.normalize_eq {v : Json R} (h : v.IsNormal) : v.normalize = v := by
  match v with
  | arr items => rw [normalize, ItemsAreNormal.normalizeItems_eq h]
  | obj members =>
    rw [normalize, MembersAreNormal.normalizeMembers_eq h.2, IsSorted.sortMembers_eq h.1]
  | null | bool _ | int _ | real _ | str _ => rfl

private theorem ItemsAreNormal.normalizeItems_eq {items : List (Json R)}
    (h : ItemsAreNormal items) :
    normalizeItems items = items := by
  match items with
  | [] => rfl
  | v :: rest =>
    rw [normalizeItems, IsNormal.normalize_eq h.1, ItemsAreNormal.normalizeItems_eq h.2]

private theorem MembersAreNormal.normalizeMembers_eq {members : List (String × Json R)}
    (h : MembersAreNormal members) : normalizeMembers members = members := by
  match members with
  | [] => rfl
  | (k, v) :: rest =>
    rw [normalizeMembers, IsNormal.normalize_eq h.1, MembersAreNormal.normalizeMembers_eq h.2]

end

private theorem normalize_normalize (v : Json R) : v.normalize.normalize = v.normalize :=
  (isNormal_normalize v).normalize_eq

theorem normalize_ne_null {v : Json R} (h : v ≠ null) : v.normalize ≠ null := by
  cases v with
  | null => exact absurd rfl h
  | _ => nofun

theorem normalize_ne_str {v : Json R} (h : ∀ s, v ≠ str s) (s : String) :
    v.normalize ≠ str s := by
  cases v with
  | str t => exact absurd rfl (h t)
  | _ => nofun

/-! ### What a text can hold -/

mutual

/-- A value that a text can hold can be held in normal form, too. -/
theorem Fits.normalize [Scalar R] {depth : Nat} {v : Json R} (h : v.Fits .any depth) :
    v.normalize.Fits .any depth := by
  match v with
  | int i => exact h
  | real x => exact h
  | arr items =>
    obtain ⟨inner, hinner, hitems⟩ := h
    exact ⟨inner, hinner, ItemsFit.normalize hitems⟩
  | obj members =>
    obtain ⟨inner, hinner, hmembers⟩ := h
    refine ⟨inner, hinner, membersFit_iff.mpr fun m hm => ?_⟩
    exact membersFit_iff.mp (MembersFit.normalize hmembers) m (mem_of_mem_sortMembers hm)
  | null | bool _ | str _ => trivial

theorem ItemsFit.normalize [Scalar R] {depth : Nat} {items : List (Json R)}
    (h : ItemsFit .any depth items) : ItemsFit .any depth (normalizeItems items) := by
  match items with
  | [] => trivial
  | v :: rest => exact ⟨Fits.normalize h.1, ItemsFit.normalize h.2⟩

theorem MembersFit.normalize [Scalar R] {depth : Nat} {members : List (String × Json R)}
    (h : MembersFit .any depth members) : MembersFit .any depth (normalizeMembers members) := by
  match members with
  | [] => trivial
  | (k, v) :: rest => exact ⟨Fits.normalize h.1, MembersFit.normalize h.2⟩

end

end Json

end TransitQuery
