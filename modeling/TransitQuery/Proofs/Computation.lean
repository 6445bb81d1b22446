import TransitQuery.Row
import Mathlib.Data.List.Basic

/-!
# Computations that may fail

A computation in `Except` that is put together from others succeeds just when all of them do. The
lemmas here take such a success apart, so that nobody has to unfold the monad.

* Sequences: `bind_eq_ok_iff` gives the result of the first part and the success of the second one
  on it.
* Lists: `mapM_eq_ok_iff` says that a list is worked through member by member,
  `exists_of_mapM_eq_ok` finds for each result the member that it comes from, and for each member
  its result. `exists_split_of_mapM_eq_error` finds the first member that fails, after others that
  succeed, which is what decides between several errors.
* Two computations side by side: `forall₂_mapM` carries a relation between the members of two lists
  over to their results, failures included.
* Changed results and errors: `map_eq_ok_iff`, `mapError_eq_ok_iff` and `mapError_eq_error_iff`.

All are stated as equivalences where they can be, so that `simp` and `obtain` can use them in
either direction.
-/

namespace TransitQuery

variable {ε α β : Type}

/-- A sequence succeeds when its first part does and the second succeeds on what that yields. -/
theorem bind_eq_ok_iff {x : Except ε α} {f : α → Except ε β} {b : β} :
    (x >>= f) = .ok b ↔ ∃ a, x = .ok a ∧ f a = .ok b := by
  cases x with
  | error e => simp [bind, Except.bind]
  | ok a => simp [bind, Except.bind]

@[simp]
theorem ok_bind (a : α) (f : α → Except ε β) : ((.ok a : Except ε α) >>= f) = f a := rfl

@[simp]
theorem pure_eq_ok (a : α) : (pure a : Except ε α) = .ok a := rfl

/-- A list is worked through with success when each of its members is. -/
theorem mapM_cons_eq_ok_iff {f : α → Except ε β} {a : α} {as : List α} {bs : List β} :
    (a :: as).mapM f = .ok bs ↔
      ∃ b bs', f a = .ok b ∧ as.mapM f = .ok bs' ∧ bs = b :: bs' := by
  rw [List.mapM_cons, bind_eq_ok_iff]
  constructor
  · rintro ⟨b, hb, h⟩
    obtain ⟨bs', hbs', h⟩ := bind_eq_ok_iff.mp h
    exact ⟨b, bs', hb, hbs', (Except.ok.inj h).symm⟩
  · rintro ⟨b, bs', hb, hbs', rfl⟩
    exact ⟨b, hb, by rw [hbs']; rfl⟩

/-- The empty list is worked through to the empty list. -/
theorem mapM_nil_eq_ok_iff {f : α → Except ε β} {bs : List β} :
    ([] : List α).mapM f = .ok bs ↔ bs = [] := by
  rw [List.mapM_nil]
  exact ⟨fun h => (Except.ok.inj h).symm, fun h => by rw [h]; rfl⟩

/-- All of a list can be worked through when each member can. -/
theorem exists_mapM_eq_ok_iff {f : α → Except ε β} {as : List α} :
    (∃ bs, as.mapM f = .ok bs) ↔ ∀ a ∈ as, ∃ b, f a = .ok b := by
  induction as with
  | nil => simp
  | cons a as ih =>
    rw [List.forall_mem_cons, ← ih]
    constructor
    · rintro ⟨_, h⟩
      obtain ⟨b, bs, hb, hbs, rfl⟩ := mapM_cons_eq_ok_iff.mp h
      exact ⟨⟨b, hb⟩, bs, hbs⟩
    · rintro ⟨⟨b, hb⟩, bs, hbs⟩
      exact ⟨b :: bs, mapM_cons_eq_ok_iff.mpr ⟨b, bs, hb, hbs, rfl⟩⟩

/-- What a list is worked through to comes from its members, each of which yields something. -/
theorem exists_of_mapM_eq_ok {f : α → Except ε β} {as : List α} {bs : List β}
    (h : as.mapM f = .ok bs) :
    (∀ b ∈ bs, ∃ a ∈ as, f a = .ok b) ∧ ∀ a ∈ as, ∃ b ∈ bs, f a = .ok b := by
  induction as generalizing bs with
  | nil =>
    obtain rfl := mapM_nil_eq_ok_iff.mp h
    simp
  | cons a as ih =>
    obtain ⟨b, bs', hb, hbs', rfl⟩ := mapM_cons_eq_ok_iff.mp h
    obtain ⟨hfrom, hto⟩ := ih hbs'
    refine ⟨List.forall_mem_cons.mpr ⟨⟨a, List.mem_cons_self, hb⟩, fun b' hb' => ?_⟩,
      List.forall_mem_cons.mpr ⟨⟨b, List.mem_cons_self, hb⟩, fun a' ha' => ?_⟩⟩
    · obtain ⟨a', ha', heq⟩ := hfrom b' hb'
      exact ⟨a', List.mem_cons_of_mem a ha', heq⟩
    · obtain ⟨b', hb', heq⟩ := hto a' ha'
      exact ⟨b', List.mem_cons_of_mem b hb', heq⟩

/-- It is worked through member by member. -/
theorem forall₂_of_mapM_eq_ok {f : α → Except ε β} {as : List α} {bs : List β}
    (h : as.mapM f = .ok bs) : List.Forall₂ (fun a b => f a = .ok b) as bs := by
  induction as generalizing bs with
  | nil =>
    obtain rfl := mapM_nil_eq_ok_iff.mp h
    exact .nil
  | cons a as ih =>
    obtain ⟨b, bs', hb, hbs', rfl⟩ := mapM_cons_eq_ok_iff.mp h
    exact .cons hb (ih hbs')

/-- A list is worked through to just the list of what its members yield. -/
theorem mapM_eq_ok_iff {f : α → Except ε β} {as : List α} {bs : List β} :
    as.mapM f = .ok bs ↔ List.Forall₂ (fun a b => f a = .ok b) as bs := by
  refine ⟨forall₂_of_mapM_eq_ok, fun h => ?_⟩
  induction h with
  | nil => rfl
  | cons h _ ih => exact mapM_cons_eq_ok_iff.mpr ⟨_, _, h, ih, rfl⟩

/-- Lists that correspond member by member are worked through to lists that do. -/
theorem forall₂_mapM {α' β' ε' : Type} {f : α → Except ε β} {g : α' → Except ε' β'}
    {P : α → α' → Prop} {Q : β → β' → Prop} {as : List α} {as' : List α'} {bs : List β}
    {bs' : List β'} (h : List.Forall₂ P as as') (hbs : as.mapM f = .ok bs)
    (hbs' : as'.mapM g = .ok bs')
    (hmember : ∀ {a a' b b'}, P a a' → f a = .ok b → g a' = .ok b' → Q b b') :
    List.Forall₂ Q bs bs' := by
  induction h generalizing bs bs' with
  | nil =>
    obtain rfl := mapM_nil_eq_ok_iff.mp hbs
    obtain rfl := mapM_nil_eq_ok_iff.mp hbs'
    exact .nil
  | cons h _ ih =>
    obtain ⟨b, cs, hb, hcs, rfl⟩ := mapM_cons_eq_ok_iff.mp hbs
    obtain ⟨b', cs', hb', hcs', rfl⟩ := mapM_cons_eq_ok_iff.mp hbs'
    exact .cons (hmember h hb hb') (ih hcs hcs')

/-- A list fails with its first member that fails. -/
theorem exists_split_of_mapM_eq_error {f : α → Except ε β} {as : List α} {e : ε}
    (h : as.mapM f = .error e) :
    ∃ before a after, as = before ++ a :: after ∧ (∀ b ∈ before, ∃ y, f b = .ok y) ∧
      f a = .error e := by
  induction as with
  | nil => cases h
  | cons a as ih =>
    rw [List.mapM_cons] at h
    cases ha : f a with
    | error e' =>
      rw [ha] at h
      cases h
      exact ⟨[], a, as, rfl, by simp, ha⟩
    | ok b =>
      rw [ha, ok_bind] at h
      cases has : as.mapM f with
      | error e' =>
        rw [has] at h
        cases h
        obtain ⟨before, a', after, rfl, hbefore, herror⟩ := ih has
        exact ⟨a :: before, a', after, rfl, List.forall_mem_cons.mpr ⟨⟨b, ha⟩, hbefore⟩, herror⟩
      | ok bs =>
        rw [has] at h
        cases h

/-- A changed result is the result of something. -/
theorem map_eq_ok_iff {f : α → β} {x : Except ε α} {b : β} :
    f <$> x = .ok b ↔ ∃ a, x = .ok a ∧ f a = b := by
  cases x <;> simp [Functor.map, Except.map]

theorem mapError_eq_ok_iff {ε' : Type} {f : ε → ε'} {x : Except ε α} {a : α} :
    x.mapError f = .ok a ↔ x = .ok a := by
  cases x <;> simp [Except.mapError]

/-- A changed error is the error of something. -/
theorem mapError_eq_error_iff {ε' : Type} {f : ε → ε'} {x : Except ε α} {e' : ε'} :
    x.mapError f = .error e' ↔ ∃ e, x = .error e ∧ f e = e' := by
  cases x <;> simp [Except.mapError]

/-- An option that is left of a computation is its result. -/
theorem toOption_eq_some_iff {x : Except ε α} {a : α} : x.toOption = some a ↔ x = .ok a := by
  cases x <;> simp [Except.toOption]

theorem exists_eq_ok_of_isOk {x : Except ε α} (h : x.isOk = true) : ∃ a, x = .ok a := by
  cases x with
  | error e => cases h
  | ok a => exact ⟨a, rfl⟩

end TransitQuery
