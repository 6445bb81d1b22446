import TransitQuery.Cache
import Mathlib.Data.List.Basic

/-!
# What is in a cache

A cache holds nothing but what was put there under the same key, whatever it drops. Looking up
counts, but neither adds nor drops anything.

The two facts are what everything else about cached contracts rests on. `Cache.mem_of_mem_insert`
says that an insertion leaves no entry that was not there before it, save the one that it puts in:
keys are dropped to make room, but no value ever moves to another key. `Cache.mem_of_find?_eq_some`
turns a successful look-up into such an entry. Nothing is assumed of the cache here, neither that
its keys are distinct nor that they fit into its room; how much of what was inserted is still there
is the subject of the history of a cache.
-/

namespace TransitQuery

namespace Cache

variable {V : Type} {c : Cache V} {key : CacheKey} {v : V}

/-- What is found under a key is an entry under this key. -/
theorem mem_of_find?_eq_some (h : c.find? key = some v) : (key, v) ∈ c.entries := by
  obtain ⟨⟨key', v'⟩, hfound, rfl⟩ := Option.map_eq_some_iff.mp h
  obtain rfl : key' = key := by simpa using List.find?_some hfound
  exact List.mem_of_find?_eq_some hfound

/-- Looking up with a count finds what looking up without one finds. -/
theorem get_fst (c : Cache V) (key : CacheKey) : (c.get key).1 = c.find? key := by
  unfold get
  cases c.find? key <;> rfl

/-- Counting leaves the entries as they are. -/
@[simp]
theorem entries_get (c : Cache V) (key : CacheKey) : (c.get key).2.entries = c.entries := by
  unfold get
  cases c.find? key <;> rfl

private theorem evict_entries_subset (c : Cache V) (key : CacheKey) :
    (c.evict key).entries ⊆ c.entries :=
  fun _ he => List.mem_of_mem_filter he

private theorem evictAmong_entries_subset (c : Cache V) (keys : List CacheKey) :
    (c.evictAmong keys).entries ⊆ c.entries := by
  induction keys generalizing c with
  | nil => exact List.Subset.refl _
  | cons oldest rest ih =>
    rw [evictAmong]
    split
    · exact List.Subset.trans (ih _) (c.evict_entries_subset oldest)
    · exact List.Subset.refl _

/-- Inserting adds at most the new value. -/
theorem mem_of_mem_insert {e : CacheKey × V} (h : e ∈ (c.insert key v).entries) :
    e = (key, v) ∨ e ∈ c.entries := by
  unfold insert at h
  split at h
  · obtain ⟨old, hold, rfl⟩ := List.mem_map.mp h
    split
    · exact .inl rfl
    · exact .inr hold
  · obtain hkept | hnew := List.mem_append.mp h
    · exact .inr (c.evictAmong_entries_subset c.order hkept)
    · exact .inl (List.mem_singleton.mp hnew)

end Cache

end TransitQuery
