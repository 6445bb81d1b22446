import Mathlib.Data.List.DropRight
import Mathlib.Data.List.Nodup
import TransitQuery.Proofs.Cache

/-!
# Caches and their histories

What a cache holds is decided by the operations that were performed on it. A key *arrives* with an
insertion at a moment when it is not there (`Cache.arrival?`). The order of a cache consists of the
last keys that have arrived since everything was dropped, as many as there is room for
(`Cache.IsSound.order_performAll`), and this decides which keys are there
(`Cache.contains_ofHistory_iff`).

The values and the order of their keys are stored separately. `Cache.IsSound` is the invariant that
they belong together: the order lists the keys of the entries, each once, and no more of them than
there is room for. Every operation keeps it (`Cache.IsSound.perform`), by one lemma for each way in
which a cache changes, and so does a history from the empty cache on.

With the invariant each part of what a history decides has its own step lemma and its own induction
over the operations: the order (`Cache.IsSound.order_perform`), the value under a key
(`Cache.find?_perform`), the number of look-ups, and the number of values dropped, where each value
that has arrived is there, was dropped and counted, or went with all others
(`Cache.IsSound.evictions_perform`). `Cache.recounts_run` puts them together: a cache is what an
independent recount of its history says, for every room and every history.
-/

namespace TransitQuery

/-- An operation on a cache. -/
inductive CacheOperation (V : Type) where
  | insert (key : CacheKey) (v : V)
  | get (key : CacheKey)
  | contains (key : CacheKey)
  | clear

variable {V : Type}

namespace CacheOperation

/-- The value that an operation puts under a key, if it does. -/
def put? (key : CacheKey) : CacheOperation V → Option V
  | insert key' v => if key' = key then some v else none
  | _ => none

/-- Whether an operation drops everything. -/
def isClear : CacheOperation V → Bool
  | clear => true
  | _ => false

/-- Whether an operation looks a key up and counts that. -/
def isGet : CacheOperation V → Bool
  | get _ => true
  | _ => false

/-- The value that was put under a key last, if one ever was. -/
def lastPut? (key : CacheKey) (ops : List (CacheOperation V)) : Option V :=
  ops.reverse.findSome? (put? key)

/-- An operation that puts a value under a key puts the last one there. -/
private theorem lastPut?_concat (key : CacheKey) (ops : List (CacheOperation V))
    (op : CacheOperation V) :
    lastPut? key (ops ++ [op]) = (op.put? key).or (lastPut? key ops) := by
  rw [lastPut?, List.reverse_append, List.reverse_singleton, List.singleton_append,
    List.findSome?_cons, lastPut?]
  cases op.put? key <;> rfl

end CacheOperation

open CacheOperation (lastPut?)

namespace Cache

/-! ### Histories -/

/-- A cache after an operation. -/
def perform (c : Cache V) : CacheOperation V → Cache V
  | .insert key v => c.insert key v
  | .get key => (c.get key).2
  | .contains _ => c
  | .clear => c.clear

/-- A cache after several operations. -/
def performAll (c : Cache V) (ops : List (CacheOperation V)) : Cache V :=
  ops.foldl perform c

/-- The key that arrives with an operation, if one does: the key of an insertion that is not
there. -/
def arrival? (c : Cache V) : CacheOperation V → Option CacheKey
  | .insert key _ => if c.contains key then none else some key
  | _ => none

/-- The keys that arrive with several operations, in turn. -/
def arrivals (c : Cache V) : List (CacheOperation V) → List CacheKey
  | [] => []
  | op :: rest => (c.arrival? op).toList ++ (c.perform op).arrivals rest

/-- How many values are dropped together, whenever everything is. -/
def cleared (c : Cache V) : List (CacheOperation V) → Nat
  | [] => 0
  | op :: rest => (if op.isClear then c.size else 0) + (c.perform op).cleared rest

private theorem performAll_append (c : Cache V) (ops rest : List (CacheOperation V)) :
    c.performAll (ops ++ rest) = (c.performAll ops).performAll rest :=
  List.foldl_append

/-- What arrives later depends on what has been performed before. -/
private theorem arrivals_append (c : Cache V) (ops rest : List (CacheOperation V)) :
    c.arrivals (ops ++ rest) = c.arrivals ops ++ (c.performAll ops).arrivals rest := by
  induction ops generalizing c with
  | nil => rfl
  | cons op ops ih =>
    rw [List.cons_append, arrivals, ih, arrivals, List.append_assoc]
    rfl

/-! ### Looking up -/

variable {c : Cache V} {key key' : CacheKey} {v w : V}

/-- The keys that are there are the keys of the entries. -/
theorem contains_iff : c.contains key = true ↔ key ∈ c.entries.map Prod.fst := by
  simp [contains, find?, List.find?_isSome]

/-- Nothing is found just where no key is. -/
private theorem find?_eq_none_iff : c.find? key = none ↔ c.contains key = false := by
  rw [contains, Option.isSome_eq_false_iff, Option.isNone_iff_eq_none]

/-- Dropping the value under another key changes nothing, and dropping the value under this one
leaves nothing. -/
theorem find?_evict : (c.evict key').find? key = if key = key' then none else c.find? key := by
  have hfilter : (c.evict key').find? key
      = (c.entries.find? fun e => e.1 ≠ key' ∧ e.1 = key).map Prod.snd := by
    simp [find?, evict, List.find?_filter]
  rw [hfilter]
  split
  next heq => simp [heq]
  next hne =>
    have hiff (e : CacheKey × V) : (e.1 ≠ key' ∧ e.1 = key) ↔ e.1 = key :=
      and_iff_right_of_imp fun h => h ▸ hne
    simp only [hiff, find?]

/-- Dropping other values leaves what is under a key, or nothing. -/
theorem find?_of_find?_evictAmong {keys : List CacheKey}
    (h : (c.evictAmong keys).find? key = some w) : c.find? key = some w := by
  induction keys generalizing c with
  | nil => exact h
  | cons oldest rest ih =>
    rw [evictAmong] at h
    split at h
    · have hevict := ih h
      rw [find?_evict] at hevict
      split at hevict
      · cases hevict
      · exact hevict
    · exact h

/-- Replacing changes the value of one key, if it is there. -/
private theorem find?_replace :
    (c.replace key v).find? key' = (c.find? key').map fun w => if key' = key then v else w := by
  have hkey (e : CacheKey × V) : (if e.1 = key then (key, v) else e).1 = e.1 := by
    split
    next heq => exact heq.symm
    next => rfl
  simp only [replace, find?, List.find?_map, Function.comp_def, hkey, Option.map_map]
  refine Option.map_congr fun e he => ?_
  obtain rfl : e.1 = key' := by simpa using List.find?_some he
  split <;> rfl

private theorem find?_push_self (h : c.contains key = false) :
    (c.push key v).find? key = some v := by
  have hnone : c.entries.find? (·.1 = key) = none :=
    Option.map_eq_none_iff.mp (find?_eq_none_iff.mpr h)
  simp [push, find?, hnone]

private theorem find?_push_of_ne (h : key' ≠ key) : (c.push key v).find? key' = c.find? key' := by
  simp [push, find?, List.find?_append, h.symm]

private theorem contains_makeRoom (h : c.contains key = false) :
    c.makeRoom.contains key = false := by
  rw [← find?_eq_none_iff, Option.eq_none_iff_forall_ne_some] at h ⊢
  exact fun w hw => h w (find?_of_find?_evictAmong hw)

private theorem find?_insert_self : (c.insert key v).find? key = some v := by
  rw [insert]
  split
  next hold =>
    obtain ⟨w, hw⟩ := Option.isSome_iff_exists.mp hold
    rw [find?_replace, hw, Option.map_some, if_pos rfl]
  next hnew => exact find?_push_self (contains_makeRoom (Bool.not_eq_true _ ▸ hnew))

private theorem find?_of_find?_insert (hne : key' ≠ key)
    (h : (c.insert key v).find? key' = some w) :
    c.find? key' = some w := by
  rw [insert] at h
  split at h
  · simpa [find?_replace, hne] using h
  · rw [find?_push_of_ne hne] at h
    exact find?_of_find?_evictAmong h

/-! ### What an operation leaves as it is -/

private theorem evictAmong_eq (c : Cache V) (keys : List CacheKey) : ∃ entries order evictions,
    c.evictAmong keys = { c with entries, order, evictions } := by
  induction keys generalizing c with
  | nil => exact ⟨_, _, _, rfl⟩
  | cons oldest rest ih =>
    rw [evictAmong]
    split
    · exact ih (c.evict oldest)
    · exact ⟨_, _, _, rfl⟩

/-- Inserting changes neither the room nor what was counted when keys were looked up. -/
theorem insert_eq (c : Cache V) (key : CacheKey) (v : V) : ∃ entries order evictions,
    c.insert key v = { c with entries, order, evictions } := by
  rw [insert]
  split
  · exact ⟨_, _, _, rfl⟩
  · obtain ⟨entries, order, evictions, heq⟩ := c.evictAmong_eq c.order
    rw [makeRoom, heq]
    exact ⟨_, _, _, rfl⟩

/-- Looking up counts once, and that is all it does. -/
theorem get_snd (c : Cache V) (key : CacheKey) : ∃ hits misses,
    hits + misses = c.hits + c.misses + 1 ∧ (c.get key).2 = { c with hits, misses } := by
  unfold get
  cases c.find? key with
  | some v => exact ⟨c.hits + 1, c.misses, Nat.add_right_comm _ _ _, rfl⟩
  | none => exact ⟨c.hits, c.misses + 1, rfl, rfl⟩

/-! ### Values and order -/

/-- The values of a cache and the order of its keys belong together, and there are no more of them
than there is room for. -/
structure IsSound (c : Cache V) : Prop where
  capacity_pos : 0 < c.capacity
  keys_perm : (c.entries.map Prod.fst).Perm c.order
  order_nodup : c.order.Nodup
  size_le : c.size ≤ c.capacity

/-- The empty cache is sound; it has room for one key at least. -/
private theorem isSound_empty (capacity : Nat) : (empty capacity : Cache V).IsSound where
  capacity_pos := Nat.le_max_right capacity 1
  keys_perm := .nil
  order_nodup := .nil
  size_le := Nat.zero_le _

namespace IsSound

variable {oldest : CacheKey} {rest : List CacheKey}

/-- In a sound cache the order lists the keys that are there. -/
theorem contains_iff (hc : c.IsSound) : c.contains key = true ↔ key ∈ c.order :=
  Cache.contains_iff.trans hc.keys_perm.mem_iff

private theorem size_eq (hc : c.IsSound) : c.size = c.order.length := by
  rw [← hc.keys_perm.length_eq, List.length_map, size]

/-- The keys that are left when the oldest value is dropped. -/
theorem keys_evict_perm (hc : c.IsSound) (horder : c.order = oldest :: rest) :
    ((c.evict oldest).entries.map Prod.fst).Perm rest := by
  have hnodup := hc.order_nodup
  rw [horder, List.nodup_cons] at hnodup
  have hrest : rest.filter (· ≠ oldest) = rest :=
    List.filter_eq_self.mpr fun key hkey => by
      simpa using fun heq : key = oldest => hnodup.1 (heq ▸ hkey)
  have hkeys : (c.evict oldest).entries.map Prod.fst
      = (c.entries.map Prod.fst).filter (· ≠ oldest) := by
    rw [List.filter_map]
    rfl
  have hperm := hc.keys_perm.filter (· ≠ oldest)
  rw [horder, List.filter_cons_of_neg (by simp), hrest] at hperm
  rw [hkeys]
  exact hperm

private theorem size_evict (hc : c.IsSound) (horder : c.order = oldest :: rest) :
    (c.evict oldest).size + 1 = c.size := by
  have hlength := (hc.keys_evict_perm horder).length_eq
  rw [List.length_map] at hlength
  rw [hc.size_eq, horder, List.length_cons, size, hlength]

private theorem evictOldest (hc : c.IsSound) (horder : c.order = oldest :: rest) :
    IsSound { c.evict oldest with order := rest } where
  capacity_pos := hc.capacity_pos
  keys_perm := hc.keys_evict_perm horder
  order_nodup := (List.nodup_cons.mp (horder ▸ hc.order_nodup)).2
  size_le := Nat.le_of_succ_le ((hc.size_evict horder).trans_le hc.size_le)

/-- Room is made by nothing at all, or by dropping one value, the oldest. -/
theorem makeRoom_cases (hc : c.IsSound) :
    (c.size < c.capacity ∧ c.makeRoom = c) ∨
      ∃ oldest rest, c.order = oldest :: rest ∧ c.size = c.capacity ∧
        c.makeRoom = { c.evict oldest with order := rest } := by
  obtain hroom | hfull := Nat.lt_or_ge c.size c.capacity
  · refine .inl ⟨hroom, ?_⟩
    rw [makeRoom]
    cases horder : c.order with
    | nil => rw [evictAmong, ← horder]
    | cons oldest rest => rw [evictAmong, if_neg (Nat.not_le.mpr hroom), ← horder]
  · cases horder : c.order with
    | nil =>
      have hsize := hc.size_eq
      rw [horder, List.length_nil] at hsize
      exact absurd hc.capacity_pos (by omega)
    | cons oldest rest =>
      refine .inr ⟨oldest, rest, rfl, Nat.le_antisymm hc.size_le hfull, ?_⟩
      -- what is left fits, so that the second round is the last one
      have hleft : ¬(c.evict oldest).capacity ≤ (c.evict oldest).size :=
        Nat.not_le.mpr ((hc.size_evict horder).trans_le hc.size_le)
      rw [makeRoom, horder, evictAmong, if_pos hfull]
      cases rest with
      | nil => rfl
      | cons next rest => rw [evictAmong, if_neg hleft]

theorem makeRoom (hc : c.IsSound) : c.makeRoom.IsSound := by
  obtain ⟨-, heq⟩ | ⟨oldest, rest, horder, -, heq⟩ := hc.makeRoom_cases
  · rw [heq]
    exact hc
  · rw [heq]
    exact hc.evictOldest horder

private theorem size_makeRoom_lt (hc : c.IsSound) : c.makeRoom.size < c.makeRoom.capacity := by
  obtain ⟨hroom, heq⟩ | ⟨oldest, rest, horder, -, heq⟩ := hc.makeRoom_cases
  · rw [heq]
    exact hroom
  · rw [heq]
    exact (hc.size_evict horder).trans_le hc.size_le

/-- What is dropped for room is the front of the order. -/
private theorem order_makeRoom (hc : c.IsSound) :
    c.makeRoom.order = c.order.rtake (c.capacity - 1) := by
  have hsize := hc.size_eq
  obtain ⟨hroom, heq⟩ | ⟨oldest, rest, horder, hfull, heq⟩ := hc.makeRoom_cases
  · have hall : c.order.length - (c.capacity - 1) = 0 := by omega
    rw [heq, List.rtake, hall, List.drop_zero]
  · have hone : c.order.length - (c.capacity - 1) = 1 := by
      have hpos := hc.capacity_pos
      omega
    rw [heq, List.rtake, hone, horder, List.drop_one, List.tail_cons]

/-- Each value that is dropped for room is counted. -/
theorem evictions_makeRoom (hc : c.IsSound) :
    c.makeRoom.evictions + c.makeRoom.size = c.evictions + c.size := by
  obtain ⟨-, heq⟩ | ⟨oldest, rest, horder, -, heq⟩ := hc.makeRoom_cases
  · rw [heq]
  · rw [heq, ← hc.size_evict horder]
    exact Nat.add_right_comm c.evictions 1 (c.evict oldest).size

private theorem evictions_makeRoom_le (hc : c.IsSound) :
    c.makeRoom.evictions ≤ c.evictions + 1 := by
  obtain ⟨-, heq⟩ | ⟨oldest, rest, -, -, heq⟩ := hc.makeRoom_cases
  · rw [heq]
    exact Nat.le_succ c.evictions
  · rw [heq]
    exact Nat.le_refl (c.evictions + 1)

private theorem keys_replace :
    (c.replace key v).entries.map Prod.fst = c.entries.map Prod.fst := by
  rw [Cache.replace, List.map_map]
  refine List.map_congr_left fun e _ => ?_
  simp only [Function.comp_apply]
  split
  next heq => exact heq.symm
  next => rfl

/-- Replacing a value keeps a cache sound. -/
theorem replace (hc : c.IsSound) : (c.replace key v).IsSound where
  capacity_pos := hc.capacity_pos
  keys_perm := by
    rw [keys_replace]
    exact hc.keys_perm
  order_nodup := hc.order_nodup
  size_le := (List.length_map _).trans_le hc.size_le

/-- Adding a key that is not there keeps a cache sound, if there is room. -/
theorem push (hc : c.IsSound) (hnew : c.contains key = false) (hroom : c.size < c.capacity) :
    (c.push key v).IsSound where
  capacity_pos := hc.capacity_pos
  keys_perm := by
    simpa [Cache.push] using hc.keys_perm.append_right [key]
  order_nodup := by
    refine List.nodup_append.mpr ⟨hc.order_nodup, List.nodup_singleton key, ?_⟩
    rintro key' hkey' _ (_ | ⟨_, ⟨⟩⟩) rfl
    exact absurd (hc.contains_iff.mpr hkey') (by simp [hnew])
  size_le := by
    rw [size, Cache.push, List.length_append]
    exact hroom

theorem insert (hc : c.IsSound) : (c.insert key v).IsSound := by
  rw [Cache.insert]
  split
  next => exact hc.replace
  next hnew =>
    exact hc.makeRoom.push (contains_makeRoom (Bool.not_eq_true _ ▸ hnew)) hc.size_makeRoom_lt

/-- No operation lets the values and their order come apart. -/
theorem perform (hc : c.IsSound) (op : CacheOperation V) : (c.perform op).IsSound := by
  cases op with
  | insert key v => exact hc.insert
  | get key =>
    obtain ⟨hits, misses, -, heq⟩ := c.get_snd key
    rw [Cache.perform, heq]
    exact ⟨hc.capacity_pos, hc.keys_perm, hc.order_nodup, hc.size_le⟩
  | contains key => exact hc
  | clear => exact ⟨hc.capacity_pos, .nil, .nil, Nat.zero_le _⟩

/-- No history lets the values and their order come apart. -/
private theorem performAll (hc : c.IsSound) (ops : List (CacheOperation V)) :
    (c.performAll ops).IsSound := by
  induction ops generalizing c with
  | nil => exact hc
  | cons op ops ih => exact ih (hc.perform op)

end IsSound

/-! ### The order of the keys -/

/-- A key that is there keeps its place when it gets another value. -/
private theorem order_insert_of_contains (h : c.contains key = true) :
    (c.insert key v).order = c.order := by
  rw [insert, if_pos h]
  rfl

/-- A new key comes last, and the oldest go as far as there is no room for them. -/
private theorem IsSound.order_insert (hc : c.IsSound) (h : c.contains key = false) :
    (c.insert key v).order = (c.order ++ [key]).rtake c.capacity := by
  have hcapacity : c.capacity = c.capacity - 1 + 1 := (Nat.sub_add_cancel hc.capacity_pos).symm
  rw [Cache.insert, if_neg (by simp [h]), Cache.push, hc.order_makeRoom, hcapacity,
    List.rtake_concat_succ, Nat.add_sub_cancel]

private theorem rtake_of_length_le {keys : List CacheKey} {n : Nat} (h : keys.length ≤ n) :
    keys.rtake n = keys := by
  rw [List.rtake, Nat.sub_eq_zero_of_le h, List.drop_zero]

private theorem rtake_append_rtake (keys more : List CacheKey) (n : Nat) :
    (keys.rtake n ++ more).rtake n = (keys ++ more).rtake n := by
  simp only [List.rtake, List.length_append, List.length_drop, List.drop_append, List.drop_drop]
  congr 2 <;> omega

/-- A member is among the last `n` if fewer than `n` follow it. -/
private theorem mem_rtake_iff {before after : List CacheKey} {n : Nat} (h : key ∉ after) :
    key ∈ (before ++ key :: after).rtake n ↔ after.length < n := by
  rw [List.rtake, List.drop_append, List.mem_append, List.length_append, List.length_cons]
  constructor
  · contrapose!
    intro hn
    obtain ⟨k, hk⟩ : ∃ k, before.length + (after.length + 1) - n - before.length = k + 1 :=
      ⟨after.length - n, by omega⟩
    rw [hk, List.drop_succ_cons, List.drop_of_length_le (by omega)]
    exact ⟨List.not_mem_nil, fun hkey => h (List.mem_of_mem_drop hkey)⟩
  · intro hn
    have hk : before.length + (after.length + 1) - n - before.length = 0 := by omega
    rw [hk, List.drop_zero]
    exact .inr List.mem_cons_self

@[simp]
theorem capacity_perform (c : Cache V) (op : CacheOperation V) :
    (c.perform op).capacity = c.capacity := by
  cases op with
  | insert key v =>
    obtain ⟨entries, order, evictions, heq⟩ := c.insert_eq key v
    rw [perform, heq]
  | get key =>
    obtain ⟨hits, misses, -, heq⟩ := c.get_snd key
    rw [perform, heq]
  | contains key => rfl
  | clear => rfl

@[simp]
theorem capacity_performAll (c : Cache V) (ops : List (CacheOperation V)) :
    (c.performAll ops).capacity = c.capacity := by
  induction ops generalizing c with
  | nil => rfl
  | cons op ops ih => exact (ih (c.perform op)).trans (c.capacity_perform op)

/-- How an operation other than clearing changes the order. -/
private theorem IsSound.order_perform (hc : c.IsSound) {op : CacheOperation V}
    (hop : op.isClear = false) :
    (c.perform op).order = (c.order ++ (c.arrival? op).toList).rtake c.capacity := by
  have hkept : c.order = (c.order ++ []).rtake c.capacity := by
    rw [List.append_nil, rtake_of_length_le (hc.size_eq ▸ hc.size_le)]
  cases op with
  | insert key v =>
    rw [Cache.perform, arrival?]
    split
    next h => rw [order_insert_of_contains h]; exact hkept
    next h => exact hc.order_insert (Bool.not_eq_true _ ▸ h)
  | get key =>
    obtain ⟨hits, misses, -, heq⟩ := c.get_snd key
    rw [Cache.perform, heq]
    exact hkept
  | contains key => exact hkept
  | clear => cases hop

/-- As long as nothing is cleared, the keys in a cache are the last ones that came in, as many as
there is room for. -/
theorem IsSound.order_performAll (hc : c.IsSound) {ops : List (CacheOperation V)}
    (hops : ∀ op ∈ ops, op.isClear = false) :
    (c.performAll ops).order = (c.order ++ c.arrivals ops).rtake c.capacity := by
  induction ops generalizing c with
  | nil =>
    rw [arrivals, List.append_nil, rtake_of_length_le (hc.size_eq ▸ hc.size_le)]
    rfl
  | cons op ops ih =>
    obtain ⟨hop, hrest⟩ := List.forall_mem_cons.mp hops
    have hnext := ih (hc.perform op) hrest
    rw [capacity_perform, hc.order_perform hop, rtake_append_rtake, List.append_assoc] at hnext
    exact hnext

/-! ### Which keys are there -/

/-- A key that is there after an operation was there before, or is the one that was inserted. -/
theorem contains_of_perform {op : CacheOperation V} (h : (c.perform op).contains key = true) :
    op.isClear = false ∧ (c.contains key = true ∨ ∃ v, op = .insert key v) := by
  cases op with
  | insert key' v =>
    refine ⟨rfl, ?_⟩
    by_cases heq : key = key'
    · exact .inr ⟨v, heq ▸ rfl⟩
    · obtain ⟨w, hw⟩ := Option.isSome_iff_exists.mp h
      exact .inl (Option.isSome_iff_exists.mpr ⟨w, find?_of_find?_insert heq hw⟩)
  | get key' =>
    rw [contains_iff, perform, entries_get, ← contains_iff] at h
    exact ⟨rfl, .inl h⟩
  | contains key' => exact ⟨rfl, .inl h⟩
  | clear => cases h

private theorem arrival?_eq_some {op : CacheOperation V} (h : c.arrival? op = some key) :
    c.contains key = false := by
  cases op with
  | insert key' v =>
    rw [arrival?] at h
    split at h
    next => cases h
    next hnew => exact Option.some.inj h ▸ Bool.not_eq_true _ ▸ hnew
  | get key' => cases h
  | contains key' => cases h
  | clear => cases h

/-- A key that is there at the end, but not at the start, has arrived some time and has stayed. -/
theorem exists_last_arrival {ops : List (CacheOperation V)} (hstart : c.contains key = false)
    (hend : (c.performAll ops).contains key = true) :
    ∃ before v after, ops = before ++ .insert key v :: after ∧
      (c.performAll before).contains key = false ∧ (∀ op ∈ after, op.isClear = false) ∧
      key ∉ ((c.performAll before).insert key v).arrivals after := by
  -- by induction from the end: the last operation is the arrival, or the key was there before it
  induction ops using List.reverseRecOn with
  | nil => exact absurd hend (by simp [performAll, hstart])
  | append_singleton ops op ih =>
    rw [performAll_append] at hend
    obtain ⟨hop, hkey⟩ := contains_of_perform hend
    cases hmid : (c.performAll ops).contains key with
    | false =>
      obtain h | ⟨v, rfl⟩ := hkey
      · exact absurd h (by simp [hmid])
      · exact ⟨ops, v, [], rfl, hmid, by simp, List.not_mem_nil⟩
    | true =>
      obtain ⟨before, v, after, rfl, hnew, hclear, harrivals⟩ := ih hmid
      refine ⟨before, v, after ++ [op], by simp, hnew, ?_, ?_⟩
      · exact List.forall_mem_append.mpr ⟨hclear, List.forall_mem_singleton.mpr hop⟩
      · rw [performAll_append] at hmid
        rw [arrivals_append, List.mem_append, arrivals, arrivals, List.append_nil]
        rintro (h | h)
        · exact harrivals h
        · exact Bool.false_ne_true
            ((arrival?_eq_some (Option.mem_toList.mp h)).symm.trans hmid)

/-- After a key has arrived and as long as nothing is cleared, it stays until as many other keys
have arrived as there is room for. -/
theorem IsSound.contains_iff_of_arrival (hc : c.IsSound) (hnew : c.contains key = false)
    {after : List (CacheOperation V)} (hclear : ∀ op ∈ after, op.isClear = false)
    (hkey : key ∉ (c.insert key v).arrivals after) :
    ((c.insert key v).performAll after).contains key = true ↔
      ((c.insert key v).arrivals after).length < c.capacity := by
  have hinsert : (c.insert key v).IsSound := hc.insert
  obtain ⟨entries, order, evictions, heq⟩ := c.insert_eq key v
  have hcapacity : (c.insert key v).capacity = c.capacity := by rw [heq]
  rw [(hinsert.performAll after).contains_iff, hinsert.order_performAll hclear,
    hc.order_insert hnew, hcapacity, rtake_append_rtake, List.append_assoc, List.singleton_append,
    mem_rtake_iff hkey]

/-! ### What is under a key -/

/-- What is under a key was put there by the operation, or was there before. -/
theorem find?_perform {op : CacheOperation V} (h : (c.perform op).find? key = some w) :
    (op.put? key).or (c.find? key) = some w := by
  cases op with
  | insert key' v =>
    rw [CacheOperation.put?]
    split
    next heq => rwa [heq, perform, find?_insert_self] at h
    next hne => exact find?_of_find?_insert (Ne.symm hne) h
  | get key' =>
    rw [perform, find?, entries_get] at h
    exact h
  | contains key' => exact h
  | clear => cases h

/-- What is under a key was put there last, or has been there from the start. -/
private theorem find?_performAll {ops : List (CacheOperation V)}
    (h : (c.performAll ops).find? key = some w) :
    (lastPut? key ops).or (c.find? key) = some w := by
  induction ops using List.reverseRecOn generalizing w with
  | nil => exact h
  | append_singleton ops op ih =>
    rw [performAll_append] at h
    have hlast := find?_perform h
    rw [CacheOperation.lastPut?_concat, Option.or_assoc]
    cases hput : op.put? key with
    | some v => rwa [hput] at hlast
    | none =>
      rw [hput, Option.none_or] at hlast
      exact ih hlast

/-! ### What has been counted -/

private theorem hits_add_misses_perform (c : Cache V) (op : CacheOperation V) :
    (c.perform op).hits + (c.perform op).misses
      = c.hits + c.misses + if op.isGet then 1 else 0 := by
  cases op with
  | insert key v =>
    obtain ⟨entries, order, evictions, heq⟩ := c.insert_eq key v
    rw [perform, heq]
    rfl
  | get key =>
    obtain ⟨hits, misses, hcount, heq⟩ := c.get_snd key
    rw [perform, heq]
    exact hcount
  | contains key => rfl
  | clear => rfl

/-- Each look-up that counts is counted once, as a hit or as a miss. -/
private theorem hits_add_misses_performAll (c : Cache V) (ops : List (CacheOperation V)) :
    (c.performAll ops).hits + (c.performAll ops).misses
      = c.hits + c.misses + ops.countP CacheOperation.isGet := by
  induction ops generalizing c with
  | nil => rfl
  | cons op ops ih =>
    have hnext := ih (c.perform op)
    rw [hits_add_misses_perform] at hnext
    rw [List.countP_cons, ← Nat.add_assoc, Nat.add_right_comm]
    exact hnext

private theorem IsSound.evictions_insert_le (hc : c.IsSound) :
    (c.insert key v).evictions ≤ c.evictions + 1 := by
  rw [Cache.insert]
  split
  · exact Nat.le_succ c.evictions
  · exact hc.evictions_makeRoom_le

/-- Each value that has arrived is there, was dropped for room and counted, or went with all
others. -/
theorem IsSound.evictions_perform (hc : c.IsSound) (op : CacheOperation V) :
    (c.perform op).evictions + (if op.isClear then c.size else 0) + (c.perform op).size
      = c.evictions + c.size + (c.arrival? op).toList.length := by
  cases op with
  | insert key v =>
    rw [Cache.perform, Cache.insert, arrival?]
    split
    next => simp [Cache.replace, size, CacheOperation.isClear]
    next =>
      have hroom := hc.evictions_makeRoom
      simp only [Cache.push, size, CacheOperation.isClear] at hroom ⊢
      simpa [← Nat.add_assoc] using hroom
  | get key =>
    obtain ⟨hits, misses, -, heq⟩ := c.get_snd key
    rw [Cache.perform, heq]
    rfl
  | contains key => rfl
  | clear => rfl

/-- The balance of what has arrived, over a whole history. -/
private theorem IsSound.evictions_performAll (hc : c.IsSound) (ops : List (CacheOperation V)) :
    (c.performAll ops).evictions + c.cleared ops + (c.performAll ops).size
      = c.evictions + c.size + (c.arrivals ops).length := by
  induction ops generalizing c with
  | nil => rfl
  | cons op ops ih =>
    have hstep := hc.evictions_perform op
    have hrest := ih (hc.perform op)
    rw [cleared, arrivals, List.length_append]
    change ((c.perform op).performAll ops).evictions + _
      + ((c.perform op).performAll ops).size = _
    omega

/-! ### From the empty cache on -/

/-- The cache with so much room on which some operations have been performed. -/
def ofHistory (capacity : Nat) (ops : List (CacheOperation V)) : Cache V :=
  (empty capacity).performAll ops

private theorem isSound_ofHistory (capacity : Nat) (ops : List (CacheOperation V)) :
    (ofHistory capacity ops).IsSound :=
  (isSound_empty capacity).performAll ops

private theorem capacity_ofHistory (capacity : Nat) (ops : List (CacheOperation V)) :
    (ofHistory capacity ops).capacity = max capacity 1 :=
  capacity_performAll (empty capacity) ops

/-- A key has arrived in a history, and since it did so last nothing has been cleared and fewer
other keys have arrived than there is room for. -/
def Stays (capacity : Nat) (ops : List (CacheOperation V)) (key : CacheKey) : Prop :=
  ∃ before v after, ops = before ++ .insert key v :: after ∧
    (ofHistory capacity before).contains key = false ∧
    (∀ op ∈ after, op.isClear = false) ∧
    key ∉ ((ofHistory capacity before).insert key v).arrivals after ∧
    (((ofHistory capacity before).insert key v).arrivals after).length < max capacity 1

/-- What a history decides about the cache that it leads to. -/
structure Recounts (capacity : Nat) (ops : List (CacheOperation V)) : Prop where
  contains_iff : ∀ key, (ofHistory capacity ops).contains key = true ↔ Stays capacity ops key
  /-- Looking up a key that is there gives what was put under it last. -/
  get_iff : ∀ key v, ((ofHistory capacity ops).get key).1 = some v ↔
    (ofHistory capacity ops).contains key = true ∧ lastPut? key ops = some v
  order_nodup : (ofHistory capacity ops).order.Nodup
  keys_perm : ((ofHistory capacity ops).entries.map Prod.fst).Perm (ofHistory capacity ops).order
  size_le : (ofHistory capacity ops).size ≤ max capacity 1
  /-- Another insertion drops one value at most. -/
  evictions_insert_le : ∀ key v, ((ofHistory capacity ops).insert key v).evictions
    ≤ (ofHistory capacity ops).evictions + 1
  hits_add_misses : (ofHistory capacity ops).hits + (ofHistory capacity ops).misses
    = ops.countP CacheOperation.isGet
  /-- What has arrived was dropped for room, went when everything was cleared, or is there. -/
  evictions_add : (ofHistory capacity ops).evictions + (empty capacity).cleared ops
    + (ofHistory capacity ops).size = ((empty capacity).arrivals ops).length

/-- A key is there just if it has arrived and has stayed. -/
theorem contains_ofHistory_iff (capacity : Nat) (ops : List (CacheOperation V))
    (key : CacheKey) : (ofHistory capacity ops).contains key = true ↔ Stays capacity ops key := by
  have hstay {before : List (CacheOperation V)} {v : V} {after : List (CacheOperation V)}
      (hnew : (ofHistory capacity before).contains key = false)
      (hclear : ∀ op ∈ after, op.isClear = false)
      (hkey : key ∉ ((ofHistory capacity before).insert key v).arrivals after) :
      (ofHistory capacity (before ++ .insert key v :: after)).contains key = true ↔
        (((ofHistory capacity before).insert key v).arrivals after).length < max capacity 1 := by
    have hiff := (isSound_ofHistory capacity before).contains_iff_of_arrival hnew hclear hkey
    rw [capacity_ofHistory] at hiff
    rw [ofHistory, performAll_append]
    exact hiff
  constructor
  · intro hend
    obtain ⟨before, v, after, rfl, hnew, hclear, hkey⟩ := exists_last_arrival rfl hend
    exact ⟨before, v, after, rfl, hnew, hclear, hkey, (hstay hnew hclear hkey).mp hend⟩
  · rintro ⟨before, v, after, rfl, hnew, hclear, hkey, hfew⟩
    exact (hstay hnew hclear hkey).mpr hfew

/-- What is found under a key that is there was put there last. -/
private theorem get_ofHistory_iff (capacity : Nat) (ops : List (CacheOperation V)) (key : CacheKey)
    (v : V) : ((ofHistory capacity ops).get key).1 = some v ↔
      (ofHistory capacity ops).contains key = true ∧ lastPut? key ops = some v := by
  have hlast {w : V} (h : (ofHistory capacity ops).find? key = some w) :
      lastPut? key ops = some w := by
    have hput := find?_performAll h
    rwa [show (empty capacity : Cache V).find? key = none from rfl, Option.or_none] at hput
  rw [get_fst]
  constructor
  · intro h
    exact ⟨Option.isSome_iff_exists.mpr ⟨v, h⟩, hlast h⟩
  · rintro ⟨hthere, hput⟩
    obtain ⟨w, hw⟩ := Option.isSome_iff_exists.mp hthere
    rw [hw, ← hlast hw, hput]

/-- A cache is what its history says, whatever is performed on it. -/
theorem recounts_run (capacity : Nat) (ops : List (CacheOperation V)) :
    Recounts capacity ops where
  contains_iff := contains_ofHistory_iff capacity ops
  get_iff := get_ofHistory_iff capacity ops
  order_nodup := (isSound_ofHistory capacity ops).order_nodup
  keys_perm := (isSound_ofHistory capacity ops).keys_perm
  size_le := capacity_ofHistory capacity ops ▸ (isSound_ofHistory capacity ops).size_le
  evictions_insert_le := fun _ _ => (isSound_ofHistory capacity ops).evictions_insert_le
  hits_add_misses :=
    (hits_add_misses_performAll (empty capacity) ops).trans (Nat.zero_add _)
  evictions_add :=
    ((isSound_empty capacity).evictions_performAll ops).trans (Nat.zero_add _)

end Cache

end TransitQuery
