import TransitQuery.Proofs.Predicate.Reads
import TransitQuery.Store

/-!
# Answers of a store

A store reduces the rows that it returns and drops those whose text has occurred before. For what
is read off the columns that were asked for neither makes a difference: whatever the rows of the
answer are mapped to, each result once and in order, it is what the full rows are mapped to
(`Request.eraseDups_filterMap_reduced`). That rests on equal texts standing for equal rows.

Two rows with one text are equal if their numbers are finite (`Row.eq_of_text_eq`), because their
members are then known from the text. So dropping later rows with the same text drops only
repetitions, and what they are mapped to has occurred before. The statement is about any map from
rows to results, with `none` for rows that do not count, and about the list of distinct results in
order; identifiers and refinements are such maps.

Loading comes in by `Store.rows?_of_load`: the table that is made from a collection has one row for
each feature, and other tables are left as they are.
-/

namespace TransitQuery

/-! ### Dropping what has occurred before -/

section

variable {α β : Type}

/-- Members that are mapped to nothing can be left out beforehand. -/
theorem filterMap_filter_eq {p : α → Bool} {g : α → Option β} {as : List α}
    (h : ∀ a ∈ as, p a = false → g a = none) : (as.filter p).filterMap g = as.filterMap g := by
  rw [List.filterMap_filter]
  refine List.filterMap_congr fun a ha => ?_
  cases hp : p a with
  | true => rfl
  | false => rw [h a ha hp]; rfl

/-- Dropping members that a map cannot tell from an earlier one leaves its distinct results as
they are. -/
theorem eraseDups_filterMap_eraseDupsBy [BEq β] [LawfulBEq β] {r : α → α → Bool}
    {g : α → Option β} {as : List α} (h : ∀ a ∈ as, ∀ b ∈ as, r b a = true → g b = g a) :
    ((as.eraseDupsBy r).filterMap g).eraseDups = (as.filterMap g).eraseDups := by
  match as with
  | [] => rfl
  | a :: rest =>
    have hrest : ∀ b ∈ rest, r b a = true → g b = g a := fun b hb =>
      h a List.mem_cons_self b (List.mem_cons_of_mem a hb)
    have hkept : ∀ b ∈ rest.filter fun b => r b a = false, ∀ c ∈ rest.filter fun b => r b a = false,
        r c b = true → g c = g b := fun b hb c hc =>
      h b (List.mem_cons_of_mem a (List.mem_of_mem_filter hb)) c
        (List.mem_cons_of_mem a (List.mem_of_mem_filter hc))
    rw [List.eraseDupsBy_cons, List.filterMap_cons, List.filterMap_cons]
    cases hg : g a with
    | none =>
      rw [eraseDups_filterMap_eraseDupsBy hkept, filterMap_filter_eq fun b hb hr => ?_]
      rw [hrest b hb (by simpa using hr), hg]
    | some x =>
      -- what comes later counts only as far as it is mapped to something else
      dsimp only
      rw [List.eraseDups_cons, List.eraseDups_cons, List.filter_filterMap, List.filter_filterMap,
        eraseDups_filterMap_eraseDupsBy fun b hb c hc hr => by rw [hkept b hb c hc hr],
        filterMap_filter_eq fun b hb hr => ?_]
      rw [hrest b hb (by simpa using hr), hg]
      simp
termination_by as.length
decreasing_by
  all_goals exact Nat.lt_succ_of_le (List.length_filter_le _ _)

theorem nodup_eraseDups [BEq β] [LawfulBEq β] (bs : List β) : bs.eraseDups.Nodup := by
  match bs with
  | [] => exact List.nodup_nil
  | b :: rest =>
    rw [List.eraseDups_cons, List.nodup_cons, List.mem_eraseDups]
    exact ⟨by simp, nodup_eraseDups _⟩
termination_by bs.length
decreasing_by
  exact Nat.lt_succ_of_le (List.length_filter_le _ _)

end

variable {R : Type}

/-! ### Adding rows -/

namespace Store

/-- A table that was not there has the rows that are put into it. -/
private theorem rows?_insert_of_none {s : Store R} {table : String} (h : s.rows? table = none)
    (rows : List (Row R)) : (s.insert table rows).rows? table = some rows := by
  have hnone : s.tables.find? (·.1 = table) = none := by simpa [rows?] using h
  rw [insert, h]
  dsimp only
  rw [rows?, List.find?_append, hnone, Option.none_or]
  simp

theorem rows?_insert_of_ne {s : Store R} {table other : String} (hne : other ≠ table)
    (rows : List (Row R)) : (s.insert other rows).rows? table = s.rows? table := by
  unfold insert
  split
  · simp [rows?, hne]
  · -- the tables keep their names, and the one that is looked for is left as it was
    simp only [rows?, List.find?_map, Option.map_map]
    have hkey : ((fun t : String × List (Row R) => decide (t.1 = table)) ∘
        fun t => if t.1 = other then (other, t.2 ++ rows) else t) =
          fun t => decide (t.1 = table) := by
      funext t
      simp only [Function.comp_apply]
      split
      · rename_i h
        rw [h]
      · rfl
    rw [hkey]
    refine Option.map_congr fun t ht => ?_
    have htable : t.1 = table := by simpa using List.find?_some ht
    simp [htable, Ne.symm hne]

/-- The features of a collection make the table into which they are loaded, if it was not there. -/
theorem rows?_of_load [Scalar R] {s s' : Store R} {table : String} {columns : BoxColumns}
    {column : String} {collection : Json R} {features : List (Json R)}
    (hfeatures : (collection.member? "features").bind Json.items? = some features)
    (hnone : s.rows? table = none) (h : s.load table columns column collection = .ok s') :
    s'.rows? table = some (features.map (Row.ofFeature columns column)) := by
  rw [load, Row.ofCollection, hfeatures] at h
  obtain rfl := Except.ok.inj h
  exact rows?_insert_of_none hnone _

end Store

/-! ### Answering -/

variable [Scalar R] [LegibleScalar R]

namespace Row

/-- Rows with one text are the same. -/
theorem eq_of_text_eq {row row' : Row R} (h : row.hasFiniteNumbers = true)
    (h' : row'.hasFiniteNumbers = true) (htext : row.text = row'.text) : row = row' := by
  have heq : Json.obj row = Json.obj row' := Json.eq_of_compactChars_eq h h' htext
  exact Json.obj.inj heq

/-- Dropping rows with a text that has occurred before loses nothing that rows are mapped to. -/
theorem eraseDups_filterMap_distinct {β : Type} [BEq β] [LawfulBEq β] {rows : List (Row R)}
    (h : ∀ row ∈ rows, row.hasFiniteNumbers = true) (g : Row R → Option β) :
    ((distinct rows).filterMap g).eraseDups = (rows.filterMap g).eraseDups := by
  rw [distinct, List.filterMap_map, eraseDups_filterMap_eraseDupsBy, List.filterMap_map]
  · rfl
  · intro a ha b hb hab
    obtain ⟨row, hrow, rfl⟩ := List.mem_map.mp ha
    obtain ⟨row', hrow', rfl⟩ := List.mem_map.mp hb
    have heq := eq_of_text_eq (h row' hrow') (h row hrow) (by simpa using hab)
    rw [heq]

end Row

namespace Request

/-- Reading the columns of a request off its answer or off the full rows comes to the same. -/
theorem eraseDups_filterMap_reduced {β : Type} [BEq β] [LawfulBEq β] (r : Request R)
    {rows : List (Row R)} (h : ∀ row ∈ rows, row.hasFiniteNumbers = true) {g : Row R → Option β}
    (hg : ∀ row, g (row.project r.columns) = g row) :
    ((Row.distinct (rows.map (Row.project r.columns))).filterMap g).eraseDups =
      (rows.filterMap g).eraseDups := by
  have hreduced : ∀ row ∈ rows.map (Row.project r.columns), row.hasFiniteNumbers = true := by
    intro row hrow
    obtain ⟨full, hfull, rfl⟩ := List.mem_map.mp hrow
    exact Row.hasFiniteNumbers_project (h full hfull) r.columns
  rw [Row.eraseDups_filterMap_distinct hreduced, List.filterMap_map]
  congr 1
  exact List.filterMap_congr fun row _ => hg row

end Request

end TransitQuery
