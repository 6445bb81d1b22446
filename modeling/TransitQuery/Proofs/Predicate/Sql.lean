import TransitQuery.Predicate.Sql
import TransitQuery.Proofs.Scalar.Plain
import TransitQuery.Proofs.Text.Words

/-!
# Words of SQL

Names and texts stand between quotes, numbers and functions are words, and a point, a boundary or a
comparison is made of these. Each ends by itself: a text that starts with one tells which it is and
where it ends, whatever the names and texts hold. What follows a number or a quote must not
prolong it, so a space, a comma or a closing parenthesis has to stand there.

The lemmas come in two sorts. Those that end in `append_inj` say that two texts with the same form
and anything behind them are made from the same parts, and that the rests are the same. Those that
end in `append` only put the text of a form in front of what follows, as the first ones need it.

A quote inside of a name or a text is doubled, and so the first quote that is not ends it
(`Sql.enclosed_append_inj`). The first word of a text (`Sql.opening`) tells a function from a
quoted name, from a parenthesis and from the words for truth values. That is all the grammar that
is needed to tell conditions apart; to read them there is more in `Sql.Reader`.
-/

namespace TransitQuery

namespace Sql

/-- What may stand behind a name, a text, a number or a condition: nothing, or something that
starts with a space, a comma or a closing parenthesis. -/
def IsEnd (s : List Char) : Prop :=
  ∀ c ∈ s.head?, c = ' ' ∨ c = ',' ∨ c = ')'

@[simp]
theorem isEnd_nil : IsEnd [] := by
  simp [IsEnd]

@[simp]
theorem isEnd_cons {c : Char} {s : List Char} :
    IsEnd (c :: s) ↔ c = ' ' ∨ c = ',' ∨ c = ')' := by
  simp [IsEnd]

theorem IsEnd.head_ne {s : List Char} (h : IsEnd s) {d : Char} (hd : d ≠ ' ' ∧ d ≠ ',' ∧ d ≠ ')') :
    ∀ c ∈ s.head?, c ≠ d := by
  rintro c hc rfl
  rcases h c hc with rfl | rfl | rfl
  · exact hd.1 rfl
  · exact hd.2.1 rfl
  · exact hd.2.2 rfl

theorem IsEnd.isDelimiter {s : List Char} (h : IsEnd s) :
    ∀ c ∈ s.head?, (!Text.isDelimiter c) = false := by
  intro c hc
  rcases h c hc with rfl | rfl | rfl <;> decide

/-- A text between quotes that are no end is known, and so is what stands behind it. -/
theorem enclosed_append_inj {quote : Char} (hquote : quote ≠ ' ' ∧ quote ≠ ',' ∧ quote ≠ ')')
    {a b : String} {s t : List Char} (hs : IsEnd s) (ht : IsEnd t)
    (h : Text.enclosed quote a.toList ++ s = Text.enclosed quote b.toList ++ t) :
    a = b ∧ s = t := by
  obtain ⟨htext, heq⟩ := Text.enclosed_append_inj (hs.head_ne hquote) (ht.head_ne hquote) h
  exact ⟨String.toList_inj.mp htext, heq⟩

/-- A name in quotes is known from its text. -/
theorem identifier_append_inj {a b : String} {s t : List Char} (hs : IsEnd s) (ht : IsEnd t)
    (h : identifier a ++ s = identifier b ++ t) : a = b ∧ s = t :=
  enclosed_append_inj (by decide) hs ht h

theorem literal_append_inj {a b : String} {s t : List Char} (hs : IsEnd s) (ht : IsEnd t)
    (h : literal a ++ s = literal b ++ t) : a = b ∧ s = t :=
  enclosed_append_inj (by decide) hs ht h

/-- A call, in front of what follows. -/
theorem call_append (name : String) (arguments : List (List Char)) (s : List Char) :
    call name arguments ++ s =
      name.toList ++ '(' :: (Text.separated [',', ' '] arguments ++ ')' :: s) := by
  simp [call]

/-- Calls of one function have the same text behind its name. -/
private theorem call_append_inj {name : String} {as bs : List (List Char)} {s t : List Char}
    (h : call name as ++ s = call name bs ++ t) :
    Text.separated [',', ' '] as ++ ')' :: s = Text.separated [',', ' '] bs ++ ')' :: t := by
  rw [call_append, call_append] at h
  exact (List.cons.inj (List.append_cancel_left h)).2

/-- Calls of one function with two arguments have the same text behind the name. -/
theorem call_pair_append_inj {name : String} {a b a' b' s t : List Char}
    (h : call name [a, b] ++ s = call name [a', b'] ++ t) :
    a ++ ',' :: ' ' :: (b ++ ')' :: s) = a' ++ ',' :: ' ' :: (b' ++ ')' :: t) := by
  simpa [Text.separated] using call_append_inj h

/-- An operation, in front of what follows. -/
theorem operation_append (left : List Char) (operator : String) (right s : List Char) :
    operation left operator right ++ s =
      left ++ ' ' :: (operator.toList ++ ' ' :: (right ++ s)) := by
  simp [operation]

/-- What is put in parentheses, in front of what follows. -/
theorem grouped_append (s t : List Char) : grouped s ++ t = '(' :: (s ++ ')' :: t) := by
  simp [grouped]

/-! ### The first word -/

/-- The first word of a text, or its first character where it starts with no word. -/
def opening (s : List Char) : List Char :=
  match s.takeWhile (!Text.isDelimiter ·) with
  | [] => s.take 1
  | word => word

/-- A word that is followed by a delimiter, or by nothing, opens a text. -/
theorem opening_word {word s : List Char} (hword : ∀ c ∈ word, (!Text.isDelimiter c) = true)
    (hne : word ≠ []) (hs : ∀ c ∈ s.head?, (!Text.isDelimiter c) = false) :
    opening (word ++ s) = word := by
  rw [opening, Text.takeWhile_append_of_head? hword hs]
  split
  · rename_i h
    exact absurd rfl hne
  · rfl

/-- So does a single delimiter. -/
theorem opening_delimiter {c : Char} (hc : Text.isDelimiter c = true) (s : List Char) :
    opening (c :: s) = [c] := by
  simp [opening, hc]

/-! ### Points, boundaries and comparisons -/

variable {R : Type} [Scalar R]

/-- The four comparisons of an overlap, in front of what follows. -/
theorem overlap_append (columns : BoxColumns) (box : Box R) (s : List Char) :
    overlap columns box ++ s =
      '(' :: (comparison columns.minx "<=" box.maxx ++ " AND ".toList ++
        (comparison columns.maxx ">=" box.minx ++ " AND ".toList ++
          (comparison columns.miny "<=" box.maxy ++ " AND ".toList ++
            (comparison columns.maxy ">=" box.miny ++ ')' :: s)))) := by
  simp [overlap, grouped, Text.separated]

/-- A disc has a point in its middle, a boundary never has. -/
theorem disc_append_ne_shape {p : LatLng R} {wkt : String} {x y : R} {s t : List Char} :
    buffered (point p) x ++ s ≠ shape wkt y ++ t := by
  intro h
  unfold shape buffered point at h
  dsimp only at h
  split at h
  · have harguments := call_pair_append_inj h
    simp [call] at harguments
  · simp [call] at h

variable [PlainScalar R]

private theorem chars_append_inj {x y : R} {s t : List Char} (hs : IsEnd s) (ht : IsEnd t)
    (h : Scalar.chars x ++ s = Scalar.chars y ++ t) : x = y ∧ s = t := by
  have hword : ∀ {x : R}, ∀ c ∈ Scalar.chars x, (!Text.isDelimiter c) = true := by
    intro x c hc
    rw [PlainScalar.isDelimiter_eq_false hc]
    rfl
  obtain ⟨hchars, heq⟩ := Text.word_append_inj hword hword hs.isDelimiter ht.isDelimiter h
  exact ⟨PlainScalar.eq_of_chars_eq hchars, heq⟩

private theorem point_append_inj {p q : LatLng R} {s t : List Char}
    (h : point p ++ s = point q ++ t) :
    p = q ∧ s = t := by
  obtain ⟨hlng, hrest⟩ := chars_append_inj (by simp) (by simp) (call_pair_append_inj h)
  obtain ⟨hlat, hend⟩ :=
    chars_append_inj (by simp) (by simp) (List.cons.inj (List.cons.inj hrest).2).2
  have hpoint : p = q := by
    cases p
    cases q
    simp_all
  exact ⟨hpoint, (List.cons.inj hend).2⟩

/-- A function of a column and a shape gives away the column, and the shape is left to read. -/
theorem relation_append_inj {name a b : String} {shape shape' s t : List Char}
    (h : call name [identifier a, shape] ++ s = call name [identifier b, shape'] ++ t) :
    a = b ∧ shape ++ ')' :: s = shape' ++ ')' :: t := by
  obtain ⟨hname, hrest⟩ := identifier_append_inj (by simp) (by simp) (call_pair_append_inj h)
  exact ⟨hname, (List.cons.inj (List.cons.inj hrest).2).2⟩

/-- A disc is known from its text. -/
theorem disc_append_inj {p q : LatLng R} {x y : R} {s t : List Char}
    (h : buffered (point p) x ++ s = buffered (point q) y ++ t) : p = q ∧ x = y ∧ s = t := by
  obtain ⟨hpoint, hrest⟩ := point_append_inj (call_pair_append_inj h)
  obtain ⟨hradius, hend⟩ :=
    chars_append_inj (by simp) (by simp) (List.cons.inj (List.cons.inj hrest).2).2
  exact ⟨hpoint, hradius, (List.cons.inj hend).2⟩

/-- A boundary is known from its text, and so is its buffer where it is positive. -/
theorem shape_append_inj {wkt wkt' : String} {x y : R} {s t : List Char}
    (h : shape wkt x ++ s = shape wkt' y ++ t) :
    wkt = wkt' ∧ (Scalar.zero < x ↔ Scalar.zero < y) ∧ (Scalar.zero < x → x = y) ∧ s = t := by
  have hplain : ∀ {s t : List Char},
      call "ST_GeomFromText" [literal wkt] ++ s = call "ST_GeomFromText" [literal wkt'] ++ t →
        wkt = wkt' ∧ s = t := by
    intro s t h
    obtain ⟨hwkt, hrest⟩ := literal_append_inj (by simp) (by simp) (call_append_inj h)
    exact ⟨hwkt, (List.cons.inj hrest).2⟩
  unfold shape buffered at h
  dsimp only at h
  -- A widened shape and a plain one start with different functions.
  by_cases hx : Scalar.zero < x <;> by_cases hy : Scalar.zero < y
  · rw [if_pos hx, if_pos hy] at h
    obtain ⟨hwkt, hrest⟩ := hplain (call_pair_append_inj h)
    obtain ⟨hbuffer, hend⟩ :=
      chars_append_inj (by simp) (by simp) (List.cons.inj (List.cons.inj hrest).2).2
    exact ⟨hwkt, by simp [hx, hy], fun _ => hbuffer, (List.cons.inj hend).2⟩
  · rw [if_pos hx, if_neg hy, call_append, call_append] at h
    simp at h
  · rw [if_neg hx, if_pos hy, call_append, call_append] at h
    simp at h
  · rw [if_neg hx, if_neg hy] at h
    obtain ⟨hwkt, hend⟩ := hplain h
    exact ⟨hwkt, by simp [hx, hy], fun h => absurd h hx, hend⟩

/-- A comparison is known from its text. -/
theorem comparison_append_inj {a b : String} {operator : String} {x y : R} {s t : List Char}
    (hs : IsEnd s) (ht : IsEnd t)
    (h : comparison a operator x ++ s = comparison b operator y ++ t) :
    a = b ∧ x = y ∧ s = t := by
  rw [comparison, comparison, operation_append, operation_append] at h
  obtain ⟨hname, hrest⟩ := identifier_append_inj (by simp) (by simp) h
  have hright := List.append_cancel_left (List.cons.inj hrest).2
  obtain ⟨hvalue, hend⟩ := chars_append_inj hs ht (List.cons.inj hright).2
  exact ⟨hname, hvalue, hend⟩

/-- The distance from a column to a point, compared with a radius, is known from its text. -/
theorem distance_append_inj {name operator a b : String} {p q : LatLng R} {x y : R}
    {s t : List Char} (hs : IsEnd s) (ht : IsEnd t)
    (h : operation (call name [identifier a, point p]) operator (Scalar.chars x) ++ s =
      operation (call name [identifier b, point q]) operator (Scalar.chars y) ++ t) :
    a = b ∧ p = q ∧ x = y ∧ s = t := by
  rw [operation_append, operation_append] at h
  obtain ⟨hname, hpoint⟩ := relation_append_inj h
  obtain ⟨hpoint, hrest⟩ := point_append_inj hpoint
  have hright := List.append_cancel_left (List.cons.inj (List.cons.inj hrest).2).2
  obtain ⟨hvalue, hend⟩ := chars_append_inj hs ht (List.cons.inj hright).2
  exact ⟨hname, hpoint, hvalue, hend⟩

/-- An overlap is known from its text, with its columns and its box. -/
theorem overlap_append_inj {columns columns' : BoxColumns} {box box' : Box R} {s t : List Char}
    (h : overlap columns box ++ s = overlap columns' box' ++ t) :
    columns = columns' ∧ box = box' ∧ s = t := by
  have hand : ∀ s : List Char, IsEnd (" AND ".toList ++ s) := by simp
  rw [overlap_append, overlap_append] at h
  simp only [List.append_assoc] at h
  obtain ⟨h₁, hmaxx, hrest⟩ := comparison_append_inj (hand _) (hand _) (List.cons.inj h).2
  obtain ⟨h₂, hminx, hrest⟩ :=
    comparison_append_inj (hand _) (hand _) (List.append_cancel_left hrest)
  obtain ⟨h₃, hmaxy, hrest⟩ :=
    comparison_append_inj (hand _) (hand _) (List.append_cancel_left hrest)
  obtain ⟨h₄, hminy, hend⟩ :=
    comparison_append_inj (by simp) (by simp) (List.append_cancel_left hrest)
  have hcolumns : columns = columns' := by
    cases columns
    cases columns'
    simp_all
  have hbox : box = box' := by
    cases box
    cases box'
    simp_all
  exact ⟨hcolumns, hbox, (List.cons.inj hend).2⟩

end Sql

end TransitQuery
