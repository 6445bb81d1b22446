import TransitQuery.Text.Blank
import Mathlib.Data.List.Basic

/-!
# Trimmed text

Trimming takes away the blanks around a text and nothing else: a text that neither starts nor ends
with one comes out of any blanks around it as it is (`Text.trimmed_eq`).

Blanks are those of Unicode. A text that is trim (`Text.IsTrim`) may hold blanks inside, and they
are kept. Trimming works from the start, then on the reversed text, and reversing keeps both blanks
and trim texts what they are (`Text.IsBlanks.reverse`, `Text.IsTrim.reverse`), so each of the two
steps is the same lemma.

The result is used for Well-Known Text, which may be given with blanks around it, for cells that
hold such a text, and for the values of blocks: one that is made of blanks alone counts as empty
(`Text.trimmed_of_isBlankString`).
-/

namespace TransitQuery

namespace Text

/-- A list of blanks. -/
def IsBlanks (s : List Char) : Prop :=
  ∀ c ∈ s, isBlank c = true

/-- Trimming stops at the first other character. -/
theorem trimStart_cons {c : Char} {s : List Char} (h : isBlank c = false) :
    trimStart (c :: s) = c :: s := by
  rw [trimStart, List.dropWhile_cons, if_neg (by simp [h])]

private theorem trimStart_append {blanks s : List Char} (h : IsBlanks blanks) :
    trimStart (blanks ++ s) = trimStart s :=
  List.dropWhile_append_of_pos h

private theorem trimStart_of_isBlanks {s : List Char} (h : IsBlanks s) : trimStart s = [] := by
  rw [← List.append_nil s, trimStart_append h]
  rfl

theorem IsBlanks.reverse {s : List Char} (h : IsBlanks s) : IsBlanks s.reverse :=
  fun c hc => h c (List.mem_reverse.mp hc)

/-- A text that neither starts nor ends with a blank. -/
structure IsTrim (s : List Char) : Prop where
  head : ∃ c rest, s = c :: rest ∧ isBlank c = false
  last : ∃ c rest, s = rest ++ [c] ∧ isBlank c = false

/-- A trim text is left as it is. -/
private theorem IsTrim.trimStart_eq {s : List Char} (h : IsTrim s) (rest : List Char) :
    trimStart (s ++ rest) = s ++ rest := by
  obtain ⟨c, t, rfl, hc⟩ := h.head
  exact trimStart_cons hc

theorem IsTrim.reverse {s : List Char} (h : IsTrim s) : IsTrim s.reverse := by
  obtain ⟨⟨c, t, hct, hc⟩, d, u, hdu, hd⟩ := h
  exact ⟨⟨d, u.reverse, by rw [hdu, List.reverse_concat], hd⟩,
    ⟨c, t.reverse, by rw [hct, List.reverse_cons], hc⟩⟩

/-- Blanks around a text are taken away. -/
theorem trim_eq {before s after : List Char} (hbefore : IsBlanks before) (hs : IsTrim s)
    (hafter : IsBlanks after) : trim (before ++ s ++ after) = s := by
  have hstop := hs.reverse.trimStart_eq []
  rw [List.append_nil] at hstop
  rw [trim, List.append_assoc, trimStart_append hbefore, hs.trimStart_eq, List.reverse_append,
    trimStart_append hafter.reverse, hstop, List.reverse_reverse]

theorem trimmed_eq {before s after : List Char} (hbefore : IsBlanks before) (hs : IsTrim s)
    (hafter : IsBlanks after) :
    trimmed (String.ofList (before ++ s ++ after)) = String.ofList s := by
  rw [trimmed, String.toList_ofList, trim_eq hbefore hs hafter]

/-- Of blanks alone nothing is left. -/
theorem trimmed_of_isBlankString {s : String} (h : isBlankString s = true) : trimmed s = "" := by
  rw [trimmed, trim, trimStart_of_isBlanks (List.all_eq_true.mp h)]
  rfl

end Text

end TransitQuery
