import TransitQuery.Text.Joined
import Mathlib.Data.List.Basic

/-!
# Texts that end by themselves

A word ends where something follows that cannot belong to it, and a text between quotes ends at
its second quote, however many quotes it holds. So both are known from any text that starts with
them, and what follows them is known, too.

These are the lemmas by which texts are told apart, in SQL and in JSON. Each is about two texts
with the same beginning and anything behind it. The condition on what follows is the same
throughout: it must not start with a character that would prolong the word or the quote.

* `Text.word_append_inj`: words, of any kind of characters.
* `Text.doubled_append_inj`, `Text.enclosed_append_inj`: texts between quotes, where a quote inside
  is doubled. A quote that stands alone is the end, since what follows is no quote.
-/

namespace TransitQuery

namespace Text

/-- The characters of a word are read up to what follows it. -/
theorem takeWhile_append_of_head? {p : Char → Bool} {a s : List Char} (ha : ∀ c ∈ a, p c = true)
    (hs : ∀ c ∈ s.head?, p c = false) : (a ++ s).takeWhile p = a := by
  rw [List.takeWhile_append_of_pos ha]
  cases s with
  | nil => simp
  | cons c s =>
    have hc : p c = false := hs c rfl
    simp [hc]

/-- A word ends where its characters do. -/
theorem word_append_inj {p : Char → Bool} {a b s t : List Char} (ha : ∀ c ∈ a, p c = true)
    (hb : ∀ c ∈ b, p c = true) (hs : ∀ c ∈ s.head?, p c = false) (ht : ∀ c ∈ t.head?, p c = false)
    (h : a ++ s = b ++ t) : a = b ∧ s = t := by
  have heq : a = b := by
    rw [← takeWhile_append_of_head? ha hs, h, takeWhile_append_of_head? hb ht]
  subst heq
  exact ⟨rfl, List.append_cancel_left h⟩

/-- A text with its quotes doubled ends at the first single quote. -/
theorem doubled_append_inj {quote : Char} {a b s t : List Char} (hs : ∀ c ∈ s.head?, c ≠ quote)
    (ht : ∀ c ∈ t.head?, c ≠ quote)
    (h : doubled quote a ++ quote :: s = doubled quote b ++ quote :: t) : a = b ∧ s = t := by
  -- the side that is over ends with a single quote, where the other has two or none
  have hend : ∀ {c : Char} {b s t : List Char}, (∀ c ∈ s.head?, c ≠ quote) →
      quote :: s ≠ doubled quote (c :: b) ++ quote :: t := by
    intro c b s t hs h
    rw [doubled] at h
    split at h
    · exact hs quote (by rw [(List.cons.inj h).2]; rfl) rfl
    · rename_i hc
      exact hc (List.cons.inj h).1.symm
  induction a generalizing b with
  | nil =>
    cases b with
    | nil => exact ⟨rfl, (List.cons.inj h).2⟩
    | cons c b => exact absurd h (hend hs)
  | cons c a ih =>
    cases b with
    | nil => exact absurd h.symm (hend ht)
    | cons d b =>
      rw [doubled, doubled] at h
      split at h <;> split at h
      · rename_i hc hd
        obtain ⟨rfl, heq⟩ := ih (List.cons.inj (List.cons.inj h).2).2
        exact ⟨by rw [hc, hd], heq⟩
      · rename_i hd
        exact absurd (List.cons.inj h).1.symm hd
      · rename_i hc _
        exact absurd (List.cons.inj h).1 hc
      · obtain ⟨hhead, htail⟩ := List.cons.inj h
        obtain ⟨rfl, heq⟩ := ih htail
        exact ⟨by rw [hhead], heq⟩

/-- A text between quotes ends at the second of them. -/
theorem enclosed_append_inj {quote : Char} {a b s t : List Char} (hs : ∀ c ∈ s.head?, c ≠ quote)
    (ht : ∀ c ∈ t.head?, c ≠ quote) (h : enclosed quote a ++ s = enclosed quote b ++ t) :
    a = b ∧ s = t := by
  simp only [enclosed, List.cons_append, List.append_assoc, List.nil_append] at h
  exact doubled_append_inj hs ht (List.cons.inj h).2

/-- Separators stand between texts, and so before each but the first. -/
theorem separated_cons (separator first : List Char) (rest : List (List Char)) :
    separated separator (first :: rest) = first ++ rest.flatMap (separator ++ ·) := by
  induction rest generalizing first with
  | nil => simp [separated]
  | cons second rest ih =>
    rw [separated, ih, List.flatMap_cons, List.append_assoc, List.append_assoc]
    exact List.cons_ne_nil _ _

end Text

end TransitQuery
