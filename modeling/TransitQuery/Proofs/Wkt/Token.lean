import TransitQuery.Proofs.Scalar.Written
import TransitQuery.Wkt.Printer
import TransitQuery.Wkt.Token
import Mathlib.Data.List.Basic

/-!
# Tokens of written text

The tokens of a text are those of its parts, if each part is ended by the next one
(`Wkt.tokens_append`). A word is one token, and a number that is written with digits is one, too.

The tokenizer walks through a text with the characters of a word that is not complete yet. A
delimiter, which is a blank, a comma, a parenthesis or the null character, completes it, and so
does the end of the text. `Wkt.EndsWord` says of a text that it completes a word before it, and
`Wkt.IsWhole` that the text is read to its last character, since no null character stands in it.
With the two, a text can be cut where a word ends.

What starts with a digit, a point or a sign is taken for a number. A finite scalar that is written
with digits starts so and has no delimiter in it, so its text is one token, which is the scalar
that was written (`Wkt.tokens_chars`).
-/

namespace TransitQuery

namespace Wkt

variable {R : Type}

/-- A text that ends a word or a number before it. -/
def EndsWord (s : List Char) : Prop :=
  ∀ c ∈ s.head?, isDelimiter c = true

theorem endsWord_cons {c : Char} (h : isDelimiter c = true) (s : List Char) :
    EndsWord (c :: s) := by
  rintro d ⟨⟩
  exact h

/-- A text that does not end before its last character. -/
def IsWhole (s : List Char) : Prop :=
  ∀ c ∈ s, c.toNat ≠ 0

/-- Two texts are whole just if they are together. -/
theorem isWhole_append {s t : List Char} : IsWhole (s ++ t) ↔ IsWhole s ∧ IsWhole t :=
  List.forall_mem_append

theorem isWhole_separated {separator : List Char} (hseparator : IsWhole separator)
    {texts : List (List Char)} (h : ∀ s ∈ texts, IsWhole s) :
    IsWhole (Text.separated separator texts) := by
  fun_induction Text.separated separator texts with
  | case1 => exact List.forall_mem_nil _
  | case2 s => exact h s List.mem_cons_self
  | case3 s rest hne ih =>
    obtain ⟨hs, hrest⟩ := List.forall_mem_cons.mp h
    exact isWhole_append.mpr ⟨isWhole_append.mpr ⟨hs, hseparator⟩, ih hrest⟩

theorem isWhole_parenthesized {s : List Char} (h : IsWhole s) : IsWhole (parenthesized s) :=
  List.forall_mem_cons.mpr
    ⟨by decide, isWhole_append.mpr ⟨h, List.forall_mem_singleton.mpr (by decide)⟩⟩

variable [Scalar R]

/-- What is pending is ended by a delimiter. -/
theorem tokensFrom_cons_of_isDelimiter {c : Char} (hc : isDelimiter c = true)
    (pending rest : List Char) :
    tokensFrom pending (c :: rest) =
      (if pending.isEmpty then [] else [tokenOf pending.reverse]) ++
        (tokens (c :: rest) : List (Token R)) := by
  rw [tokens, tokensFrom, tokensFrom, if_pos hc, if_pos hc]
  dsimp only [List.isEmpty_nil]
  simp only [if_true, List.nil_append]
  split_ifs <;> simp

/-- The tokens of a text are those of its two parts, if the second one ends words. -/
theorem tokensFrom_append {pending s rest : List Char} (hs : IsWhole s) (hrest : EndsWord rest) :
    tokensFrom pending (s ++ rest) = tokensFrom pending s ++ (tokens rest : List (Token R)) := by
  induction s generalizing pending with
  | nil =>
    cases rest with
    | nil => exact (List.append_nil _).symm
    | cons c rest => exact tokensFrom_cons_of_isDelimiter (hrest c rfl) pending rest
  | cons c s ih =>
    obtain ⟨hc, hs⟩ := List.forall_mem_cons.mp hs
    rw [List.cons_append, tokensFrom, tokensFrom]
    split_ifs
    all_goals simp only [List.append_assoc, List.cons_append, ih hs]

/-- A text may be cut where a word ends. -/
theorem tokens_append {s rest : List Char} (hs : IsWhole s) (hrest : EndsWord rest) :
    tokens (s ++ rest) = tokens s ++ (tokens rest : List (Token R)) :=
  tokensFrom_append hs hrest

private theorem tokens_opening (s : List Char) :
    tokens ('(' :: s) = .opening :: (tokens s : List (Token R)) := rfl

private theorem tokens_comma (s : List Char) :
    tokens (',' :: s) = .comma :: (tokens s : List (Token R)) := rfl

theorem tokens_blank (s : List Char) : tokens (' ' :: s) = (tokens s : List (Token R)) := rfl

/-- Parentheses are tokens around what is in them. -/
theorem tokens_parenthesized {s : List Char} (h : IsWhole s) :
    tokens (parenthesized s) = .opening :: ((tokens s : List (Token R)) ++ [.closing]) := by
  rw [parenthesized, List.cons_append, tokens_opening, tokens_append h (endsWord_cons rfl [])]
  rfl

/-- The tokens of texts with commas between them. -/
theorem tokens_separated {texts : List (List Char)} (h : ∀ s ∈ texts, IsWhole s) :
    tokens (Text.separated [','] texts) =
      [.comma].intercalate (texts.map tokens : List (List (Token R))) := by
  fun_induction Text.separated [','] texts with
  | case1 => rfl
  | case2 s => exact List.intercalate_singleton.symm
  | case3 s rest hne ih =>
    obtain ⟨hs, hrest⟩ := List.forall_mem_cons.mp h
    obtain ⟨t, rest, rfl⟩ := List.exists_cons_of_ne_nil hne
    rw [List.append_assoc, List.singleton_append, tokens_append hs (endsWord_cons rfl _),
      tokens_comma, ih hrest]
    simp only [List.map_cons, List.intercalate_cons_cons, List.append_assoc,
      List.singleton_append]

/-! ### Words and numbers -/

/-- A text without delimiters is one token. -/
theorem tokensFrom_of_isDelimiter_eq_false {pending s : List Char}
    (h : ∀ c ∈ s, isDelimiter c = false) :
    tokensFrom pending s =
      if (pending.reverse ++ s).isEmpty then []
      else [(tokenOf (pending.reverse ++ s) : Token R)] := by
  induction s generalizing pending with
  | nil => simp [tokensFrom]
  | cons c s ih =>
    obtain ⟨hc, hs⟩ := List.forall_mem_cons.mp h
    have happend : (c :: pending).reverse ++ s = pending.reverse ++ c :: s := by simp
    rw [tokensFrom, hc, if_neg Bool.false_ne_true, ih hs, happend]

private theorem tokens_of_isDelimiter_eq_false {s : List Char} (h : ∀ c ∈ s, isDelimiter c = false)
    (hne : s ≠ []) : tokens s = [(tokenOf s : Token R)] := by
  have hempty : s.isEmpty = false := List.isEmpty_eq_false_iff.mpr hne
  rw [tokens, tokensFrom_of_isDelimiter_eq_false h, List.reverse_nil, List.nil_append, hempty]
  rfl

private theorem isDelimiter_of_mem_chars {x : R} {c : Char} (h : c ∈ Scalar.chars x) :
    isDelimiter c = false := by
  rcases Numeral.mem_plain h with hdigit | hletter
  · have hne : ∀ d ∈ [' ', '\n', '\r', '\t', '(', ')', ','], c ≠ d := by
      rintro d hd rfl
      have hnone : [' ', '\n', '\r', '\t', '(', ')', ','].any Char.isDigit = false := by decide
      exact List.any_eq_false.mp hnone _ hd hdigit
    have hzero : c.toNat ≠ 0 := by
      intro hzero
      simp only [Char.isDigit, ge_iff_le, Bool.and_eq_true, decide_eq_true_eq] at hdigit
      have hle : 48 ≤ c.toNat := hdigit.1
      omega
    simp only [List.forall_mem_cons] at hne
    simp [isDelimiter, isBlank, hne, hzero]
  · have hnone : ['-', '.', 'N', 'a', 'i', 'n', 'f'].any isDelimiter = false := by decide
    exact Bool.eq_false_iff.mpr (List.any_eq_false.mp hnone c hletter)

private theorem isWhole_of_isDelimiter_eq_false {s : List Char}
    (h : ∀ c ∈ s, isDelimiter c = false) :
    IsWhole s := by
  intro c hc hzero
  have hdelimiter : isDelimiter c = true := by simp [isDelimiter, hzero]
  rw [h c hc] at hdelimiter
  cases hdelimiter

theorem isWhole_chars (x : R) : IsWhole (Scalar.chars x) :=
  isWhole_of_isDelimiter_eq_false fun _ => isDelimiter_of_mem_chars

/-- A finite number is one token, which is this number. -/
theorem tokens_chars [ReadableScalar R] [WrittenScalar R] {x : R}
    (h : Scalar.isFinite x = true) : tokens (Scalar.chars x) = [Token.number x] := by
  obtain ⟨c, s, hcons, hc⟩ := Scalar.exists_chars_eq_cons h
  obtain ⟨n, hn, hvalue⟩ := Option.map_eq_some_iff.mp (ReadableScalar.ofText?_chars x)
  rw [tokens_of_isDelimiter_eq_false (fun _ => isDelimiter_of_mem_chars)
    (by rw [hcons]; exact List.cons_ne_nil c s)]
  have hplus : c ≠ '+' := by
    rintro rfl
    rcases hc with hc | hc <;> cases hc
  have hstarts : startsNumber c = true := by
    rcases hc with hc | rfl
    · simp [startsNumber, hc]
    · rfl
  rw [hcons] at hn ⊢
  rw [tokenOf, if_pos hstarts]
  · simp only [hn, hvalue]
  · exact hplus

end Wkt

end TransitQuery
