import TransitQuery.Json.Printer
import TransitQuery.Json.Reader

/-!
# Strings between quotes

A string is written character by character, each either as itself or as an escape, and the reader
of strings takes every one of them back (`Json.readString_escapes`). So a string is known from its
text, whatever follows it.

Quotes and backslashes are escaped, control characters have short escapes or are written by their
number, with four hexadecimal digits, and any other character stands for itself.
`Json.readString_escape` is one step of the reader on the escape of any character; there are 32
control characters, which `Json.unit?_hexDigit` goes through. The induction over the string is
`Json.readString_escapes`, with anything behind the closing quote.

The reader knows more escapes than the printer writes, among them pairs of surrogates. They play no
part here, as the statements are about what was written.
-/

namespace TransitQuery

namespace Json

/-- The control characters that are written by their number. -/
theorem unit?_hexDigit {n : Nat} (h : n < 32) :
    unit? '0' '0' (hexDigit (n / 16)) (hexDigit (n % 16)) = some n := by
  revert n
  decide

private theorem eq_ofNat_of_toNat_eq {c : Char} {n : Nat} (h : c.toNat = n) : c = Char.ofNat n := by
  rw [← h, Char.ofNat_toNat]

/-- The reader takes back one character. -/
theorem readString_escape (c : Char) (s : List Char) :
    readString (escape c ++ s) = consChar c (readString s) := by
  unfold escape
  split
  · rename_i h
    rw [h]
    rfl
  split
  · rename_i h
    rw [h]
    rfl
  split
  · rename_i h
    rw [eq_ofNat_of_toNat_eq h]
    rfl
  split
  · rename_i h
    rw [eq_ofNat_of_toNat_eq h]
    rfl
  split
  · rename_i h
    rw [h]
    rfl
  split
  · rename_i h
    rw [h]
    rfl
  split
  · rename_i h
    rw [h]
    rfl
  split
  · rename_i h
    simp only [List.cons_append, List.nil_append]
    rw [readString, unit?_hexDigit h]
    dsimp only
    rw [if_neg (by omega), if_neg (by omega), Char.ofNat_toNat]
  · -- A character that stands for itself is none of those that the reader looks for first.
    rename_i hquote hbackslash _ _ _ _ _ hcontrol
    rw [List.cons_append, List.nil_append, readString, if_neg (by simp [hcontrol, hbackslash])]
    · exact hquote
    · exact fun _ _ _ _ _ h _ => hbackslash h
    · exact fun _ _ h _ => hbackslash h

/-- The reader takes back a whole string and stops behind it. -/
theorem readString_escapes (s rest : List Char) :
    readString (s.flatMap escape ++ '"' :: rest) = some (s, rest) := by
  induction s with
  | nil => rfl
  | cons c s ih =>
    rw [List.flatMap_cons, List.append_assoc, readString_escape, ih]
    rfl

/-- A string is known from its text, and so is what follows it. -/
theorem quoted_append_inj {a b s t : List Char} (h : quoted a ++ s = quoted b ++ t) :
    a = b ∧ s = t := by
  have hread : ∀ a s : List Char, readString (quoted a ++ s).tail = some (a, s) := fun a s => by
    rw [quoted]
    simp [readString_escapes]
  have heq := hread a s
  rw [h, hread] at heq
  simpa using heq.symm

end Json

end TransitQuery
