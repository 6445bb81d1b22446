import TransitQuery.Proofs.Json.Quoted
import TransitQuery.Proofs.Scalar.Legible
import TransitQuery.Proofs.Text.Words

/-!
# Values are known from their text

A JSON value whose numbers are finite is known from its text without blanks
(`Json.eq_of_compactChars_eq`). The text of a value ends where something follows that cannot
belong to it, a comma or the end of a container, and its first character tells an object, an
array and a string from each other and from everything else. What is left are words: names and
numbers.

The proof is an induction over both values at once (`Json.compactChars_append_inj`), in a form that
lets anything follow the two texts as long as it cannot belong to a word. This is what an item or a
member needs, since a comma or a bracket follows it.

* Words: `Json.word_compactChars_append_inj`. A word ends before the first character that no word
  has, so the two words are the same, and `Json.eq_of_leafChars_eq` tells the values from them.
* Numbers: an integer has only a sign and digits, and a finite scalar has a point or a power of ten
  besides. So no text stands for both (`Json.eq_of_number_chars_eq`). That a scalar is known from
  its own text is a law of the scalars, `LegibleScalar`.
* Strings: `Json.quoted_append_inj`, from the module on quoting.
-/

namespace TransitQuery

namespace Json

variable {R : Type} [Scalar R]

mutual

/-- Whether all numbers in a value are finite. -/
def hasFiniteNumbers : Json R → Bool
  | real x => Scalar.isFinite x
  | arr items => itemsHaveFiniteNumbers items
  | obj members => membersHaveFiniteNumbers members
  | _ => true

/-- Whether all numbers in several items are finite. -/
def itemsHaveFiniteNumbers : List (Json R) → Bool
  | [] => true
  | v :: rest => v.hasFiniteNumbers && itemsHaveFiniteNumbers rest

/-- Whether all numbers in several members are finite. -/
def membersHaveFiniteNumbers : List (String × Json R) → Bool
  | [] => true
  | (_, v) :: rest => v.hasFiniteNumbers && membersHaveFiniteNumbers rest

end

/-! ### Words -/

/-- A character of which names and numbers are made. -/
def isWordChar (c : Char) : Bool :=
  c.isAlphanum || c == '-' || c == '+' || c == '.'

/-- What follows a word: nothing, or something that starts with no character of words. -/
def IsDelimited (s : List Char) : Prop :=
  ∀ c ∈ s.head?, isWordChar c = false

/-- A word may stand at the end. -/
theorem isDelimited_nil : IsDelimited [] := by
  simp [IsDelimited]

private theorem isDelimited_cons {c : Char} {s : List Char} (h : isWordChar c = false) :
    IsDelimited (c :: s) := by
  simpa [IsDelimited] using h

/-- Whether a value is written as a word. -/
def isWord : Json R → Bool
  | null | bool _ | int _ | real _ => true
  | _ => false

/-- A value that is written as a word is just that word. -/
private theorem compactChars_of_isWord {v : Json R} (h : v.isWord = true) :
    v.compactChars = v.leafChars := by
  cases v <;> first | rfl | cases h

/-! ### Items and members -/

/-- What stands behind the first item of an array. -/
def laterItems : List (Json R) → List Char
  | [] => []
  | items => ',' :: compactItems items

/-- What stands behind the first member of an object. -/
def laterMembers : List (String × Json R) → List Char
  | [] => []
  | members => ',' :: compactMembers members

/-- The first item, and what stands behind it. -/
theorem compactItems_cons (v : Json R) (rest : List (Json R)) :
    compactItems (v :: rest) = v.compactChars ++ laterItems rest := by
  cases rest with
  | nil => simp [compactItems, laterItems]
  | cons w rest => rfl

/-- The first member, and what stands behind it. -/
theorem compactMembers_cons (k : String) (v : Json R) (rest : List (String × Json R)) :
    compactMembers ((k, v) :: rest) =
      quoted k.toList ++ ':' :: (v.compactChars ++ laterMembers rest) := by
  cases rest with
  | nil => simp [compactMembers, laterMembers]
  | cons m rest => simp [compactMembers, laterMembers]

private theorem laterItems_cons (v : Json R) (rest : List (Json R)) :
    laterItems (v :: rest) = ',' :: (v.compactChars ++ laterItems rest) :=
  congrArg (',' :: ·) (compactItems_cons v rest)

private theorem laterMembers_cons (k : String) (v : Json R) (rest : List (String × Json R)) :
    laterMembers ((k, v) :: rest) =
      ',' :: (quoted k.toList ++ ':' :: (v.compactChars ++ laterMembers rest)) :=
  congrArg (',' :: ·) (compactMembers_cons k v rest)

/-- A comma or a bracket follows an item. -/
theorem isDelimited_laterItems (items : List (Json R)) {s : List Char} :
    IsDelimited (laterItems items ++ ']' :: s) := by
  cases items with
  | nil => exact isDelimited_cons rfl
  | cons v rest => exact isDelimited_cons rfl

/-- A comma or a brace follows a member. -/
theorem isDelimited_laterMembers (members : List (String × Json R)) {s : List Char} :
    IsDelimited (laterMembers members ++ '}' :: s) := by
  cases members with
  | nil => exact isDelimited_cons rfl
  | cons m rest => exact isDelimited_cons rfl

/-- Members with one text may as well stand behind another member. -/
theorem laterMembers_append_eq {members members' : List (String × Json R)} {s t : List Char}
    (h : compactMembers members ++ '}' :: s = compactMembers members' ++ '}' :: t) :
    laterMembers members ++ '}' :: s = laterMembers members' ++ '}' :: t := by
  match members, members' with
  | [], [] => exact h
  | [], (k, w) :: rest' =>
    rw [compactMembers_cons] at h
    cases (List.cons.inj h).1
  | (k, v) :: rest, [] =>
    rw [compactMembers_cons] at h
    cases (List.cons.inj h).1
  | (k, v) :: rest, (k', w) :: rest' => exact congrArg (',' :: ·) h

/-! ### Numbers -/

/-- Whether a value is a number of either kind. -/
def isNumber : Json R → Bool
  | int _ | real _ => true
  | _ => false

/-- Numbers are made of the characters of words. -/
theorem isWordChar_of_isNumberChar {c : Char} (h : Numeral.IsNumberChar c) :
    isWordChar c = true := by
  obtain h | h := h
  · simp [isWordChar, Char.isAlphanum, h]
  · simp only [List.mem_cons, List.not_mem_nil, or_false] at h
    obtain rfl | rfl | rfl | rfl := h <;> rfl

/-- An integer is written with its sign and digits only. -/
theorem mem_integerChars {i : Int} {c : Char} (h : c ∈ integerChars i) :
    c = '-' ∨ c.isDigit = true := by
  obtain h | h := List.mem_append.mp h
  · left
    unfold Numeral.sign at h
    split at h
    · simpa using h
    · cases h
  · exact .inr (Numeral.isDigit_of_mem_digitChars h)

theorem integerChars_ne_nil (i : Int) : integerChars i ≠ [] := by
  simp [integerChars, Numeral.digitChars_ne_nil]

/-- An integer is known from its text. -/
theorem integerChars_inj {i j : Int} (h : integerChars i = integerChars j) : i = j := by
  have hdigits : ∀ n, ∃ c s, Numeral.digitChars n = c :: s ∧ c.isDigit = true := fun n => by
    obtain ⟨c, s, hc⟩ := List.exists_cons_of_ne_nil (Numeral.digitChars_ne_nil n)
    exact ⟨c, s, hc, Numeral.isDigit_of_mem_digitChars (hc ▸ List.mem_cons_self)⟩
  obtain ⟨hsign, habs⟩ := Numeral.sign_append_inj (hdigits _) (hdigits _) h
  have heq := congrArg Numeral.ofDigits habs
  rw [Numeral.ofDigits_digitChars, Numeral.ofDigits_digitChars] at heq
  have hiff := decide_eq_decide.mp hsign
  omega

/-- A name starts with a letter that no number has. -/
theorem exists_name_eq_cons {v : Json R} (hv : v.isWord = true) (hn : v.isNumber = false) :
    ∃ c s, v.leafChars = c :: s ∧ ¬ Numeral.IsNumberChar c := by
  have hletters : ∀ c ∈ ['n', 't', 'f'], ¬ Numeral.IsNumberChar c := by
    simp [Numeral.IsNumberChar]
  cases v with
  | null => exact ⟨'n', _, rfl, hletters _ (by simp)⟩
  | bool b =>
    cases b
    · exact ⟨'f', _, rfl, hletters _ (by simp)⟩
    · exact ⟨'t', _, rfl, hletters _ (by simp)⟩
  | int i => cases hn
  | real x => cases hn
  | _ => cases hv

/-- A number is written with the characters of numbers, and with a point or a power of ten. -/
theorem json_finite_shape (negative : Bool) (digits : Nat) (exponent : Int) :
    (∀ c ∈ (Numeral.finite negative digits exponent).json, Numeral.IsNumberChar c) ∧
      ('.' ∈ (Numeral.finite negative digits exponent).json ∨
        'e' ∈ (Numeral.finite negative digits exponent).json) := by
  obtain ⟨-, hall, hmark⟩ := Numeral.unsignedJson_shape digits exponent
  rw [Numeral.json_finite]
  refine ⟨fun c hc => ?_, hmark.imp (List.mem_append_right _) (List.mem_append_right _)⟩
  obtain hc | hc := List.mem_append.mp hc
  · unfold Numeral.sign at hc
    split at hc
    · exact .inr (by simp_all)
    · cases hc
  · exact hall c hc

/-- A scalar is written as a word, if only as the one that stands for no value. -/
theorem realChars_isWord (x : R) :
    (∀ c ∈ realChars x, isWordChar c = true) ∧ realChars x ≠ [] := by
  rw [realChars]
  cases Scalar.toNumeral .toEven x with
  | nan => simp [Numeral.json, isWordChar]
  | infinite negative => simp [Numeral.json, isWordChar]
  | finite negative digits exponent =>
    obtain ⟨hall, hmark⟩ := json_finite_shape negative digits exponent
    exact ⟨fun c hc => isWordChar_of_isNumberChar (hall c hc),
      hmark.elim List.ne_nil_of_mem List.ne_nil_of_mem⟩

/-- A word is made of the characters of words, and of one at least. -/
theorem leafChars_shape {v : Json R} (hv : v.isWord = true) :
    (∀ c ∈ v.leafChars, isWordChar c = true) ∧ v.leafChars ≠ [] := by
  cases v with
  | null => simp [leafChars, isWordChar]
  | bool b => cases b <;> simp [leafChars, isWordChar]
  | int i =>
    refine ⟨fun c hc => ?_, integerChars_ne_nil i⟩
    obtain rfl | h := mem_integerChars hc
    · rfl
    · exact isWordChar_of_isNumberChar (.inl h)
  | real x => exact realChars_isWord x
  | _ => cases hv

/-! ### Containers -/

/-- The character with which a value starts that is not a word. -/
def opening? : Json R → Option Char
  | str _ => some '"'
  | arr _ => some '['
  | obj _ => some '\x7b'
  | _ => none

/-- All that is no word starts with a quote, a bracket or a brace. -/
theorem isWord_iff {R : Type} {v : Json R} : v.isWord = true ↔ v.opening? = none := by
  cases v <;> simp [isWord, opening?]

/-- The first character of a text tells the form of its value. -/
theorem exists_compactChars_eq_cons (v : Json R) :
    ∃ c s, v.compactChars = c :: s ∧ v.opening? = if isWordChar c then none else some c := by
  cases hw : v.isWord
  · cases v with
    | str x => exact ⟨'"', _, rfl, rfl⟩
    | arr items => exact ⟨'[', _, rfl, rfl⟩
    | obj members => exact ⟨'\x7b', _, rfl, rfl⟩
    | _ => cases hw
  · obtain ⟨hall, hne⟩ := leafChars_shape hw
    obtain ⟨c, s, hc⟩ := List.exists_cons_of_ne_nil hne
    refine ⟨c, s, by rw [compactChars_of_isWord hw, hc], ?_⟩
    rw [if_pos (hall c (by simp [hc]))]
    cases v with
    | str x => cases hw
    | arr items => cases hw
    | obj members => cases hw
    | _ => rfl

/-- Values with one text are of one form. -/
theorem opening?_eq_of_compactChars_append_eq {v w : Json R} {s t : List Char}
    (h : v.compactChars ++ s = w.compactChars ++ t) : v.opening? = w.opening? := by
  obtain ⟨c, s', hc, hopen⟩ := exists_compactChars_eq_cons v
  obtain ⟨d, t', hd, hopen'⟩ := exists_compactChars_eq_cons w
  rw [hc, hd] at h
  rw [hopen, hopen', (List.cons.inj h).1]

/-- No text of a value starts like the end of an array. -/
theorem compactChars_append_ne {v : Json R} {s t : List Char} :
    v.compactChars ++ s ≠ ']' :: t := by
  intro h
  obtain ⟨c, s', hc, hopen⟩ := exists_compactChars_eq_cons v
  rw [hc] at h
  obtain rfl : c = ']' := (List.cons.inj h).1
  cases v <;> cases hopen

/-- Items with one text may as well stand behind another item. -/
theorem laterItems_append_eq {items items' : List (Json R)} {s t : List Char}
    (h : compactItems items ++ ']' :: s = compactItems items' ++ ']' :: t) :
    laterItems items ++ ']' :: s = laterItems items' ++ ']' :: t := by
  match items, items' with
  | [], [] => exact h
  | [], w :: rest' =>
    rw [compactItems_cons, List.append_assoc] at h
    exact absurd h.symm compactChars_append_ne
  | v :: rest, [] =>
    rw [compactItems_cons, List.append_assoc] at h
    exact absurd h compactChars_append_ne
  | v :: rest, w :: rest' => exact congrArg (',' :: ·) h

/-! ### Words that are known from their text -/

section

variable [LegibleScalar R]

/-- A finite scalar is written with the characters of numbers, and with a point or a power of
ten. -/
theorem realChars_shape {x : R} (h : Scalar.isFinite x = true) :
    (∀ c ∈ realChars x, Numeral.IsNumberChar c) ∧ ('.' ∈ realChars x ∨ 'e' ∈ realChars x) := by
  obtain ⟨negative, digits, exponent, hx⟩ := LegibleScalar.exists_toNumeral h
  rw [realChars, hx]
  exact json_finite_shape negative digits exponent

/-- Numbers are known from their text. -/
theorem eq_of_number_chars_eq {v w : Json R} (hv : v.isNumber = true) (hw : w.isNumber = true)
    (hfv : v.hasFiniteNumbers = true) (hfw : w.hasFiniteNumbers = true)
    (h : v.leafChars = w.leafChars) : v = w := by
  -- an integer has neither point nor power
  have hkind : ∀ (i : Int) (x : R), Scalar.isFinite x = true → integerChars i ≠ realChars x := by
    intro i x hx heq
    obtain hmark | hmark := (realChars_shape hx).2
    · obtain h | h := mem_integerChars (heq ▸ hmark) <;> simp at h
    · obtain h | h := mem_integerChars (heq ▸ hmark) <;> simp at h
  cases v with
  | int i =>
    cases w with
    | int j => rw [integerChars_inj h]
    | real y => exact absurd h (hkind i y hfw)
    | _ => cases hw
  | real x =>
    cases w with
    | int j => exact absurd h.symm (hkind j x hfv)
    | real y => rw [LegibleScalar.eq_of_json_eq hfv hfw h]
    | _ => cases hw
  | _ => cases hv

/-- A finite number is made of the characters of numbers. -/
private theorem isNumberChar_of_isNumber {v : Json R} (hv : v.isNumber = true)
    (hf : v.hasFiniteNumbers = true) {c : Char} (hc : c ∈ v.leafChars) :
    Numeral.IsNumberChar c := by
  cases v with
  | int i =>
    obtain rfl | h := mem_integerChars hc
    · exact .inr (by simp)
    · exact .inl h
  | real x => exact (realChars_shape hf).1 c hc
  | _ => cases hv

/-- What is written as a word is known from the word. -/
theorem eq_of_leafChars_eq {v w : Json R} (hv : v.isWord = true) (hw : w.isWord = true)
    (hfv : v.hasFiniteNumbers = true) (hfw : w.hasFiniteNumbers = true)
    (h : v.leafChars = w.leafChars) : v = w := by
  cases hnv : v.isNumber <;> cases hnw : w.isNumber
  · -- two names
    cases v with
    | null =>
      cases w with
      | null => rfl
      | bool b => cases b <;> simp [leafChars] at h
      | int j => cases hnw
      | real y => cases hnw
      | _ => cases hw
    | bool b =>
      cases w with
      | null => cases b <;> simp [leafChars] at h
      | bool b' => cases b <;> cases b' <;> first | rfl | simp [leafChars] at h
      | int j => cases hnw
      | real y => cases hnw
      | _ => cases hw
    | int i => cases hnv
    | real x => cases hnv
    | _ => cases hv
  · -- A name starts with a letter, and no number has that letter.
    obtain ⟨c, s, hc, hletter⟩ := exists_name_eq_cons hv hnv
    exact absurd (isNumberChar_of_isNumber hnw hfw (by rw [← h, hc]; simp)) hletter
  · obtain ⟨c, s, hc, hletter⟩ := exists_name_eq_cons hw hnw
    exact absurd (isNumberChar_of_isNumber hnv hfv (by rw [h, hc]; simp)) hletter
  · exact eq_of_number_chars_eq hnv hnw hfv hfw h

/-- Of two words each ends where its text does. -/
theorem word_compactChars_append_inj {v w : Json R} {s t : List Char} (hv : v.isWord = true)
    (hw : w.isWord = true) (hfv : v.hasFiniteNumbers = true) (hfw : w.hasFiniteNumbers = true)
    (hs : IsDelimited s) (ht : IsDelimited t) (h : v.compactChars ++ s = w.compactChars ++ t) :
    v = w ∧ s = t := by
  rw [compactChars_of_isWord hv, compactChars_of_isWord hw] at h
  obtain ⟨heq, hst⟩ :=
    Text.word_append_inj (leafChars_shape hv).1 (leafChars_shape hw).1 hs ht h
  exact ⟨eq_of_leafChars_eq hv hw hfv hfw heq, hst⟩

end

/-! ### Values that are known from their text -/

mutual

/-- A value ends where its text does, and is known from it. -/
theorem compactChars_append_inj [LegibleScalar R] (v w : Json R) {s t : List Char}
    (hv : v.hasFiniteNumbers = true) (hw : w.hasFiniteNumbers = true) (hs : IsDelimited s)
    (ht : IsDelimited t) (h : v.compactChars ++ s = w.compactChars ++ t) : v = w ∧ s = t := by
  -- The first character tells a string, an array and an object from each other and from words.
  have hopen := opening?_eq_of_compactChars_append_eq h
  match v with
  | str x =>
    cases w with
    | str y =>
      obtain ⟨hxy, hst⟩ := quoted_append_inj h
      exact ⟨by rw [String.toList_inj.mp hxy], hst⟩
    | _ => cases hopen
  | arr items =>
    cases w with
    | arr items' =>
      have h : compactItems items ++ ']' :: s = compactItems items' ++ ']' :: t := by
        simpa [compactChars] using h
      obtain ⟨rfl, hst⟩ := laterItems_append_inj items items' hv hw (laterItems_append_eq h)
      exact ⟨rfl, hst⟩
    | _ => cases hopen
  | obj members =>
    cases w with
    | obj members' =>
      have h : compactMembers members ++ '}' :: s = compactMembers members' ++ '}' :: t := by
        simpa [compactChars] using h
      obtain ⟨rfl, hst⟩ :=
        laterMembers_append_inj members members' hv hw (laterMembers_append_eq h)
      exact ⟨rfl, hst⟩
    | _ => cases hopen
  | null | bool _ | int _ | real _ =>
    exact word_compactChars_append_inj rfl (isWord_iff.mpr hopen.symm) hv hw hs ht h

/-- So are the items of an array. -/
theorem laterItems_append_inj [LegibleScalar R] (items items' : List (Json R)) {s t : List Char}
    (hv : itemsHaveFiniteNumbers items = true) (hw : itemsHaveFiniteNumbers items' = true)
    (h : laterItems items ++ ']' :: s = laterItems items' ++ ']' :: t) :
    items = items' ∧ s = t := by
  match items, items' with
  | [], [] => exact ⟨rfl, (List.cons.inj h).2⟩
  | [], w :: rest' => cases (List.cons.inj h).1
  | v :: rest, [] => cases (List.cons.inj h).1
  | v :: rest, w :: rest' =>
    obtain ⟨hfv, hfrest⟩ := Bool.and_eq_true_iff.mp hv
    obtain ⟨hfw, hfrest'⟩ := Bool.and_eq_true_iff.mp hw
    rw [laterItems_cons, laterItems_cons, List.cons_append, List.cons_append, List.append_assoc,
      List.append_assoc] at h
    obtain ⟨rfl, hlater⟩ := compactChars_append_inj v w hfv hfw (isDelimited_laterItems rest)
      (isDelimited_laterItems rest') (List.cons.inj h).2
    obtain ⟨rfl, hst⟩ := laterItems_append_inj rest rest' hfrest hfrest' hlater
    exact ⟨rfl, hst⟩

/-- And so are the members of an object. -/
theorem laterMembers_append_inj [LegibleScalar R] (members members' : List (String × Json R))
    {s t : List Char}
    (hv : membersHaveFiniteNumbers members = true)
    (hw : membersHaveFiniteNumbers members' = true)
    (h : laterMembers members ++ '}' :: s = laterMembers members' ++ '}' :: t) :
    members = members' ∧ s = t := by
  match members, members' with
  | [], [] => exact ⟨rfl, (List.cons.inj h).2⟩
  | [], (k, w) :: rest' => cases (List.cons.inj h).1
  | (k, v) :: rest, [] => cases (List.cons.inj h).1
  | (k, v) :: rest, (k', w) :: rest' =>
    obtain ⟨hfv, hfrest⟩ := Bool.and_eq_true_iff.mp hv
    obtain ⟨hfw, hfrest'⟩ := Bool.and_eq_true_iff.mp hw
    rw [laterMembers_cons, laterMembers_cons, List.cons_append, List.cons_append,
      List.append_assoc, List.append_assoc] at h
    obtain ⟨hk, h⟩ := quoted_append_inj (List.cons.inj h).2
    rw [List.cons_append, List.cons_append, List.append_assoc, List.append_assoc] at h
    obtain ⟨rfl, hlater⟩ := compactChars_append_inj v w hfv hfw (isDelimited_laterMembers rest)
      (isDelimited_laterMembers rest') (List.cons.inj h).2
    obtain ⟨rfl, hst⟩ := laterMembers_append_inj rest rest' hfrest hfrest' hlater
    exact ⟨by rw [String.toList_inj.mp hk], hst⟩

end

/-- A value is known from its text. -/
theorem eq_of_compactChars_eq [LegibleScalar R] {v w : Json R} (hv : v.hasFiniteNumbers = true)
    (hw : w.hasFiniteNumbers = true) (h : v.compactChars = w.compactChars) : v = w :=
  (compactChars_append_inj v w hv hw isDelimited_nil isDelimited_nil
    (congrArg (· ++ []) h)).1

end Json

end TransitQuery
