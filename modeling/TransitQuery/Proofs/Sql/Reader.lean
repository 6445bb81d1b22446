import TransitQuery.Proofs.Predicate.Sql
import TransitQuery.Proofs.Scalar.Written
import TransitQuery.Proofs.Sql.Condition

/-!
# Reading conditions of SQL

`Sql.condition?` reads a condition by the grammar of SQL. `OR` joins less closely than `AND`, and
`AND` less than `NOT`, which stands before a truth value, a comparison or a condition in
parentheses. Names of columns stand between double quotes and texts between single ones, where a
quote inside is written twice. Keywords may be written in any mixture of cases. Functions are no
part of this grammar.

The lemmas say what the readers make of a text that is put together in the way of
`Predicate.sqlChars`, with anything behind it that may stand there.

A reader takes the characters that it needs and leaves the rest, so a lemma about one comes with a
condition on what is behind: `Sql.IsEnd` after a token, `Sql.IsClosed` after a whole condition.
Numbers have a grammar of their own (`Sql.number?`), which is narrower than that of scalars: the
words for infinity and for what is no number are names in SQL, and a comparison with one is no
condition of this grammar.

* `Sql.ReadsOperand`, `Sql.ReadsFactor`, `Sql.ReadsCondition`: what is said of a text, at the three
  levels of the grammar.
* `Sql.readChain_separated`: a chain of items with a keyword between them. Both `AND` and `OR` are
  chains, and nothing else recurses but parentheses.
* `Sql.condition?_of_readsFactor`: a text that is read as a factor is a condition as a whole.

The readers have fuel for the parentheses and for the chains, and the length of the text is enough
for both.
-/

namespace TransitQuery

namespace Sql

/-! ### Tokens -/

/-- A token of a condition. Numbers, operators and keywords are words. -/
inductive Token where
  | opening
  | closing
  | name (s : String)
  | text (s : String)
  | word (s : List Char)

/-- The text up to the quote that ends it, and what follows this quote. A quote inside is written
twice. -/
def unquote (quote : Char) : List Char → Option (List Char × List Char)
  | [] => none
  | [c] => if c = quote then some ([], []) else none
  | c :: d :: rest =>
    if c ≠ quote then (unquote quote (d :: rest)).map fun (s, rest) => (c :: s, rest)
    else if d = quote then (unquote quote rest).map fun (s, rest) => (quote :: s, rest)
    else some ([], d :: rest)

/-- The first token of a text, and what follows it. -/
def nextToken : List Char → Option (Token × List Char)
  | [] => none
  | ' ' :: rest => nextToken rest
  | '(' :: rest => some (.opening, rest)
  | ')' :: rest => some (.closing, rest)
  | '"' :: rest => (unquote '"' rest).map fun (s, rest) => (.name (String.ofList s), rest)
  | '\'' :: rest => (unquote '\'' rest).map fun (s, rest) => (.text (String.ofList s), rest)
  | c :: rest =>
    let s := c :: rest
    match s.takeWhile (!Text.isDelimiter ·) with
    | [] => none
    | word => some (.word word, s.dropWhile (!Text.isDelimiter ·))

/-- What follows a keyword, if the text starts with it. -/
def afterKeyword? (keyword : String) (s : List Char) : Option (List Char) :=
  match nextToken s with
  | some (.word word, rest) => if word.map Char.toUpper = keyword.toList then some rest else none
  | _ => none

/-! ### Readers -/

/-- A reader of a part of a condition, which it returns with the rest of the text. -/
abbrev Reader (α : Type) := List Char → Option (α × List Char)

variable {R : Type} [Scalar R]

/-- The number that a word is: digits, perhaps with a point among them and a power of ten behind,
and perhaps with a sign in front. Names of values are no numbers in SQL; `inf` is a column. -/
def number? : List Char → Option Numeral
  | '-' :: word => Numeral.ofUnsignedText? true word
  | '+' :: word => Numeral.ofUnsignedText? false word
  | word => Numeral.ofUnsignedText? false word

/-- A column, a text or a number. -/
def readOperand : Reader (Operand R) := fun s =>
  match nextToken s with
  | some (.name a, rest) => some (.column a, rest)
  | some (.text a, rest) => some (.literal (.text a), rest)
  | some (.word word, rest) =>
    (number? word).map fun n => (.literal (.number (Scalar.ofNumeral n)), rest)
  | _ => none

/-- The operator of a comparison. -/
def Comparison.ofWord? (word : List Char) : Option Comparison :=
  if word = ['='] then some equal
  else if word = ['<', '='] then some atMost
  else if word = ['>', '='] then some atLeast
  else none

/-- Two operands with an operator between them. -/
def readComparison : Reader (Condition R) := fun s => do
  let (left, rest) ← readOperand s
  let (.word word, rest) ← nextToken rest | none
  let operator ← Comparison.ofWord? word
  let (right, rest) ← readOperand rest
  return (.comparison left operator right, rest)

/-- A truth value or a comparison. -/
def readAtom : Reader (Condition R) := fun s =>
  match afterKeyword? "TRUE" s, afterKeyword? "FALSE" s with
  | some rest, _ => some (.constant true, rest)
  | _, some rest => some (.constant false, rest)
  | none, none => readComparison s

/-- One item, and one more after each keyword. -/
def readChain (keyword : String) (join : Condition R → Condition R → Condition R)
    (item : Reader (Condition R)) : (fuel : Nat) → Reader (Condition R)
  | 0, _ => none
  | fuel + 1, s =>
    match item s with
    | none => none
    | some (c, rest) =>
      match afterKeyword? keyword rest with
      | none => some (c, rest)
      | some rest =>
        (readChain keyword join item fuel rest).map fun (d, rest) => (join c d, rest)

/-- A primary, which `NOT` may precede. -/
def readFactor (primary : Reader (Condition R)) : Reader (Condition R) := fun s =>
  match afterKeyword? "NOT" s with
  | none => primary s
  | some rest => (primary rest).map fun (c, rest) => (.not c, rest)

/-- Factors with `AND` between them. -/
def readTerm (primary : Reader (Condition R)) (fuel : Nat) : Reader (Condition R) :=
  readChain "AND" .and (readFactor primary) fuel

/-- Terms with `OR` between them. -/
def readCondition (primary : Reader (Condition R)) (fuel : Nat) : Reader (Condition R) :=
  readChain "OR" .or (readTerm primary fuel) fuel

/-- A condition in parentheses, a truth value or a comparison. Parentheses nest at most as deep as
there is fuel. -/
def readPrimary : (fuel : Nat) → Reader (Condition R)
  | 0, _ => none
  | fuel + 1, s =>
    match nextToken s with
    | some (.opening, rest) =>
      match readCondition (readPrimary fuel) (rest.length + 1) rest with
      | none => none
      | some (c, rest) =>
        match nextToken rest with
        | some (.closing, rest) => some (c, rest)
        | _ => none
    | _ => readAtom s

/-- The condition that a text is. -/
def condition? (text : String) : Option (Condition R) :=
  let s := text.toList
  match readCondition (readPrimary s.length) (s.length + 1) s with
  | some (c, rest) => if rest.all (· = ' ') then some c else none
  | none => none

/-! ### Reading tokens -/

/-- A text with doubled quotes is read up to the quote that ends it. -/
private theorem unquote_doubled {quote : Char} {s rest : List Char}
    (hrest : ∀ c ∈ rest.head?, c ≠ quote) :
    unquote quote (Text.doubled quote s ++ quote :: rest) = some (s, rest) := by
  induction s with
  | nil =>
    cases rest with
    | nil => simp [Text.doubled, unquote]
    | cons d rest =>
      have hd : d ≠ quote := hrest d rfl
      simp [Text.doubled, unquote, hd]
  | cons c s ih =>
    rw [Text.doubled]
    split
    · rename_i hc
      subst hc
      simp [unquote, ih]
    · rename_i hc
      -- at least the closing quote follows, so there are two characters to look at
      obtain ⟨d, t, hd⟩ := List.exists_cons_of_ne_nil
        (List.append_ne_nil_of_right_ne_nil (Text.doubled quote s) (List.cons_ne_nil quote rest))
      rw [hd] at ih
      rw [List.cons_append, hd, unquote, if_pos hc, ih]
      rfl

/-- Spaces before a token do not matter. -/
@[simp]
theorem nextToken_space (s : List Char) : nextToken (' ' :: s) = nextToken s := rfl

@[simp]
theorem nextToken_opening (s : List Char) : nextToken ('(' :: s) = some (.opening, s) := rfl

@[simp]
theorem nextToken_closing (s : List Char) : nextToken (')' :: s) = some (.closing, s) := rfl

/-- A name in quotes is read as this name. -/
private theorem nextToken_identifier (a : String) {s : List Char} (hs : IsEnd s) :
    nextToken (identifier a ++ s) = some (.name a, s) := by
  have h := unquote_doubled (s := a.toList) (hs.head_ne (d := '"') (by decide))
  simp [identifier, Text.enclosed, nextToken, h]

/-- A text in quotes is read as this text. -/
private theorem nextToken_literal (a : String) {s : List Char} (hs : IsEnd s) :
    nextToken (literal a ++ s) = some (.text a, s) := by
  have h := unquote_doubled (s := a.toList) (hs.head_ne (d := '\'') (by decide))
  simp [literal, Text.enclosed, nextToken, h]

/-- A word is read up to its end. -/
private theorem nextToken_word {word s : List Char} (hne : word ≠ [])
    (hword : ∀ c ∈ word, Text.isDelimiter c = false) (hs : IsEnd s) :
    nextToken (word ++ s) = some (.word word, s) := by
  have hall : ∀ c ∈ word, (!Text.isDelimiter c) = true := fun c hc => by
    rw [hword c hc]
    rfl
  have htake : (word ++ s).takeWhile (!Text.isDelimiter ·) = word :=
    Text.takeWhile_append_of_head? hall hs.isDelimiter
  have hdrop : (word ++ s).dropWhile (!Text.isDelimiter ·) = s := by
    have h := List.takeWhile_append_dropWhile (p := (!Text.isDelimiter ·)) (l := word ++ s)
    rw [htake] at h
    exact List.append_cancel_left h
  obtain ⟨c, w, rfl⟩ := List.exists_cons_of_ne_nil hne
  have hc := hword c List.mem_cons_self
  simp only [List.cons_append] at htake hdrop ⊢
  rw [nextToken]
  · simp only [htake, hdrop]
  all_goals
    rintro rfl
    exact absurd hc (by decide)

/-- A word is a keyword in any mixture of cases. -/
private theorem afterKeyword?_word {keyword : String} {word s : List Char} (hne : word ≠ [])
    (hword : ∀ c ∈ word, Text.isDelimiter c = false) (hs : IsEnd s) :
    afterKeyword? keyword (word ++ s) =
      if word.map Char.toUpper = keyword.toList then some s else none := by
  rw [afterKeyword?, nextToken_word hne hword hs]

@[simp]
theorem afterKeyword?_space (keyword : String) (s : List Char) :
    afterKeyword? keyword (' ' :: s) = afterKeyword? keyword s := rfl

/-! ### Reading operands and comparisons -/

/-- A text is read as an operand wherever it ends. -/
def ReadsOperand (s : List Char) (o : Operand R) : Prop :=
  ∀ rest, IsEnd rest → readOperand (s ++ rest) = some (o, rest)

/-- A text in quotes is read as an operand. -/
theorem readsOperand_literal (a : String) :
    ReadsOperand (literal a) (.literal (.text a) : Operand R) := by
  intro rest hrest
  rw [readOperand, nextToken_literal a hrest]

/-- What starts with a digit behind its sign is a number in SQL just if it is one elsewhere. -/
theorem number?_sign_append {negative : Bool} {c : Char} {s : List Char} (hc : c.isDigit = true) :
    number? (Numeral.sign negative ++ c :: s) =
      Numeral.ofText? (Numeral.sign negative ++ c :: s) := by
  rw [Numeral.ofText?_sign_append hc]
  cases negative with
  | true => rfl
  | false =>
    have hminus : c ≠ '-' := by
      rintro rfl
      cases hc
    have hplus : c ≠ '+' := by
      rintro rfl
      cases hc
    rw [Numeral.sign, if_neg (by decide), List.nil_append, number?]
    · exact fun word h => hminus (List.cons.inj h).1
    · exact fun word h => hplus (List.cons.inj h).1

/-- The text of a finite scalar is a number. -/
theorem number?_chars [WrittenScalar R] {x : R} (hx : Scalar.isFinite x = true) :
    number? (Scalar.chars x) = Numeral.ofText? (Scalar.chars x) := by
  obtain ⟨negative, digits, exponent, hnumeral⟩ := WrittenScalar.exists_toNumeral hx
  obtain ⟨c, s, htext, hc⟩ := Numeral.exists_unsignedPlain_eq_cons digits exponent
  rw [Scalar.chars, hnumeral, Numeral.plain_finite, htext]
  exact number?_sign_append hc

/-- So it is read as this scalar. -/
theorem readsOperand_chars [PlainScalar R] [ReadableScalar R] [WrittenScalar R] {x : R}
    (hx : Scalar.isFinite x = true) : ReadsOperand (Scalar.chars x) (.literal (.number x)) := by
  intro rest hrest
  have hread := ReadableScalar.ofText?_chars x
  rw [← number?_chars hx] at hread
  have hne : Scalar.chars x ≠ [] := by
    intro hnil
    rw [hnil] at hread
    cases hread
  rw [readOperand, nextToken_word hne (fun _ => PlainScalar.isDelimiter_eq_false) hrest]
  obtain ⟨n, hn, hvalue⟩ := Option.map_eq_some_iff.mp hread
  simp [hn, hvalue]

/-- The operators are words. -/
theorem Comparison.isWord_of_ofWord? {word : List Char} {operator : Comparison}
    (h : Comparison.ofWord? word = some operator) :
    word ≠ [] ∧ ∀ c ∈ word, Text.isDelimiter c = false := by
  unfold ofWord? at h
  split at h
  · subst word
    simp [Text.isDelimiter]
  split at h
  · subst word
    simp [Text.isDelimiter]
  split at h
  · subst word
    simp [Text.isDelimiter]
  · cases h

/-- A text is read as a factor wherever it ends, if the reader of primaries has enough fuel. -/
def ReadsFactor (s : List Char) (c : Condition R) : Prop :=
  ∀ fuel rest, s.length ≤ fuel → IsEnd rest →
    readFactor (readPrimary fuel) (s ++ rest) = some (c, rest)

/-- A column compared with something. -/
theorem readsFactor_operation {a operator : String} {comparison : Comparison} {right : List Char}
    {o : Operand R} (hoperator : Comparison.ofWord? operator.toList = some comparison)
    (hright : ReadsOperand right o) :
    ReadsFactor (operation (identifier a) operator right)
      (.comparison (.column a) comparison o) := by
  intro fuel rest hfuel hrest
  obtain ⟨fuel, rfl⟩ : ∃ n, fuel = n + 1 := by
    refine Nat.exists_eq_add_one.mpr ?_
    simp only [operation, List.length_append, List.length_cons] at hfuel
    omega
  obtain ⟨hne, hword⟩ := Comparison.isWord_of_ofWord? hoperator
  rw [operation_append]
  set behind := operator.toList ++ ' ' :: (right ++ rest) with hbehind
  have htoken : nextToken (identifier a ++ ' ' :: behind) = some (.name a, ' ' :: behind) :=
    nextToken_identifier a (by simp)
  have hoperatorToken : nextToken (' ' :: behind) =
      some (.word operator.toList, ' ' :: (right ++ rest)) :=
    nextToken_word hne hword (by simp)
  have hspace : readOperand (R := R) (' ' :: (right ++ rest)) = some (o, rest) := hright rest hrest
  -- A name between quotes is no keyword, so the reader comes to the comparison.
  have hkeyword : ∀ keyword, afterKeyword? keyword (identifier a ++ ' ' :: behind) = none := by
    intro keyword
    rw [afterKeyword?, htoken]
  have hleft : readOperand (R := R) (identifier a ++ ' ' :: behind) =
      some (.column a, ' ' :: behind) := by
    rw [readOperand, htoken]
  rw [readFactor, hkeyword]
  simp only [readPrimary, htoken, readAtom, hkeyword, readComparison, hleft, Option.bind_eq_bind,
    Option.bind_some, hoperatorToken, hoperator, hspace]
  rfl

/-! ### Reading chains -/

/-- What stands between the items of a chain. -/
def separator (keyword : String) : List Char :=
  ' ' :: keyword.toList ++ [' ']

/-- Spaces before an item do not matter. -/
def SkipsSpace (item : Reader (Condition R)) : Prop :=
  ∀ s, item (' ' :: s) = item s

omit [Scalar R] in
private theorem SkipsSpace.factor {primary : Reader (Condition R)} (h : SkipsSpace primary) :
    SkipsSpace (readFactor primary) := by
  intro s
  rw [readFactor, readFactor, afterKeyword?_space, h]

omit [Scalar R] in
private theorem SkipsSpace.chain {keyword : String} {join : Condition R → Condition R → Condition R}
    {item : Reader (Condition R)} (h : SkipsSpace item) (fuel : Nat) :
    SkipsSpace (readChain keyword join item fuel) := by
  intro s
  cases fuel with
  | zero => rfl
  | succ fuel => rw [readChain, readChain, h]

private theorem skipsSpace_primary (fuel : Nat) : SkipsSpace (readPrimary (R := R) fuel) := by
  intro s
  cases fuel with
  | zero => rfl
  | succ fuel => rfl

omit [Scalar R] in
/-- A chain is read item by item, whatever stands behind it, as long as this is neither part of the
last item nor one more of them. -/
theorem readChain_separated {keyword : String} (hne : keyword.toList ≠ [])
    (hword : ∀ c ∈ keyword.toList, Text.isDelimiter c = false)
    (hupper : keyword.toList.map Char.toUpper = keyword.toList)
    {join : Condition R → Condition R → Condition R} {empty : Condition R}
    {item : Reader (Condition R)} (hskip : SkipsSpace item) (MayFollow : List Char → Prop)
    (hfollow : ∀ s, MayFollow (separator keyword ++ s)) {parts : List (List Char × Condition R)}
    (hitems : ∀ part ∈ parts, ∀ rest, MayFollow rest → item (part.1 ++ rest) = some (part.2, rest))
    (hnonempty : parts ≠ []) {fuel : Nat} (hfuel : parts.length ≤ fuel) {rest : List Char}
    (hrest : MayFollow rest) (hend : afterKeyword? keyword rest = none) :
    readChain keyword join item fuel
        (Text.separated (separator keyword) (parts.map (·.1)) ++ rest) =
      some (Condition.joined join empty (parts.map (·.2)), rest) := by
  -- On the parts: what stands behind one is either the keyword and the rest of them, or the end.
  induction parts generalizing fuel with
  | nil => exact absurd rfl hnonempty
  | cons part parts ih =>
    obtain ⟨fuel, rfl⟩ : ∃ n, fuel = n + 1 :=
      Nat.exists_eq_add_one.mpr (lt_of_lt_of_le (by simp) hfuel)
    obtain ⟨hitem, hitems⟩ := List.forall_mem_cons.mp hitems
    cases parts with
    | nil =>
      rw [List.map_singleton, Text.separated, readChain, hitem rest hrest]
      simp only [hend]
      rfl
    | cons second parts =>
      have htail := ih hitems (List.cons_ne_nil _ _) (Nat.le_of_succ_le_succ hfuel)
      set tail := Text.separated (separator keyword) ((second :: parts).map (·.1)) ++ rest
        with htaildef
      have htext : Text.separated (separator keyword) ((part :: second :: parts).map (·.1)) ++
          rest = part.1 ++ (separator keyword ++ tail) := by
        rw [List.map_cons, Text.separated, htaildef]
        · simp
        · exact List.cons_ne_nil _ _
      have hbehind : afterKeyword? keyword (separator keyword ++ tail) = some (' ' :: tail) := by
        have h : separator keyword ++ tail = ' ' :: (keyword.toList ++ ' ' :: tail) := by
          simp [separator]
        rw [h, afterKeyword?_space, afterKeyword?_word hne hword (by simp), if_pos hupper]
      rw [htext, readChain, hitem _ (hfollow tail)]
      simp only [hbehind]
      rw [hskip.chain, htail]
      rfl

/-! ### Levels of the grammar -/

/-- What may stand behind a condition: nothing, or a closing parenthesis. -/
def IsClosed (s : List Char) : Prop :=
  ∀ c ∈ s.head?, c = ')'

private theorem IsClosed.isEnd {s : List Char} (h : IsClosed s) : IsEnd s :=
  fun c hc => .inr (.inr (h c hc))

private theorem IsClosed.afterKeyword? {s : List Char} (h : IsClosed s) (keyword : String) :
    afterKeyword? keyword s = none := by
  cases s with
  | nil => rfl
  | cons c s =>
    obtain rfl := h c rfl
    rfl

/-- A text is read as a condition before a closing parenthesis and at the end. -/
def ReadsCondition (s : List Char) (c : Condition R) : Prop :=
  ∀ fuel length rest, s.length ≤ fuel → s.length < length → IsClosed rest →
    readCondition (readPrimary fuel) length (s ++ rest) = some (c, rest)

/-- The items of a chain are no more than its characters, and one. -/
theorem length_le_length_separated {separator : List Char} (hne : separator ≠ [])
    (texts : List (List Char)) : texts.length ≤ (Text.separated separator texts).length + 1 := by
  cases texts with
  | nil => simp
  | cons first rest =>
    have hpos : 1 ≤ separator.length := List.length_pos_of_ne_nil hne
    have hitems : rest.length ≤ (rest.flatMap (separator ++ ·)).length := by
      induction rest with
      | nil => simp
      | cons second rest ih =>
        rw [List.flatMap_cons, List.length_append, List.length_append, List.length_cons]
        omega
    rw [Text.separated_cons, List.length_append, List.length_cons]
    omega

/-- An item of a chain is no longer than the chain. -/
theorem length_le_of_mem {separator s : List Char} {texts : List (List Char)} (h : s ∈ texts) :
    s.length ≤ (Text.separated separator texts).length := by
  cases texts with
  | nil => cases h
  | cons first rest =>
    rw [Text.separated_cons, List.length_append]
    rcases List.mem_cons.mp h with rfl | h
    · omega
    · have hsub := List.Sublist.length_le (List.sublist_flatten_of_mem
        (List.mem_map_of_mem (f := (separator ++ ·)) h))
      rw [List.length_append] at hsub
      rw [List.flatMap]
      omega

/-- Factors with `AND` between them are a term. -/
theorem readTerm_separated {parts : List (List Char × Condition R)}
    (h : ∀ part ∈ parts, ReadsFactor part.1 part.2) (hne : parts ≠ []) {fuel length : Nat}
    (hfuel : (Text.separated (separator "AND") (parts.map (·.1))).length ≤ fuel)
    (hlength : (Text.separated (separator "AND") (parts.map (·.1))).length < length)
    {rest : List Char} (hrest : IsEnd rest) (hend : afterKeyword? "AND" rest = none) :
    readTerm (readPrimary fuel) length
        (Text.separated (separator "AND") (parts.map (·.1)) ++ rest) =
      some (Condition.all (parts.map (·.2)), rest) := by
  have hitems : parts.length ≤ length := by
    have hle := @length_le_length_separated (separator "AND") (by simp [separator])
      (parts.map (·.1))
    rw [List.length_map] at hle
    omega
  refine readChain_separated (by simp) (by simp [Text.isDelimiter]) (by decide)
    (skipsSpace_primary fuel).factor
    IsEnd (by simp [separator]) ?_ hne hitems hrest hend
  intro part hpart rest hrest
  exact h part hpart fuel rest ((length_le_of_mem (List.mem_map_of_mem hpart)).trans hfuel) hrest

/-- Factors with `OR` between them are a condition. -/
theorem readsCondition_separated_or {parts : List (List Char × Condition R)}
    (h : ∀ part ∈ parts, ReadsFactor part.1 part.2) (hne : parts ≠ []) :
    ReadsCondition (Text.separated (separator "OR") (parts.map (·.1)))
      (Condition.any (parts.map (·.2))) := by
  intro fuel length rest hfuel hlength hrest
  have hitems : parts.length ≤ length := by
    have hle := @length_le_length_separated (separator "OR") (by simp [separator]) (parts.map (·.1))
    rw [List.length_map] at hle
    omega
  refine readChain_separated (by simp) (by simp [Text.isDelimiter]) (by decide)
    ((skipsSpace_primary fuel).factor.chain length)
    (fun s => IsEnd s ∧ afterKeyword? "AND" s = none) ?_ ?_ hne hitems
    ⟨hrest.isEnd, hrest.afterKeyword? _⟩ (hrest.afterKeyword? _)
  · intro s
    have hor : separator "OR" ++ s = ' ' :: ("OR".toList ++ ' ' :: s) := by simp [separator]
    refine ⟨by simp [separator], ?_⟩
    rw [hor, afterKeyword?_space,
      afterKeyword?_word (by simp) (by simp [Text.isDelimiter]) (by simp)]
    rfl
  · -- a factor by itself is a term
    intro part hpart rest hrest
    have hle : part.1.length ≤ (Text.separated (separator "OR") (parts.map (·.1))).length :=
      length_le_of_mem (List.mem_map_of_mem hpart)
    have hsingle : ∀ part' ∈ [part], ReadsFactor part'.1 part'.2 := by simpa using h part hpart
    exact readTerm_separated hsingle (List.cons_ne_nil _ _) (hle.trans hfuel)
      (hle.trans_lt hlength) hrest.1 hrest.2

/-- So are factors with `AND` between them. -/
theorem readsCondition_separated_and {parts : List (List Char × Condition R)}
    (h : ∀ part ∈ parts, ReadsFactor part.1 part.2) (hne : parts ≠ []) :
    ReadsCondition (Text.separated (separator "AND") (parts.map (·.1)))
      (Condition.all (parts.map (·.2))) := by
  intro fuel length rest hfuel hlength hrest
  obtain ⟨length, rfl⟩ : ∃ n, length = n + 1 := Nat.exists_eq_add_one.mpr (by omega)
  rw [readCondition, readChain,
    readTerm_separated h hne hfuel hlength hrest.isEnd (hrest.afterKeyword? _)]
  simp only [hrest.afterKeyword?]

/-- A condition in parentheses is a primary. -/
theorem readPrimary_grouped {s : List Char} {c : Condition R} (h : ReadsCondition s c) {fuel : Nat}
    (hfuel : (grouped s).length ≤ fuel) (rest : List Char) :
    readPrimary fuel (grouped s ++ rest) = some (c, rest) := by
  obtain ⟨fuel, rfl⟩ : ∃ n, fuel = n + 1 := by
    refine Nat.exists_eq_add_one.mpr (lt_of_lt_of_le (by simp [grouped]) hfuel)
  have hlength : s.length ≤ fuel := by
    simp only [grouped, List.length_append, List.length_cons] at hfuel
    omega
  have hclosed : IsClosed (')' :: rest) := by simp [IsClosed]
  have hread := h fuel ((s ++ ')' :: rest).length + 1) (')' :: rest) hlength
    (by rw [List.length_append]; omega) hclosed
  rw [grouped_append, readPrimary, nextToken_opening]
  simp only [hread, nextToken_closing]

/-- A condition in parentheses is a factor. -/
theorem readsFactor_grouped {s : List Char} {c : Condition R} (h : ReadsCondition s c) :
    ReadsFactor (grouped s) c := by
  intro fuel rest hfuel _
  have hkeyword : afterKeyword? "NOT" (grouped s ++ rest) = none := by
    rw [grouped_append]
    rfl
  rw [readFactor, hkeyword]
  exact readPrimary_grouped h hfuel rest

theorem readsFactor_not {s : List Char} {c : Condition R} (h : ReadsCondition s c) :
    ReadsFactor ("NOT ".toList ++ grouped s) (.not c) := by
  intro fuel rest hfuel _
  have htext : "NOT ".toList ++ grouped s ++ rest = "NOT".toList ++ ' ' :: (grouped s ++ rest) := by
    simp
  have hkeyword : afterKeyword? "NOT" ("NOT ".toList ++ grouped s ++ rest) =
      some (' ' :: (grouped s ++ rest)) := by
    rw [htext, afterKeyword?_word (by simp) (by simp [Text.isDelimiter]) (by simp)]
    rfl
  have hlength : (grouped s).length ≤ fuel := by
    rw [List.length_append] at hfuel
    omega
  rw [readFactor, hkeyword]
  simp only [skipsSpace_primary fuel (grouped s ++ rest), readPrimary_grouped h hlength rest]
  rfl

/-- The text of a truth value. -/
def constantChars (b : Bool) : List Char :=
  if b then "TRUE".toList else "FALSE".toList

theorem readsFactor_constant (b : Bool) :
    ReadsFactor (constantChars b) (.constant b : Condition R) := by
  intro fuel rest hfuel hrest
  have hword : constantChars b ≠ [] ∧ ∀ c ∈ constantChars b, Text.isDelimiter c = false := by
    cases b <;> simp [constantChars, Text.isDelimiter]
  have hkeyword := fun keyword => @afterKeyword?_word keyword _ _ hword.1 hword.2 hrest
  obtain ⟨fuel, rfl⟩ : ∃ n, fuel = n + 1 :=
    Nat.exists_eq_add_one.mpr (lt_of_lt_of_le (List.length_pos_of_ne_nil hword.1) hfuel)
  rw [readFactor, hkeyword, if_neg (by cases b <;> decide)]
  simp only [readPrimary, nextToken_word hword.1 hword.2 hrest, readAtom, hkeyword]
  cases b <;> rfl

/-- A factor is a condition. -/
theorem ReadsFactor.condition {s : List Char} {c : Condition R} (h : ReadsFactor s c) :
    ReadsCondition s c :=
  readsCondition_separated_or (by simpa using h : ∀ part ∈ [(s, c)], ReadsFactor part.1 part.2)
    (List.cons_ne_nil _ _)

/-- A conjunction in parentheses, and so a disjunction, is a factor. -/
theorem ReadsFactor.and {s t : List Char} {c d : Condition R} (hs : ReadsFactor s c)
    (ht : ReadsFactor t d) :
    ReadsFactor (grouped (operation s "AND" t)) (.and c d) := by
  have htext : operation s "AND" t = Text.separated (separator "AND") [s, t] := by
    simp [operation, separator, Text.separated]
  rw [htext]
  exact readsFactor_grouped (@readsCondition_separated_and _ _ [(s, c), (t, d)]
    (by simp [hs, ht]) (List.cons_ne_nil _ _))

theorem ReadsFactor.or {s t : List Char} {c d : Condition R} (hs : ReadsFactor s c)
    (ht : ReadsFactor t d) :
    ReadsFactor (grouped (operation s "OR" t)) (.or c d) := by
  have htext : operation s "OR" t = Text.separated (separator "OR") [s, t] := by
    simp [operation, separator, Text.separated]
  rw [htext]
  exact readsFactor_grouped (@readsCondition_separated_or _ _ [(s, c), (t, d)]
    (by simp [hs, ht]) (List.cons_ne_nil _ _))

end Sql

end TransitQuery
