import TransitQuery.Predicate.Evaluate
import TransitQuery.Proofs.Predicate.Sql

/-!
# The SQL of a predicate says what it decides

Predicates that are written alike decide alike, whatever stands in their names and texts
(`Predicate.evaluate_eq_of_toSql_eq`). They need not be the same: a disjunction of two is written
like a list of two members, a list of one like its member, and a buffer that is not positive is
not written at all. None of these matters to a row.

The argument reads a text from the left. The first word of a condition tells its kind
(`Predicate.alike_of_firstWord_eq`); what is in parentheses is told apart by what stands between
the conditions inside. Every step allows for more text behind the condition, and shows that it is
the same, too: so the induction goes from one member of a list to the next.

* `Predicate.bare` takes away what leaves no trace in the text, at the root of a predicate, and
  changes neither the text nor a value.
* `Predicate.IsClear` is the property that is proved by induction: another condition with the same
  text, up to what stands behind it, decides alike, and the rests are the same.
* There is one lemma for each constructor, and most compare two calls or two comparisons part by
  part. Names and texts are told by their quotes, numbers by the law of the scalars.
-/

namespace TransitQuery

namespace Predicate

variable {R : Type}

/-! ### Kinds of conditions -/

/-- The same condition without what leaves no trace in SQL: a disjunction of two is a list of
them, and a list of one is its member. -/
def bare : Predicate R → Predicate R
  | or l r => anyOf [l, r]
  | anyOf [p] => bare p
  | p => p

/-- A condition that is no disjunction of two and no list of one. -/
def IsBare : Predicate R → Prop
  | or _ _ => False
  | anyOf (_ :: rest) => rest ≠ []
  | _ => True

/-- What is bare has no trace to lose. -/
private theorem isBare_bare (p : Predicate R) : p.bare.IsBare := by
  fun_induction bare p with
  | case1 l r => exact List.cons_ne_nil r []
  | case2 p ih => exact ih
  | case3 p hor hany =>
    unfold IsBare
    split
    · exact hor _ _ rfl
    · rintro rfl
      exact hany _ rfl
    · trivial

/-- How the SQL of a bare condition opens. -/
def firstWord : Predicate R → String
  | always => "TRUE"
  | not _ => "NOT"
  | anyOf [] => "FALSE"
  | anyOf (_ :: _) | and _ _ | or _ _ | boxOverlap _ _ => "("
  | equals _ _ => "\""
  | distanceWithin _ _ _ => "ST_Distance"
  | intersectsBuffer _ _ _ => "ST_Intersects"
  | withinMeters _ _ _ => "ST_Distance_Sphere"
  | boundary .intersects _ _ _ => "ST_Intersects"
  | boundary .within _ _ _ => "ST_Within"
  | boundary .touches _ _ _ => "ST_Touches"

/-- The bare conditions that open like a given one. -/
def Alike : Predicate R → Predicate R → Prop
  | always, q => q = always
  | not _, q => ∃ p, q = not p
  | anyOf [], q => q = anyOf []
  | anyOf (_ :: _), q | and _ _, q | or _ _, q | boxOverlap _ _, q =>
    (∃ l r, q = and l r) ∨ (∃ a b rest, q = anyOf (a :: b :: rest)) ∨
      ∃ columns box, q = boxOverlap columns box
  | equals _ _, q => ∃ field value, q = equals field value
  | distanceWithin _ _ _, q => ∃ field point radius, q = distanceWithin field point radius
  | intersectsBuffer _ _ _, q =>
    (∃ field point radius, q = intersectsBuffer field point radius) ∨
      ∃ field wkt buffer, q = boundary .intersects field wkt buffer
  | withinMeters _ _ _, q => ∃ field point meters, q = withinMeters field point meters
  | boundary relation _ _ _, q =>
    (relation = .intersects ∧ ∃ field point radius, q = intersectsBuffer field point radius) ∨
      ∃ field wkt buffer, q = boundary relation field wkt buffer

/-- The first word of a condition tells its kind. -/
theorem alike_of_firstWord_eq {p q : Predicate R} (hq : q.IsBare)
    (h : p.firstWord = q.firstWord) : p.Alike q := by
  revert h
  -- a finite table: each pair of kinds either opens with two words or is listed in `Alike`
  fun_cases firstWord p <;> fun_cases firstWord q <;>
    simp_all [Alike, IsBare, List.ne_nil_iff_exists_cons]

variable [Scalar R]

private theorem memberSqlChars_eq_map (ps : List (Predicate R)) :
    memberSqlChars ps = ps.map sqlChars := by
  induction ps with
  | nil => rfl
  | cons p rest ih => rw [memberSqlChars_cons, ih, List.map_cons]

/-- What stands behind the first member of a list in SQL. -/
def laterSqlChars (ps : List (Predicate R)) : List Char :=
  ps.flatMap fun p => " OR ".toList ++ p.sqlChars

/-- A list of two or more is put in parentheses. -/
private theorem anyOf_append (p q : Predicate R) (rest : List (Predicate R)) (s : List Char) :
    (anyOf (p :: q :: rest)).sqlChars ++ s =
      '(' :: (p.sqlChars ++ (laterSqlChars (q :: rest) ++ ')' :: s)) := by
  rw [sqlChars_anyOf_cons, memberSqlChars_eq_map, List.map_cons, Text.separated_cons,
    Sql.grouped_append, laterSqlChars, List.flatMap_map, List.append_assoc]

private theorem and_append (l r : Predicate R) (s : List Char) :
    (and l r).sqlChars ++ s =
      '(' :: (l.sqlChars ++ (" AND ".toList ++ (r.sqlChars ++ ')' :: s))) := by
  rw [sqlChars_and, Sql.grouped_append, Sql.operation_append]
  rfl

/-- A disjunction is written like a list of two. -/
private theorem sqlChars_or_eq_anyOf (l r : Predicate R) :
    (or l r).sqlChars = (anyOf [l, r]).sqlChars := by
  have h := anyOf_append l r [] []
  rw [List.append_nil] at h
  rw [h, sqlChars_or]
  simp [laterSqlChars, Sql.grouped, Sql.operation]

private theorem sqlChars_bare (p : Predicate R) : p.bare.sqlChars = p.sqlChars := by
  fun_induction bare p with
  | case1 l r => rw [sqlChars_or_eq_anyOf]
  | case2 p ih => rw [ih, sqlChars_anyOf_singleton]
  | case3 p hor hany => rfl

private theorem evaluate_anyOf_singleton (row : Row R) (p : Predicate R) :
    (anyOf [p]).evaluate row = p.evaluate row := by
  rw [evaluate_anyOf, evaluateAny_cons]
  cases p.evaluate row with
  | error e => rfl
  | ok b => cases b <;> rfl

private theorem evaluate_or_eq_anyOf (row : Row R) (l r : Predicate R) :
    (or l r).evaluate row = (anyOf [l, r]).evaluate row := by
  rw [evaluate_or_eq, evaluate_anyOf, evaluateAny_cons, ← evaluate_anyOf_singleton row r,
    evaluate_anyOf]

private theorem evaluate_bare (row : Row R) (p : Predicate R) :
    p.bare.evaluate row = p.evaluate row := by
  fun_induction bare p with
  | case1 l r => rw [evaluate_or_eq_anyOf]
  | case2 p ih => rw [ih, evaluate_anyOf_singleton]
  | case3 p hor hany => rfl

private theorem evaluateAny_cons_congr {row : Row R} {p q : Predicate R}
    {ps qs : List (Predicate R)}
    (hfirst : p.evaluate row = q.evaluate row) (hrest : evaluateAny row ps = evaluateAny row qs) :
    evaluateAny row (p :: ps) = evaluateAny row (q :: qs) := by
  rw [evaluateAny_cons, evaluateAny_cons, hfirst, hrest]

/-- A bare condition opens with its first word. -/
theorem opening_sqlChars {p : Predicate R} (hp : p.IsBare) {s : List Char} (hs : Sql.IsEnd s) :
    Sql.opening (p.sqlChars ++ s) = p.firstWord.toList := by
  -- A text starts with a word, with the name of a function, with a parenthesis or with a quote.
  -- Each kind of start is settled once, then the nodes are told apart.
  have hword : ∀ (word : String) (s : List Char),
      word.toList.all (!Text.isDelimiter ·) = true → word.toList ≠ [] →
        (∀ c ∈ s.head?, (!Text.isDelimiter c) = false) →
          Sql.opening (word.toList ++ s) = word.toList :=
    fun _ _ hall hne hs => Sql.opening_word (List.all_eq_true.mp hall) hne hs
  have hcall : ∀ (name : String) (as : List (List Char)) (s : List Char),
      name.toList.all (!Text.isDelimiter ·) = true → name.toList ≠ [] →
        Sql.opening (Sql.call name as ++ s) = name.toList := by
    intro name as s hall hne
    rw [Sql.call_append]
    exact hword name _ hall hne (by simp [Text.isDelimiter])
  have hgroup : ∀ s : List Char, Sql.opening ('(' :: s) = "(".toList :=
    Sql.opening_delimiter (by decide)
  have hquote : ∀ s : List Char, Sql.opening ('"' :: s) = "\"".toList :=
    Sql.opening_delimiter (by decide)
  cases p with
  | always => exact hword "TRUE" s (by decide) (by decide) hs.isDelimiter
  | and l r =>
    rw [and_append]
    exact hgroup _
  | or l r => exact hp.elim
  | not p =>
    rw [sqlChars_not, Sql.grouped]
    exact hword "NOT" (' ' :: ('(' :: p.sqlChars ++ [')'] ++ s)) (by decide) (by decide)
      (by simp [Text.isDelimiter])
  | anyOf members =>
    rcases members with _ | ⟨p, _ | ⟨q, rest⟩⟩
    · exact hword "FALSE" s (by decide) (by decide) hs.isDelimiter
    · exact absurd rfl hp
    · rw [anyOf_append]
      exact hgroup _
  | equals field value =>
    rw [sqlChars_equals, Sql.operation_append, Sql.identifier, Text.enclosed]
    exact hquote _
  | distanceWithin field point radius =>
    rw [sqlChars_distanceWithin, Sql.operation_append]
    exact hcall "ST_Distance" _ _ (by decide) (by decide)
  | intersectsBuffer field point radius =>
    exact hcall "ST_Intersects" _ _ (by decide) (by decide)
  | withinMeters field point meters =>
    rw [sqlChars_withinMeters, Sql.operation_append]
    exact hcall "ST_Distance_Sphere" _ _ (by decide) (by decide)
  | boundary relation field wkt buffer =>
    rw [sqlChars_boundary]
    cases relation <;> exact hcall _ _ _ (by decide) (by decide)
  | boxOverlap columns box =>
    rw [sqlChars_boxOverlap, Sql.overlap_append]
    exact hgroup _

/-- What follows a member can belong to no condition. -/
private theorem isEnd_laterSqlChars (ps : List (Predicate R)) (s : List Char) :
    Sql.IsEnd (laterSqlChars ps ++ ')' :: s) := by
  cases ps <;> simp [laterSqlChars]

/-- The first condition within parentheses is not the comparison of a column with a number, as it
is where boxes are compared. -/
theorem sqlChars_append_ne_overlap (p : Predicate R) {columns : BoxColumns} {box : Box R}
    {s t : List Char} (hs : Sql.IsEnd s) :
    '(' :: (p.sqlChars ++ s) ≠ Sql.overlap columns box ++ t := by
  intro h
  rw [← sqlChars_bare, Sql.overlap_append, Sql.comparison, List.append_assoc,
    Sql.operation_append] at h
  have htext := (List.cons.inj h).2
  have hword : p.bare.firstWord = "\"" := by
    refine String.toList_inj.mp ?_
    rw [← opening_sqlChars p.isBare_bare hs, htext, Sql.identifier, Text.enclosed]
    exact Sql.opening_delimiter (by decide) _
  have halike : (equals columns.minx "").Alike p.bare :=
    alike_of_firstWord_eq p.isBare_bare hword.symm
  obtain ⟨field, value, hp⟩ := halike
  rw [hp, sqlChars_equals, Sql.operation_append] at htext
  obtain ⟨-, hoperator⟩ := Sql.identifier_append_inj (by simp) (by simp) htext
  simp at hoperator

/-- A buffer that is not positive does not matter. -/
theorem boundaryHolds_eq_of_not_pos {x y : R} (hx : ¬Scalar.zero < x) (hy : ¬Scalar.zero < y)
    (row : Row R) (relation : SpatialRelation) (field wkt : String) :
    boundaryHolds row relation field wkt x = boundaryHolds row relation field wkt y := by
  unfold boundaryHolds SpatialRelation.holds
  simp only [if_neg hx, if_neg hy]

/-! ### Reading a condition -/

/-- The text of a condition tells what it decides and where it ends. -/
def IsClear (p : Predicate R) : Prop :=
  ∀ (q : Predicate R) (s t : List Char), Sql.IsEnd s → Sql.IsEnd t →
    p.sqlChars ++ s = q.sqlChars ++ t → (∀ row, p.evaluate row = q.evaluate row) ∧ s = t

/-- A bare condition need only be told from the bare ones of its kind. -/
theorem IsClear.of_bare {p : Predicate R} (hp : p.IsBare)
    (h : ∀ (q : Predicate R) (s t : List Char), p.Alike q → Sql.IsEnd s → Sql.IsEnd t →
      p.sqlChars ++ s = q.sqlChars ++ t → (∀ row, p.evaluate row = q.evaluate row) ∧ s = t) :
    p.IsClear := by
  intro q s t hs ht heq
  rw [← sqlChars_bare q] at heq
  have hword : p.firstWord = q.bare.firstWord := by
    refine String.toList_inj.mp ?_
    rw [← opening_sqlChars hp hs, heq, opening_sqlChars q.isBare_bare ht]
  obtain ⟨heval, hend⟩ := h _ _ _ (alike_of_firstWord_eq q.isBare_bare hword) hs ht heq
  exact ⟨fun row => (heval row).trans (evaluate_bare row q), hend⟩

/-- A condition is as clear as one that is written and decided alike. -/
theorem IsClear.congr {p q : Predicate R} (hq : q.IsClear) (hsql : p.sqlChars = q.sqlChars)
    (heval : ∀ row, p.evaluate row = q.evaluate row) : p.IsClear := by
  intro r s t hs ht h
  rw [hsql] at h
  obtain ⟨hrow, hend⟩ := hq r s t hs ht h
  exact ⟨fun row => (heval row).trans (hrow row), hend⟩

private theorem isClear_always : (always : Predicate R).IsClear := by
  refine IsClear.of_bare trivial ?_
  rintro q s t rfl hs ht h
  exact ⟨fun row => rfl, List.append_cancel_left h⟩

private theorem isClear_anyOf_nil : (anyOf [] : Predicate R).IsClear := by
  refine IsClear.of_bare trivial ?_
  rintro q s t rfl hs ht h
  exact ⟨fun row => rfl, List.append_cancel_left h⟩

private theorem isClear_equals (field value : String) :
    (equals field value : Predicate R).IsClear := by
  refine IsClear.of_bare trivial ?_
  rintro q s t ⟨field', value', rfl⟩ hs ht h
  rw [sqlChars_equals, sqlChars_equals, Sql.operation_append, Sql.operation_append] at h
  obtain ⟨rfl, hrest⟩ := Sql.identifier_append_inj (by simp) (by simp) h
  have hright := List.append_cancel_left (List.cons.inj hrest).2
  obtain ⟨rfl, hend⟩ := Sql.literal_append_inj hs ht (List.cons.inj hright).2
  exact ⟨fun row => rfl, hend⟩

/-- A negation is as clear as what it negates. -/
theorem IsClear.not {p : Predicate R} (hp : p.IsClear) : (Predicate.not p).IsClear := by
  refine IsClear.of_bare trivial ?_
  rintro q s t ⟨p', rfl⟩ hs ht h
  rw [sqlChars_not, sqlChars_not, List.append_assoc, List.append_assoc, Sql.grouped_append,
    Sql.grouped_append] at h
  have hinner := (List.cons.inj (List.append_cancel_left h)).2
  obtain ⟨heval, hend⟩ := hp _ _ _ (by simp) (by simp) hinner
  refine ⟨fun row => ?_, (List.cons.inj hend).2⟩
  rw [evaluate_not_eq, evaluate_not_eq, heval row]

/-- A conjunction is clear if both its parts are. -/
theorem IsClear.and {l r : Predicate R} (hl : l.IsClear) (hr : r.IsClear) :
    (Predicate.and l r).IsClear := by
  refine IsClear.of_bare trivial ?_
  rintro q s t (⟨l', r', rfl⟩ | ⟨a, b, rest, rfl⟩ | ⟨columns, box, rfl⟩) hs ht h
  · rw [and_append, and_append] at h
    obtain ⟨hleft, hrest⟩ := hl _ _ _ (by simp) (by simp) (List.cons.inj h).2
    obtain ⟨hright, hend⟩ := hr _ _ _ (by simp) (by simp) (List.append_cancel_left hrest)
    refine ⟨fun row => ?_, (List.cons.inj hend).2⟩
    rw [evaluate_and_eq, evaluate_and_eq, hleft row, hright row]
  · rw [and_append, anyOf_append] at h
    obtain ⟨-, hrest⟩ := hl _ _ _ (by simp) (isEnd_laterSqlChars _ _) (List.cons.inj h).2
    simp [laterSqlChars] at hrest
  · rw [and_append, sqlChars_boxOverlap] at h
    exact absurd h (sqlChars_append_ne_overlap l (by simp))

/-- The later members of a list are told apart one by one. -/
theorem laterSqlChars_append_inj {ps : List (Predicate R)} (hps : ∀ p ∈ ps, p.IsClear)
    {qs : List (Predicate R)} {s t : List Char}
    (h : laterSqlChars ps ++ ')' :: s = laterSqlChars qs ++ ')' :: t) :
    (∀ row, evaluateAny row ps = evaluateAny row qs) ∧ s = t := by
  have hcons : ∀ (p : Predicate R) (ps : List (Predicate R)) (s : List Char),
      laterSqlChars (p :: ps) ++ s = " OR ".toList ++ (p.sqlChars ++ (laterSqlChars ps ++ s)) := by
    intro p ps s
    rw [laterSqlChars, List.flatMap_cons, List.append_assoc, List.append_assoc, laterSqlChars]
  induction ps generalizing qs with
  | nil =>
    cases qs with
    | nil => exact ⟨fun row => rfl, (List.cons.inj h).2⟩
    | cons q qs => simp [laterSqlChars] at h
  | cons p ps ih =>
    cases qs with
    | nil => simp [laterSqlChars] at h
    | cons q qs =>
      rw [hcons, hcons] at h
      obtain ⟨hfirst, hrest⟩ := hps p List.mem_cons_self _ _ _ (isEnd_laterSqlChars _ _)
        (isEnd_laterSqlChars _ _) (List.append_cancel_left h)
      obtain ⟨hlater, hend⟩ := ih (fun p hp => hps p (List.mem_cons_of_mem _ hp)) hrest
      exact ⟨fun row => evaluateAny_cons_congr (hfirst row) (hlater row), hend⟩

/-- A list is clear if its members are. -/
theorem IsClear.anyOf {ps : List (Predicate R)} (hps : ∀ p ∈ ps, p.IsClear) :
    (Predicate.anyOf ps).IsClear := by
  rcases ps with _ | ⟨a, _ | ⟨b, rest⟩⟩
  · exact isClear_anyOf_nil
  · refine (hps a List.mem_cons_self).congr ?_ fun row => evaluate_anyOf_singleton row a
    rw [sqlChars_anyOf_singleton]
  · have ha : a.IsClear := hps a List.mem_cons_self
    refine IsClear.of_bare (List.cons_ne_nil b rest) ?_
    rintro q s t (⟨l, r, rfl⟩ | ⟨a', b', rest', rfl⟩ | ⟨columns, box, rfl⟩) hs ht h
    · rw [anyOf_append, and_append] at h
      obtain ⟨-, hrest⟩ := ha _ _ _ (isEnd_laterSqlChars _ _) (by simp) (List.cons.inj h).2
      simp [laterSqlChars] at hrest
    · rw [anyOf_append, anyOf_append] at h
      obtain ⟨hfirst, hrest⟩ := ha _ _ _ (isEnd_laterSqlChars _ _) (isEnd_laterSqlChars _ _)
        (List.cons.inj h).2
      obtain ⟨hlater, hend⟩ :=
        laterSqlChars_append_inj (fun p hp => hps p (List.mem_cons_of_mem _ hp)) hrest
      refine ⟨fun row => ?_, hend⟩
      rw [evaluate_anyOf, evaluate_anyOf]
      exact evaluateAny_cons_congr (hfirst row) (hlater row)
    · rw [anyOf_append, sqlChars_boxOverlap] at h
      exact absurd h (sqlChars_append_ne_overlap a (isEnd_laterSqlChars _ _))

variable [PlainScalar R]

private theorem isClear_distanceWithin (field : String) (point : LatLng R) (radius : R) :
    (distanceWithin field point radius).IsClear := by
  refine IsClear.of_bare trivial ?_
  rintro q s t ⟨field', point', radius', rfl⟩ hs ht h
  rw [sqlChars_distanceWithin, sqlChars_distanceWithin] at h
  obtain ⟨rfl, rfl, rfl, hend⟩ := Sql.distance_append_inj hs ht h
  exact ⟨fun row => rfl, hend⟩

private theorem isClear_withinMeters (field : String) (point : LatLng R) (meters : R) :
    (withinMeters field point meters).IsClear := by
  refine IsClear.of_bare trivial ?_
  rintro q s t ⟨field', point', meters', rfl⟩ hs ht h
  rw [sqlChars_withinMeters, sqlChars_withinMeters] at h
  obtain ⟨rfl, rfl, rfl, hend⟩ := Sql.distance_append_inj hs ht h
  exact ⟨fun row => rfl, hend⟩

private theorem isClear_intersectsBuffer (field : String) (point : LatLng R) (radius : R) :
    (intersectsBuffer field point radius).IsClear := by
  refine IsClear.of_bare trivial ?_
  rintro q s t (⟨field', point', radius', rfl⟩ | ⟨field', wkt, buffer, rfl⟩) hs ht h
  · rw [sqlChars_intersectsBuffer, sqlChars_intersectsBuffer] at h
    obtain ⟨rfl, hshape⟩ := Sql.relation_append_inj h
    obtain ⟨rfl, rfl, hend⟩ := Sql.disc_append_inj hshape
    exact ⟨fun row => rfl, (List.cons.inj hend).2⟩
  · rw [sqlChars_intersectsBuffer, sqlChars_boundary] at h
    obtain ⟨-, hshape⟩ := Sql.relation_append_inj h
    exact absurd hshape Sql.disc_append_ne_shape

/-- The relation is the name of the function, and a buffer makes a call within the call. -/
private theorem isClear_boundary (relation : SpatialRelation) (field wkt : String) (buffer : R) :
    (boundary relation field wkt buffer).IsClear := by
  refine IsClear.of_bare trivial ?_
  rintro q s t (⟨rfl, field', point, radius, rfl⟩ | ⟨field', wkt', buffer', rfl⟩) hs ht h
  · rw [sqlChars_boundary, sqlChars_intersectsBuffer] at h
    obtain ⟨-, hshape⟩ := Sql.relation_append_inj h
    exact absurd hshape.symm Sql.disc_append_ne_shape
  · rw [sqlChars_boundary, sqlChars_boundary] at h
    obtain ⟨rfl, hshape⟩ := Sql.relation_append_inj h
    obtain ⟨rfl, hsign, hbuffer, hend⟩ := Sql.shape_append_inj hshape
    refine ⟨fun row => ?_, (List.cons.inj hend).2⟩
    change boundaryHolds row relation field wkt buffer =
      boundaryHolds row relation field wkt buffer'
    by_cases hpos : Scalar.zero < buffer
    · rw [hbuffer hpos]
    · exact boundaryHolds_eq_of_not_pos hpos (hsign.not.mp hpos) row relation field wkt

/-- An overlap is told by its four columns and four numbers. -/
private theorem isClear_boxOverlap (columns : BoxColumns) (box : Box R) :
    (boxOverlap columns box).IsClear := by
  refine IsClear.of_bare trivial ?_
  rintro q s t (⟨l, r, rfl⟩ | ⟨a, b, rest, rfl⟩ | ⟨columns', box', rfl⟩) hs ht h
  · rw [and_append, sqlChars_boxOverlap] at h
    exact absurd h.symm (sqlChars_append_ne_overlap l (by simp))
  · rw [anyOf_append, sqlChars_boxOverlap] at h
    exact absurd h.symm (sqlChars_append_ne_overlap a (isEnd_laterSqlChars _ _))
  · rw [sqlChars_boxOverlap, sqlChars_boxOverlap] at h
    obtain ⟨rfl, rfl, hend⟩ := Sql.overlap_append_inj h
    exact ⟨fun row => rfl, hend⟩

/-- The text of any condition tells what it decides, by induction on the condition. -/
theorem isClear (p : Predicate R) : p.IsClear := by
  match p with
  | always => exact isClear_always
  | and l r => exact l.isClear.and r.isClear
  | or l r =>
    have hpair : ∀ p ∈ [l, r], p.IsClear := by
      simp [l.isClear, r.isClear]
    exact (IsClear.anyOf hpair).congr (sqlChars_or_eq_anyOf l r)
      fun row => evaluate_or_eq_anyOf row l r
  | not p => exact p.isClear.not
  | anyOf members => exact IsClear.anyOf fun p hp => p.isClear
  | equals field value => exact isClear_equals field value
  | distanceWithin field point radius => exact isClear_distanceWithin field point radius
  | intersectsBuffer field point radius => exact isClear_intersectsBuffer field point radius
  | withinMeters field point meters => exact isClear_withinMeters field point meters
  | boundary relation field wkt buffer => exact isClear_boundary relation field wkt buffer
  | boxOverlap columns box => exact isClear_boxOverlap columns box

/-- Predicates with the same SQL decide every row alike, with the same failures. -/
theorem evaluate_eq_of_toSql_eq {p q : Predicate R} (h : p.toSql = q.toSql) (row : Row R) :
    p.evaluate row = q.evaluate row := by
  have hchars : p.sqlChars ++ [] = q.sqlChars ++ [] := by
    rw [List.append_nil, List.append_nil]
    exact String.ofList_injective h
  exact (p.isClear q [] [] Sql.isEnd_nil Sql.isEnd_nil hchars).1 row

/-- A condition on a column whose name would end early, and on a boundary that would go on, if
quotes were not doubled. -/
def sampleDisjunction : Predicate Float :=
  or (equals "mode\" = '' OR \"mode" "night' OR TRUE")
    (boundary .within "place" "POINT (0 0)')" (-1))

/-- The same as a list, with another buffer that is not positive. -/
def sampleList : Predicate Float :=
  anyOf [equals "mode\" = '' OR \"mode" "night' OR TRUE",
    boundary .within "place" "POINT (0 0)')" 0]

/-- The two have one text, and decide a row alike. -/
theorem evaluate_eq_of_toSql_eq_sample :
    sampleDisjunction.toSql = sampleList.toSql ∧
      sampleDisjunction.evaluate [("place", .str "POINT (0 0)")] =
        sampleList.evaluate [("place", .str "POINT (0 0)")] := by
  have hsql : sampleDisjunction.toSql = sampleList.toSql := by decide +kernel
  exact ⟨hsql, evaluate_eq_of_toSql_eq hsql _⟩

end Predicate

end TransitQuery
