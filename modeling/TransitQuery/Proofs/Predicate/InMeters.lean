import TransitQuery.Proofs.Predicate.Boxes
import TransitQuery.Proofs.Predicate.Obstacles
import TransitQuery.Proofs.Scalar.Legible

/-!
# Exact forms

The exact form of a predicate is the predicate with the distance to a disc, in meters, in place of
each leaf by which its tier tests that disc; everything else stays where it is
(`ClauseContext.exists_exact_inMeters`). So what one form says about a row can be told from the
other leaf by leaf. A disc that is excluded stands under a negation and counts the other way round
(`ClauseContext.InMeters.evaluate_ne`).

On the native tier a predicate can be undecided on a row on which its exact form is decided,
because the two stop at different leaves. Boxes decide everything.

* `ClauseContext.InMeters`: the relation of the two predicates, with the discs that are asked about
  from left to right. It goes through the connectives, keeps every other leaf, and marks a disc
  once more as negated under a negation.
* `Contract.discs`: these discs, taken from the clauses of the contract, with the radius in meters
  of each.
* `ClauseContext.Follows`: on a row and for a value that is wanted, the leaf of the tier follows
  the distance.

A clause has an exact form wherever it is built (`ClauseContext.exists_exactForm`), and joining
goes the same way for both, because triviality is the same
(`ClauseContext.ExactForm.isTrivial_eq`). The theorem at the end holds for any column, whether or
not there are rows with something in it.
-/

namespace TransitQuery

variable {R : Type}

/-! ### Discs -/

/-- A disc around a point that a predicate asks about. -/
structure Disc (R : Type) where
  point : LatLng R
  meters : R
  /-- Whether the rows outside of it are wanted. -/
  excluded : Bool

/-- The disc under one more negation. -/
def Disc.negate (d : Disc R) : Disc R :=
  { d with excluded := !d.excluded }

/-- The disc around the selected point that an entry asks about, if it does. -/
def Entry.disc? (c : Context R) (entry : Entry R) : Option (Disc R) :=
  c.point.bind fun point =>
    entry.radius?.map fun meters => ⟨point, meters, entry.type = .excluded⟩

/-- An entry without a radius asks about no disc. -/
private theorem Entry.disc?_eq_none {c : Context R} {entry : Entry R} (h : entry.radius? = none) :
    entry.disc? c = none := by
  simp [disc?, h]

/-- One with a radius asks about the disc around the selected point, negated if it is excluded. -/
private theorem Entry.disc?_eq_some {c : Context R} {entry : Entry R} {point : LatLng R}
    {meters : R}
    (hpoint : c.point = some point) (h : entry.radius? = some meters) :
    entry.disc? c = some ⟨point, meters, entry.type = .excluded⟩ := by
  rw [disc?, hpoint, h, Option.bind_some, Option.map_some]

private theorem Entry.filterMap_disc?_cons (c : Context R) (entry : Entry R)
    (rest : List (Entry R)) :
    (entry :: rest).filterMap (disc? c) = (entry.disc? c).toList ++ rest.filterMap (disc? c) := by
  cases h : entry.disc? c <;> simp [h]

/-- The discs that a contract asks about, in the order of its clauses. -/
def Contract.discs (contract : Contract R) (c : Context R) : List (Disc R) :=
  contract.entries.filterMap (Entry.disc? c)

namespace Predicate

mutual

/-- Whether some leaf tests the distance to a point, in degrees or by boxes. -/
def testsPoint : Predicate R → Bool
  | distanceWithin .. | intersectsBuffer .. | boxOverlap .. => true
  | and l r | or l r => testsPoint l || testsPoint r
  | not p => testsPoint p
  | anyOf members => memberTestsPoint members
  | always | equals .. | withinMeters .. | boundary .. => false

/-- Whether some leaf of several predicates does. -/
def memberTestsPoint : List (Predicate R) → Bool
  | [] => false
  | p :: rest => testsPoint p || memberTestsPoint rest

end

/-- No attribute tests the distance to a point. -/
private theorem testsPoint_of_isAttribute {p : Predicate R} (h : p.IsAttribute) :
    p.testsPoint = false := by
  match p, h with
  | _, .always | _, .equals _ _ => rfl
  | _, .anyOf fields value =>
    rw [testsPoint]
    induction fields with
    | nil => rfl
    | cons field rest ih => simpa [memberTestsPoint, testsPoint] using ih

private theorem isTrivial_of_testsPoint {p : Predicate R} (h : p.testsPoint = true) :
    p.isTrivial = false := by
  match p, h with
  | and _ _, _ | or _ _, _ | not _, _ | anyOf _, _ => rfl
  | distanceWithin .., _ | intersectsBuffer .., _ | boxOverlap .., _ => rfl

variable [Scalar R]

/-! ### Values of connectives -/

private theorem evaluate_not_eq_ok_iff {row : Row R} {p : Predicate R} {v : Bool} :
    (not p).evaluate row = .ok v ↔ p.evaluate row = .ok !v := by
  rw [evaluate_not_eq]
  cases p.evaluate row with
  | error e => simp [bind, Except.bind]
  | ok b => cases b <;> cases v <;> simp

/-- When a conjunction has a value: the second part is not looked at if the first is false. -/
theorem evaluate_and_eq_ok_iff {row : Row R} {p q : Predicate R} {v : Bool} :
    (and p q).evaluate row = .ok v ↔
      p.evaluate row = .ok true ∧ q.evaluate row = .ok v ∨
        p.evaluate row = .ok false ∧ v = false := by
  rw [evaluate_and_eq]
  cases p.evaluate row with
  | error e => simp [bind, Except.bind]
  | ok b => cases b <;> simp [eq_comm]

/-- When a disjunction has a value: the second part is not looked at if the first is true. -/
theorem evaluate_or_eq_ok_iff {row : Row R} {p q : Predicate R} {v : Bool} :
    (or p q).evaluate row = .ok v ↔
      p.evaluate row = .ok false ∧ q.evaluate row = .ok v ∨
        p.evaluate row = .ok true ∧ v = true := by
  rw [evaluate_or_eq]
  cases p.evaluate row with
  | error e => simp [bind, Except.bind]
  | ok b => cases b <;> simp [eq_comm]

end Predicate

variable [Scalar R]

namespace ClauseContext

/-! ### Replacing leaves -/

/-- The second predicate is the first with its leaves about points replaced where they stand. From
left to right, each leaf by which the tier tests one of the discs gives way to the distance in
meters, on a column, to the same disc. -/
inductive InMeters (s : ClauseContext R) (field : String) :
    Predicate R → List (Disc R) → Predicate R → Prop
  | same {p : Predicate R} (h : p.testsPoint = false) : InMeters s field p [] p
  | leaf {p : Predicate R} {relation : Relation} {point : LatLng R} {meters : R}
    (h : s.tierLeaf relation point meters = .ok p) :
    InMeters s field p [⟨point, meters, false⟩] (.withinMeters field point meters)
  | not {p e : Predicate R} {ds : List (Disc R)} (h : InMeters s field p ds e) :
    InMeters s field (.not p) (ds.map Disc.negate) (.not e)
  | and {p e p' e' : Predicate R} {ds ds' : List (Disc R)} (h : InMeters s field p ds e)
    (h' : InMeters s field p' ds' e') : InMeters s field (.and p p') (ds ++ ds') (.and e e')
  | or {p e p' e' : Predicate R} {ds ds' : List (Disc R)} (h : InMeters s field p ds e)
    (h' : InMeters s field p' ds' e') : InMeters s field (.or p p') (ds ++ ds') (.or e e')

/-- For a predicate that is to have the value `v`: if the distance to a disc says of a row what is
wanted there, so does the leaf by which the tier tests the disc. What is wanted is `v` itself, or
the opposite for a disc that is excluded. -/
def Follows (s : ClauseContext R) (field : String) (row : Row R) (v : Bool) (d : Disc R) : Prop :=
  ∀ (relation : Relation) (leaf : Predicate R), s.tierLeaf relation d.point d.meters = .ok leaf →
    (Predicate.withinMeters field d.point d.meters).evaluate row = .ok (v ^^ d.excluded) →
      leaf.evaluate row = .ok (v ^^ d.excluded)

namespace InMeters

variable {s : ClauseContext R} {field : String} {p e : Predicate R} {ds : List (Disc R)}

/-- Where nothing is asked about discs, nothing changes. -/
theorem eq_of_nil (h : InMeters s field p [] e) : e = p := by
  generalize hds : ([] : List (Disc R)) = ds at h
  induction h with
  | same h => rfl
  | leaf h => cases hds
  | not h ih => rw [ih (List.map_eq_nil_iff.mp hds.symm).symm]
  | and h h' ih ih' =>
    obtain ⟨rfl, rfl⟩ := List.append_eq_nil_iff.mp hds.symm
    rw [ih rfl, ih' rfl]
  | or h h' ih ih' =>
    obtain ⟨rfl, rfl⟩ := List.append_eq_nil_iff.mp hds.symm
    rw [ih rfl, ih' rfl]

/-- If the leaves follow the distances, a predicate does not contradict its exact form, though it
may be undecided. -/
theorem evaluate_ne (h : InMeters s field p ds e) {row : Row R} {v : Bool}
    (hfollows : ∀ d ∈ ds, s.Follows field row v d) (he : e.evaluate row = .ok v) :
    p.evaluate row ≠ .ok !v := by
  induction h generalizing v with
  | same h => simp [he]
  | leaf h =>
    have hleaf := hfollows _ List.mem_cons_self _ _ h
    rw [Bool.xor_false] at hleaf
    rw [hleaf he]
    simp
  | not h ih =>
    intro hp
    rw [Predicate.evaluate_not_eq_ok_iff] at he hp
    refine ih (fun d hd relation leaf hleaf => ?_) he hp
    -- what is wanted of the disc stays the same, as both the value and the disc are negated
    have hwanted := hfollows _ (List.mem_map_of_mem hd) relation leaf hleaf
    rwa [Disc.negate, Bool.xor_not, ← Bool.not_xor] at hwanted
  | and h h' ih ih' =>
    intro hp
    rw [Predicate.evaluate_and_eq_ok_iff] at he hp
    obtain ⟨hleft, hright⟩ := List.forall_mem_append.mp hfollows
    obtain ⟨he, he'⟩ | ⟨he, rfl⟩ := he
    · obtain ⟨hp, hp'⟩ | ⟨hp, hv⟩ := hp
      · exact ih' hright he' hp'
      · obtain rfl : v = true := by simpa using hv
        exact ih hleft he hp
    · obtain ⟨hp, -⟩ | ⟨-, hv⟩ := hp
      · exact ih hleft he hp
      · cases hv
  | or h h' ih ih' =>
    intro hp
    rw [Predicate.evaluate_or_eq_ok_iff] at he hp
    obtain ⟨hleft, hright⟩ := List.forall_mem_append.mp hfollows
    obtain ⟨he, he'⟩ | ⟨he, rfl⟩ := he
    · obtain ⟨hp, hp'⟩ | ⟨hp, hv⟩ := hp
      · exact ih' hright he' hp'
      · obtain rfl : v = false := by simpa using hv
        exact ih hleft he hp
    · obtain ⟨hp, -⟩ | ⟨-, hv⟩ := hp
      · exact ih hleft he hp
      · cases hv

end InMeters

/-! ### Clauses -/

/-- A clause of an entry and its exact form on a column. -/
inductive ExactForm (s : ClauseContext R) (field : String) (entry : Entry R) :
    Predicate R → Predicate R → Prop
  /-- A clause that does not ask about a disc has only one form. -/
  | same {p : Predicate R} (h : entry.radius? = none) (hpoint : p.testsPoint = false) :
    ExactForm s field entry p p
  /-- The leaf of the tier is replaced by the distance. -/
  | disc {p : Predicate R} {relation : Relation} {point : LatLng R} {meters : R}
    (h : entry.radius? = some meters) (hpoint : s.context.point = some point)
    (hleaf : s.tierLeaf relation point meters = .ok p) :
    ExactForm s field entry p (.withinMeters field point meters)

/-- The leaf of a tier tests the distance to a point. -/
private theorem testsPoint_of_tierLeaf {s : ClauseContext R} {relation : Relation}
    {point : LatLng R}
    {meters : R} {p : Predicate R} (h : s.tierLeaf relation point meters = .ok p) :
    p.testsPoint = true := by
  obtain ⟨-, field, -, rfl⟩ | ⟨-, columns, box, -, -, rfl⟩ := tierLeaf_eq_ok h
  · cases relation <;> rfl
  · rfl

/-- The exact form of a clause is there if the clause is. -/
theorem exists_exactForm {s : ClauseContext R} (field : String) (hexact : s.exactField = none)
    {given : Option (Boundary R)} {entry : Entry R} {b : TypedClause R}
    (h : s.typedClause given entry = .ok b) :
    ∃ e, (s.exactOn field).typedClause given entry = .ok ⟨entry.type, e⟩ ∧
      b.type = entry.type ∧ ExactForm s field entry b.clause e := by
  obtain ⟨p, rfl, hclause⟩ := isClauseOf_of_typedClause h
  cases hclause with
  | leaf hradius hpoint _ hleaf =>
    exact ⟨_, typedClause_exactOn_of_radius given field hradius hpoint, rfl,
      .disc hradius hpoint hleaf⟩
  | meters _ _ hfield => cases hexact.symm.trans hfield
  | boundary hradius =>
    exact ⟨_, (typedClause_exactOn s given field hradius).trans h, rfl, .same hradius rfl⟩
  | comparison hradius hattribute =>
    exact ⟨_, (typedClause_exactOn s given field hradius).trans h, rfl,
      .same hradius (Predicate.testsPoint_of_isAttribute hattribute)⟩

/-! ### Joining -/

namespace ExactForm

variable {s : ClauseContext R} {field : String} {entry : Entry R} {p e : Predicate R}

/-- The two forms of a clause are trivial at once. -/
theorem isTrivial_eq (h : ExactForm s field entry p e) : p.isTrivial = e.isTrivial := by
  cases h with
  | same _ _ => rfl
  | disc _ _ hleaf => exact Predicate.isTrivial_of_testsPoint (testsPoint_of_tierLeaf hleaf)

/-- By itself a clause is not negated. -/
theorem inMeters (h : ExactForm s field entry p e) (htype : entry.type ≠ .excluded) :
    InMeters s field p (entry.disc? s.context).toList e := by
  cases h with
  | same h hpoint =>
    rw [Entry.disc?_eq_none h]
    exact .same hpoint
  | disc h hpoint hleaf =>
    rw [Entry.disc?_eq_some hpoint h, decide_eq_false htype]
    exact .leaf hleaf

/-- An excluded clause stands under a negation. -/
theorem inMeters_not (h : ExactForm s field entry p e) (htype : entry.type = .excluded) :
    InMeters s field (.not p) (entry.disc? s.context).toList (.not e) := by
  cases h with
  | same h hpoint =>
    rw [Entry.disc?_eq_none h]
    exact .same hpoint
  | disc h hpoint hleaf =>
    rw [Entry.disc?_eq_some hpoint h, decide_eq_true htype]
    exact .not (.leaf hleaf)

/-- A clause that counts for nothing asks about nothing. -/
theorem disc?_eq_none (h : ExactForm s field entry p e) (htrivial : p.isTrivial = true) :
    entry.disc? s.context = none := by
  cases h with
  | same h _ => exact Entry.disc?_eq_none h
  | disc _ _ hleaf =>
    rw [Predicate.isTrivial_of_testsPoint (testsPoint_of_tierLeaf hleaf)] at htrivial
    cases htrivial

/-- A clause and its exact form are joined in the same way. -/
theorem exists_join (h : ExactForm s field entry p e) {l l' : Predicate R} {ds : List (Disc R)}
    (hl : InMeters s field l ds l') :
    ∃ q q', entry.type.join (some l) p = some q ∧ entry.type.join (some l') e = some q' ∧
      InMeters s field q (ds ++ (entry.disc? s.context).toList) q' := by
  by_cases htrivial : p.isTrivial = true
  · refine ⟨l, l', join_of_isTrivial htrivial,
      join_of_isTrivial (h.isTrivial_eq.symm.trans htrivial), ?_⟩
    rw [h.disc?_eq_none htrivial, Option.toList_none, List.append_nil]
    exact hl
  · have htrivial' : ¬ e.isTrivial = true := fun he => htrivial (h.isTrivial_eq.trans he)
    unfold BlockType.join
    rw [if_neg htrivial, if_neg htrivial']
    match htype : entry.type with
    | .included => exact ⟨_, _, rfl, rfl, hl.and (h.inMeters (by simp [htype]))⟩
    | .excluded => exact ⟨_, _, rfl, rfl, hl.and (h.inMeters_not htype)⟩
    | .alsoIncluded => exact ⟨_, _, rfl, rfl, hl.or (h.inMeters (by simp [htype]))⟩

end ExactForm

section

variable {s : ClauseContext R} (field : String) {given : Option (Boundary R)}

/-- Clauses that are joined to an expression have exact forms that are joined to its exact form. -/
theorem exists_joinAll_inMeters (hexact : s.exactField = none) {entries : List (Entry R)}
    {bs : List (TypedClause R)} (hbs : entries.mapM (s.typedClause given) = .ok bs)
    {l l' : Predicate R} {ds : List (Disc R)} (hl : InMeters s field l ds l') :
    ∃ es p e, entries.mapM ((s.exactOn field).typedClause given) = .ok es ∧
      joinAll (some l) bs = some p ∧ joinAll (some l') es = some e ∧
      InMeters s field p (ds ++ entries.filterMap (Entry.disc? s.context)) e := by
  -- what has been joined so far, and the discs in it, grow with every entry
  induction entries generalizing bs l l' ds with
  | nil =>
    obtain rfl := mapM_nil_eq_ok_iff.mp hbs
    exact ⟨[], l, l', rfl, rfl, rfl, by rwa [List.filterMap_nil, List.append_nil]⟩
  | cons entry rest ih =>
    obtain ⟨b, bs', hb, hbs', rfl⟩ := mapM_cons_eq_ok_iff.mp hbs
    obtain ⟨e, he, htype, hform⟩ := exists_exactForm field hexact hb
    obtain ⟨q, q', hq, hq', hjoined⟩ := hform.exists_join hl
    obtain ⟨es, p, e', hes, hp, he', hall⟩ := ih hbs' hjoined
    refine ⟨⟨entry.type, e⟩ :: es, p, e', mapM_cons_eq_ok_iff.mpr ⟨_, _, he, hes, rfl⟩, ?_, ?_, ?_⟩
    · rw [joinAll_cons, htype, hq, hp]
    · rw [joinAll_cons, hq', he']
    · rw [Entry.filterMap_disc?_cons, ← List.append_assoc]
      exact hall

/-- The predicate of a contract with its leaves about points replaced is its exact form. -/
theorem exists_predicate_inMeters (hexact : s.exactField = none) {contract : Contract R}
    {p : Predicate R} (h : s.predicate contract = .ok p) :
    ∃ e, (s.exactOn field).predicate contract = .ok e ∧
      InMeters s field p (contract.discs s.context) e := by
  obtain ⟨m, bs, main, cs, hentries, -, htrivial, hcs, hclauses, hjoin⟩ :=
    exists_clauses_of_predicate h
  rw [clauses, hentries] at hclauses
  obtain ⟨_, _, hmain, -, hcons⟩ := mapM_cons_eq_ok_iff.mp hclauses
  obtain ⟨rfl, rfl⟩ := List.cons.inj hcons
  obtain ⟨main', hmain', -, hform⟩ := exists_exactForm field hexact hmain
  have hstart := hform.inMeters (by simp [Entry.type])
  obtain ⟨es, p', e, hes, hp', he, hall⟩ := exists_joinAll_inMeters field hexact hcs hstart
  obtain rfl : p = p' := Option.some.inj (hjoin.symm.trans hp')
  have hexactClauses : (s.exactOn field).clauses contract = .ok (⟨.included, main'⟩ :: es) := by
    rw [clauses, hentries]
    exact mapM_cons_eq_ok_iff.mpr ⟨_, _, hmain', hes, rfl⟩
  refine ⟨e, ?_, ?_⟩
  · rw [predicate_eq_map_clauses (isCompatible_of_predicate h) hentries, hexactClauses]
    have hfirst := join_none_included (hform.isTrivial_eq.symm.trans htrivial)
    show Except.ok ((joinAll none _).getD .always) = Except.ok e
    rw [joinAll_cons, hfirst, he, Option.getD_some]
  · rw [Contract.discs, hentries, Entry.filterMap_disc?_cons]
    exact hall

/-- On the tier of boxes everything is decided. -/
theorem isDecided_of_bbox (htier : s.tier = .bbox) {contract : Contract R} {p : Predicate R}
    (h : s.predicate contract = .ok p) (row : Row R) : p.IsDecided row := by
  obtain ⟨_, _, main, cs, -, -, -, -, hclauses, hjoin⟩ := exists_clauses_of_predicate h
  have hdecided : ∀ b ∈ (⟨.included, main⟩ : TypedClause R) :: cs, b.clause.IsDecided row := by
    intro b hb
    obtain ⟨entry, -, hentry⟩ := (exists_of_mapM_eq_ok hclauses).1 b hb
    exact isDecided_of_typedClause htier hentry row
  obtain ⟨hmain, hrest⟩ := List.forall_mem_cons.mp hdecided
  exact (joinAll_decided hmain hrest hjoin).1

end

/-- The exact form of a predicate is built wherever the predicate is, for any column, and it is the
predicate with the leaves of the tier about the discs of the contract, from left to right, replaced
by distances in meters to the same discs.

Take a row on which the leaves follow the distances: a leaf accepts the row if the distance does,
and the leaf of an excluded disc does only if the distance does. If the exact form accepts the row,
then the predicate does not reject it, and accepts it wherever discs are tested by boxes, or not at
all. -/
theorem exists_exact_inMeters {c : Context R} {s : ClauseContext R} (hs : ofContext c = .ok s)
    {contract : Contract R} {p : Predicate R} (hp : s.predicate contract = .ok p)
    (field : String) :
    ∃ e, (s.exactOn field).predicate contract = .ok e ∧
      InMeters s field p (contract.discs c) e ∧
      ∀ row, (∀ d ∈ contract.discs c, s.Follows field row true d) → e.evaluate row = .ok true →
        p.evaluate row ≠ .ok false ∧
          (s.tier = .bbox ∨ contract.discs c = [] → p.evaluate row = .ok true) := by
  obtain ⟨rfl, hexact, -⟩ := of_ofContext hs
  obtain ⟨e, he, hform⟩ := exists_predicate_inMeters field hexact hp
  refine ⟨e, he, hform, fun row hfollows htrue => ?_⟩
  have hne := hform.evaluate_ne hfollows htrue
  refine ⟨hne, ?_⟩
  rintro (htier | hnone)
  · obtain ⟨b, hb⟩ := isDecided_of_bbox htier hp row
    cases b with
    | true => exact hb
    | false => exact absurd hb hne
  · rw [hnone] at hform
    rwa [hform.eq_of_nil] at htrue

/-- Stops within a kilometer, even within half a kilometer, but not of trains. -/
def jettyContract : Contract FlatDouble where
  version := Contract.currentVersion
  find := .stops
  entries := [.main ⟨.selectedPoint, (1000 : Float), .intersects⟩,
    .supplement ⟨.included, .nearPoint (500 : Float)⟩, .supplement ⟨.excluded, .mode "Rail"⟩]
  boundary := none
  compiledAt := ⟨0, 0⟩
  context := ⟨true, false, false⟩
  hash := ""

/-- The point `(0, 0)`, and stops with boxes and modes. -/
def jettyContext : Context FlatDouble :=
  { Context.empty with
    bboxReady := true
    bboxFields := some BoxColumns.default
    modeField := some "mode"
    point := some ⟨(0 : Float), (0 : Float)⟩ }

/-- A jetty 126 meters away. -/
def jetty : Row FlatDouble :=
  let corner : Json FlatDouble := .real (0.0008 : Float)
  [("geometry", .obj [("type", .str "Point"), ("coordinates", .arr [corner, corner])]),
    ("maxx", corner), ("maxy", corner), ("minx", corner), ("miny", corner),
    ("mode", .str "Ferry")]

/-- Boxes on the columns of a jetty. -/
def jettyClauses : ClauseContext FlatDouble :=
  ⟨jettyContext, .bbox, none⟩

private theorem follows_jetty {d : Disc FlatDouble} (hd : d ∈ jettyContract.discs jettyContext) :
    jettyClauses.Follows "geometry" jetty true d := by
  have hleaves : ∀ d ∈ jettyContract.discs jettyContext, d.excluded = false ∧
      ∀ relation ∈ [Relation.within, Relation.intersects],
        (jettyClauses.tierLeaf relation d.point d.meters).toOption.all (·.accepts jetty) := by
    decide +kernel
  intro relation leaf hleaf _
  obtain ⟨hincluded, hleaves⟩ := hleaves d hd
  have haccepts := hleaves relation (by cases relation <;> simp)
  rw [hleaf] at haccepts
  rw [hincluded]
  exact Predicate.accepts_eq_true_iff.mp haccepts

/-- The contract of the jetty asks about two discs, and it is found by both forms. -/
theorem exists_exact_inMeters_jetty :
    ∃ p e, ofContext jettyContext = .ok jettyClauses ∧
      jettyClauses.predicate jettyContract = .ok p ∧
      (jettyClauses.exactOn "geometry").predicate jettyContract = .ok e ∧
      InMeters jettyClauses "geometry" p (jettyContract.discs jettyContext) e ∧
      (jettyContract.discs jettyContext).length = 2 ∧
      (∀ d ∈ jettyContract.discs jettyContext, jettyClauses.Follows "geometry" jetty true d) ∧
      e.evaluate jetty = .ok true ∧ p.evaluate jetty = .ok true := by
  have hs : ofContext jettyContext = .ok jettyClauses := rfl
  obtain ⟨p, hp⟩ : ∃ p, jettyClauses.predicate jettyContract = .ok p :=
    exists_eq_ok_of_isOk (by decide +kernel)
  obtain ⟨e, he, hform, hrow⟩ := exists_exact_inMeters hs hp "geometry"
  have haccepts : ((jettyClauses.exactOn "geometry").predicate jettyContract).toOption.any
      (·.accepts jetty) = true := by
    decide +kernel
  rw [he] at haccepts
  have htrue : e.evaluate jetty = .ok true := Predicate.accepts_eq_true_iff.mp haccepts
  exact ⟨p, e, hs, hp, he, hform, rfl, fun d hd => follows_jetty hd, htrue,
    (hrow jetty (fun d hd => follows_jetty hd) htrue).2 (.inl rfl)⟩

end ClauseContext

end TransitQuery
