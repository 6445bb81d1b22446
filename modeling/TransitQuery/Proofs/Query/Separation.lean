import TransitQuery.Proofs.Contract.Wire
import TransitQuery.Proofs.Query.Canonical

/-!
# What canonical forms keep apart

Queries with finite radii have one canonical form just if they ask for the same
(`SpatialQuery.canonicalBytes_eq_iff`): they agree in their own fields, and at each place either
both blocks resolve to one clause, or neither resolves and both are written alike.

A block that does not resolve stands in the canonical form as it was written, under the names that
a resolved one uses, too. The two are never confused, because whatever is written like a resolved
block has a known type and a known operator, and therefore resolves
(`Block.exists_resolve_of_toJson_eq`).

`Block.AsksLike` has two cases, one for each way in which two blocks can have one canonical form,
and an inherited radius counts like one that is written out. The bytes are compared by
`SpatialQuery.canonicalBytes_eq_iff_canonical_eq`, so that what is left is a statement about JSON
values: the members of the object of a block are read off by name, and those of a block as it was
written are its own fields (`Block.toJson_inj`).

The radii have to be finite, since all that are not are written as `null`; those of a query that
was read from a text are.
-/

namespace TransitQuery

variable {R : Type} [Scalar R]

namespace Block

/-! ### Blocks as they are written -/

/-- The type of a block, as it is written. -/
private theorem member?_toJson_type (b : Block R) : b.toJson.member? "type" = b.kind.map .str := by
  obtain ⟨_ | _, _ | _, _ | _, _ | _⟩ := b <;> rfl

private theorem member?_toJson_operator (b : Block R) :
    b.toJson.member? "operator" = b.operator.map .str := by
  obtain ⟨_ | _, _ | _, _ | _, _ | _⟩ := b <;> rfl

private theorem member?_toJson_value (b : Block R) :
    b.toJson.member? "value" = b.value.map .str := by
  obtain ⟨_ | _, _ | _, _ | _, _ | _⟩ := b <;> rfl

private theorem member?_toJson_distance (b : Block R) :
    b.toJson.member? "distance" = b.distance.map Json.ofScalar := by
  obtain ⟨_ | _, _ | _, _ | _, _ | _⟩ := b <;> rfl

/-- A block with a finite radius, if it has one, is known from how it is written. -/
theorem toJson_inj {b b' : Block R} (hb : b.IsWritable) (hb' : b'.IsWritable)
    (h : b.toJson = b'.toJson) : b = b' := by
  have hstr : Function.Injective (Json.str : String → Json R) := fun _ _ => Json.str.inj
  have hkind : b.kind = b'.kind := Option.map_injective hstr <| by
    rw [← member?_toJson_type, h, member?_toJson_type]
  have hoperator : b.operator = b'.operator := Option.map_injective hstr <| by
    rw [← member?_toJson_operator, h, member?_toJson_operator]
  have hvalue : b.value = b'.value := Option.map_injective hstr <| by
    rw [← member?_toJson_value, h, member?_toJson_value]
  -- A distance is read off its text, which a finite one has for itself.
  have hwritten : b.distance.map Json.ofScalar = b'.distance.map Json.ofScalar := by
    rw [← member?_toJson_distance, h, member?_toJson_distance]
  have hdistance : b.distance = b'.distance := by
    cases hd : b.distance with
    | none =>
      rw [hd] at hwritten
      exact (Option.map_eq_none_iff.mp hwritten.symm).symm
    | some d =>
      rw [hd] at hwritten
      obtain ⟨d', hd', heq⟩ := Option.map_eq_some_iff.mp hwritten.symm
      rw [hd', Json.ofScalar_inj (hb d hd) (hb' d' hd') heq.symm]
  obtain ⟨kind, operator, value, distance⟩ := b
  obtain ⟨kind', operator', value', distance'⟩ := b'
  cases hkind
  cases hoperator
  cases hvalue
  cases hdistance
  rfl

/-! ### Blocks that resolve and blocks that do not -/

/-- The clause of a block has a finite radius if the block does, and the query. -/
theorem hasFiniteRadius_of_resolve {b : Block R} {inherited : R} {s : Supplement R}
    (hb : b.IsWritable) (hinherited : Scalar.isFinite inherited = true)
    (h : b.resolve inherited = .ok s) : s.clause.hasFiniteRadius = true := by
  unfold resolve at h
  split at h
  · cases h
  split at h
  · cases h
  · cases h
  rename_i op _
  cases h
  cases op with
  | nearPoint =>
    show Scalar.isFinite (b.distance.getD inherited) = true
    cases hd : b.distance with
    | none => exact hinherited
    | some d => exact hb d hd
  | _ => rfl

/-- A block that is written like a resolved one resolves. -/
theorem exists_resolve_of_toJson_eq {b : Block R} {s : Supplement R} (h : b.toJson = s.toJson)
    (inherited : R) : ∃ t, b.resolve inherited = .ok t := by
  have hstr : Function.Injective (Json.str : String → Json R) := fun _ _ => Json.str.inj
  have hkind : b.kind = some s.type.name := Option.map_injective hstr <| by
    rw [← member?_toJson_type, h]
    rfl
  have hoperator : b.operator = some s.clause.kind.name := Option.map_injective hstr <| by
    rw [← member?_toJson_operator, h]
    rfl
  have htype : b.parsedType = .ok s.type := by
    rw [parsedType, hkind]
    simp only [BlockType.ofName?_name]
  have hop : b.parsedOperator = some (.ok s.clause.kind) := by
    rw [parsedOperator, hoperator]
    simp only [BlockOperator.ofName?_name, Option.map_some]
  exact ⟨_, by rw [resolve, htype, hop]⟩

/-- A resolved block and one that is not resolved never have one canonical form. -/
theorem canonical_ne_canonical {b b' : Block R} {inherited inherited' : R} {s : Supplement R}
    {e : ResolveError} (h : b.resolve inherited = .ok s) (h' : b'.resolve inherited' = .error e) :
    b.canonical inherited ≠ b'.canonical inherited' := by
  intro heq
  rw [canonical, canonical, h, h'] at heq
  obtain ⟨t, ht⟩ := exists_resolve_of_toJson_eq heq.symm inherited'
  rw [h'] at ht
  cases ht

/-- Blocks of two queries with the given radii ask for the same. -/
inductive AsksLike (inherited inherited' : R) (b b' : Block R) : Prop
  /-- Both resolve to one clause. -/
  | resolved {s : Supplement R} (h : b.resolve inherited = .ok s)
    (h' : b'.resolve inherited' = .ok s)
  /-- Neither resolves, and they are the same as they stand. -/
  | unresolved {e e' : ResolveError} (h : b.resolve inherited = .error e)
    (h' : b'.resolve inherited' = .error e') (heq : b = b')

/-- Blocks with finite radii have one canonical form just if they ask for the same. -/
theorem canonical_eq_canonical_iff {b b' : Block R} {inherited inherited' : R}
    (hb : b.IsWritable) (hb' : b'.IsWritable) (hinherited : Scalar.isFinite inherited = true)
    (hinherited' : Scalar.isFinite inherited' = true) :
    b.canonical inherited = b'.canonical inherited' ↔ AsksLike inherited inherited' b b' := by
  constructor
  · intro heq
    -- A block that resolves is never written like one that does not.
    cases h : b.resolve inherited with
    | ok s =>
      cases h' : b'.resolve inherited' with
      | ok s' =>
        rw [canonical, canonical, h, h'] at heq
        obtain rfl := Supplement.toJson_inj (hasFiniteRadius_of_resolve hb hinherited h)
          (hasFiniteRadius_of_resolve hb' hinherited' h') heq
        exact .resolved h h'
      | error e' => exact absurd heq (canonical_ne_canonical h h')
    | error e =>
      cases h' : b'.resolve inherited' with
      | ok s' => exact absurd heq.symm (canonical_ne_canonical h' h)
      | error e' =>
        rw [canonical, canonical, h, h'] at heq
        exact .unresolved h h' (toJson_inj hb hb' heq)
  · rintro (⟨h, h'⟩ | ⟨h, h', rfl⟩)
    · rw [canonical, canonical, h, h']
    · rw [canonical, canonical, h, h']

/-- So it is with lists of blocks. -/
theorem map_canonical_eq_iff {inherited inherited' : R} {blocks blocks' : List (Block R)}
    (hblocks : ∀ b ∈ blocks, b.IsWritable) (hblocks' : ∀ b ∈ blocks', b.IsWritable)
    (hinherited : Scalar.isFinite inherited = true)
    (hinherited' : Scalar.isFinite inherited' = true) :
    blocks.map (canonical inherited) = blocks'.map (canonical inherited') ↔
      List.Forall₂ (AsksLike inherited inherited') blocks blocks' := by
  induction blocks generalizing blocks' with
  | nil =>
    rw [List.map_nil, List.forall₂_nil_left_iff, eq_comm, List.map_eq_nil_iff]
  | cons b rest ih =>
    cases blocks' with
    | nil => simp
    | cons b' rest' =>
      obtain ⟨hb, hrest⟩ := List.forall_mem_cons.mp hblocks
      obtain ⟨hb', hrest'⟩ := List.forall_mem_cons.mp hblocks'
      rw [List.map_cons, List.map_cons, List.cons.injEq, List.forall₂_cons, ih hrest hrest',
        canonical_eq_canonical_iff hb hb' hinherited hinherited']

end Block

namespace SpatialQuery

/-- Two queries ask for the same: their own fields agree, and their blocks place by place. -/
structure AsksLike (q q' : SpatialQuery R) : Prop where
  find_eq : q.find = q'.find
  condition_eq : q.condition = q'.condition
  distance_eq : q.distance = q'.distance
  target_eq : q.target = q'.target
  blocks : List.Forall₂ (Block.AsksLike q.distance q'.distance) q.blocks q'.blocks

/-- The bytes that are hashed are the same for two queries with finite radii just if these ask for
the same. A block that resolves never has the text of one that does not. -/
theorem canonicalBytes_eq_iff [LegibleScalar R] {q q' : SpatialQuery R} (hq : q.IsWritable)
    (hq' : q'.IsWritable) :
    (q.canonicalBytes = q'.canonicalBytes ↔ q.AsksLike q') ∧
      ∀ (b b' : Block R) (inherited inherited' : R) (s : Supplement R) (e : ResolveError),
        b.resolve inherited = .ok s → b'.resolve inherited' = .error e →
          (b.canonical inherited).compact ≠ (b'.canonical inherited').compact := by
  refine ⟨?_, fun b b' inherited inherited' s e h h' heq => ?_⟩
  · rw [canonicalBytes_eq_iff_canonical_eq, canonical_eq_canonical_iff,
      Block.map_canonical_eq_iff hq.2 hq'.2 hq.1 hq'.1]
    constructor
    · rintro ⟨hfind, hcondition, hdistance, htarget, hblocks⟩
      exact ⟨hfind, hcondition, Json.ofScalar_inj hq.1 hq'.1 hdistance, htarget, hblocks⟩
    · rintro ⟨hfind, hcondition, hdistance, htarget, hblocks⟩
      exact ⟨hfind, hcondition, by rw [hdistance], htarget, hblocks⟩
  · -- texts of values with finite numbers are apart as the values are
    exact Block.canonical_ne_canonical h h' <|
      Json.eq_of_compactChars_eq (b.hasFiniteNumbers_canonical inherited)
        (b'.hasFiniteNumbers_canonical inherited') (String.ofList_injective heq)

/-- Buses near the selected point, spelled with what goes without saying or without, and a block of
an unknown type. -/
def spelled (explicit : Bool) : SpatialQuery FlatDouble where
  find := .routes
  condition := .within
  distance := (300 : Float)
  target := .selectedPoint
  blocks :=
    [⟨if explicit then some "include" else none, some "mode", some "Bus",
        if explicit then none else some (50 : Float)⟩,
      ⟨some "also-include", some "near_point", none, if explicit then some (300 : Float) else none⟩,
      ⟨some "sideways", some "mode", some "Rail", none⟩]

/-- The two spellings have one canonical form, and ask for the same. -/
theorem canonicalBytes_eq_iff_spelled :
    (spelled true).canonicalBytes = (spelled false).canonicalBytes ∧
      (spelled true).AsksLike (spelled false) := by
  have hwritable : ∀ explicit, (spelled explicit).IsWritable := fun explicit => by
    have hradii : ∀ b ∈ (spelled explicit).blocks, ∀ d ∈ b.distance,
        Scalar.isFinite d = true := by
      cases explicit <;> decide +kernel
    exact ⟨by cases explicit <;> decide +kernel, hradii⟩
  have hcanonical : (spelled true).canonical = (spelled false).canonical := by rfl
  have hbytes := canonicalBytes_eq_iff_canonical_eq.mpr hcanonical
  exact ⟨hbytes, (canonicalBytes_eq_iff (hwritable true) (hwritable false)).1.mp hbytes⟩

end SpatialQuery

end TransitQuery
