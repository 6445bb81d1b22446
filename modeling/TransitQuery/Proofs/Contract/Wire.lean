import TransitQuery.Contract.Json
import TransitQuery.Proofs.Query.Compile
import TransitQuery.Proofs.Query.Wire
import TransitQuery.Proofs.Time.Instant

/-!
# Contracts are read back

The codec of contracts is lawful. The entries of a contract are told apart by their form: a main
clause has a target, and what a resolved block is written as never has one, so that it is not
read as a main clause, and the other way round. Each clause is written with exactly the content
that its operator has, and is read with it.

The proof has one section for each part of a contract: names, main clauses, resolved blocks,
entries, the metadata and the contract itself. Each section ends with an instance of
`Codec.IsLawful`, and uses those before it for its fields. Such an instance has four parts, which
are proved from the list of the fields alone, once it is known that what is written is a record
with these fields: it is read back, it fits into a text, it keeps the shape that it is declared
with, and replacing the scalars in what is written replaces those of the value. The lemmas on
records do the rest, so a further field means a further line in a list of fields.

A scalar that is not finite has no text in JSON. What is writable therefore asks for finite radii
(`Entry.IsWritable`), and for a boundary whose nesting the reader follows (`Contract.IsWritable`).
-/

namespace TransitQuery

variable {R : Type}

/-! ### Names -/

/-- A block type is known from its name. -/
theorem BlockType.ofName?_name (t : BlockType) : ofName? t.name = some t := by
  cases t <;> decide

theorem BlockType.ofJson?_name (t : BlockType) : ofJson? (.str t.name : Json R) = some t :=
  ofName?_name t

/-- An operator is known from its name. -/
theorem BlockOperator.ofName?_name (op : BlockOperator) : ofName? op.name = some op := by
  cases op <;> decide

/-- A relation is known from its name. -/
theorem Relation.ofName_name (r : Relation) : ofName r.name = r := by
  cases r <;> decide

theorem Relation.ofJson?_name (r : Relation) : ofJson? (.str r.name : Json R) = some r :=
  congrArg some (ofName_name r)

variable [Scalar R]

/-! ### Main clauses -/

namespace MainClause

/-- A main clause with its radius replaced. -/
def mapReals? (f : R → Option R) (m : MainClause R) : Option (MainClause R) :=
  (f m.distance).map fun distance => { m with distance }

/-- The codec of main clauses. -/
def codec : Codec R (MainClause R) where
  shape := .ofNames ["target", "distance", "relation"]
  ofJson? := ofJson?
  toJson := toJson
  mapReals? := mapReals?

/-- The values of the fields of a main clause. -/
def fields (m : MainClause R) : List (String × Option (Json R)) :=
  [("target", some (.str m.target.name)), ("distance", some (Json.ofScalar m.distance)),
    ("relation", some (.str m.relation.name))]

/-- A main clause is written as a record with its fields. -/
theorem isRecord_toJson (m : MainClause R) : m.toJson.IsRecord m.fields := rfl

theorem isLawful [SteadyScalar R] (depth : Nat) : (codec (R := R)).IsLawful (depth + 1)
    fun m => Scalar.isFinite m.distance = true where
  holds_of_ofJson? {v m} hfits h := by
    obtain ⟨vs, hvs, h⟩ := Option.bind_eq_some_iff.mp h
    obtain _ | ⟨-, _ | ⟨hdistance, _ | ⟨-, _ | _⟩⟩⟩ := hfits.of_fields? (by decide) hvs
    simp only [Option.bind_eq_bind, Option.bind_eq_some_iff] at h
    obtain ⟨_, -, distance, hd, _, -, heq⟩ := h
    obtain rfl := Option.some.inj heq
    exact (Json.reads_number? .any depth).required hdistance hd
  ofJson?_toJson {m} hm := by
    have hfields : m.toJson.fields? ["target", "distance", "relation"] =
        some (m.fields.map (·.2)) := m.isRecord_toJson.fields?_eq rfl (by decide)
    simp [codec, ofJson?, hfields, fields, Json.required, Target.ofJson?_name,
      Relation.ofJson?_name, Json.number?_ofScalar hm]
  fits {m} _ := m.isRecord_toJson.fits (by simp [fields])
  keeps m := m.isRecord_toJson.keeps_ofNames rfl
  mapReals?_toJson {f m} hf hm := by
    refine m.isRecord_toJson.mapReals?_eq.trans ?_
    simp only [fields, Json.mapFields?, Option.mapM_some, Json.mapReals?_ofScalar hf hm,
      Json.mapReals?, codec, mapReals?]
    cases f m.distance <;> rfl
  holds_mapReals? {f m m'} hf _ h := by
    obtain ⟨distance, hd, rfl⟩ := Option.map_eq_some_iff.mp h
    exact hf _ _ hd

end MainClause

/-! ### Resolved blocks -/

namespace Clause

/-- A clause with its radius replaced, if it has one. -/
def mapReals? (f : R → Option R) : Clause R → Option (Clause R)
  | nearPoint distance => (f distance).map nearPoint
  | c => some c

/-- The values of the content fields of a clause. -/
def content : Clause R → List (String × Option (Json R))
  | nearPoint distance => [("distance", some (Json.ofScalar distance))]
  | operator value | mode value => [("value", some (.str value))]
  | touchesBoundary | insideBoundary => []

/-- A clause is written with the content fields of its operator. -/
private theorem map_fst_content (c : Clause R) : c.content.map (·.1) = contentFields c.kind := by
  cases c <;> rfl

/-- A clause is read from its own operator and content. -/
theorem ofContent?_content {c : Clause R} (h : c.hasFiniteRadius = true) :
    ofContent? c.kind (c.content.map (·.2)) = some c := by
  cases c with
  | nearPoint distance =>
    exact congrArg (Option.map nearPoint) (Json.number?_ofScalar h)
  | _ => rfl

/-- A clause that is read from the members of an object that fits has a finite radius. -/
theorem hasFiniteRadius_of_ofMembers? [SteadyScalar R] {op : BlockOperator} {depth : Nat}
    {members : List (String × Json R)} {c : Clause R}
    (hfits : Json.MembersFit .any depth members) (h : ofMembers? op members = some c) :
    c.hasFiniteRadius = true := by
  obtain ⟨vs, hvs, hc⟩ := Option.bind_eq_some_iff.mp h
  have hany (name : String) : ∀ field ∈ [(name, Json.Shape.any)],
      Json.Shape.any.member field.1 = field.2 := by simp [Json.Shape.member]
  cases op with
  | nearPoint =>
    obtain _ | ⟨hdistance, _ | _⟩ := Json.fieldsFit_of_uniqueMembers? hfits (hany "distance") hvs
    obtain ⟨distance, hd, rfl⟩ := Option.map_eq_some_iff.mp hc
    exact (Json.reads_number? .any depth).required hdistance hd
  | touchesBoundary | insideBoundary =>
    obtain rfl := Option.some.inj hc
    rfl
  | operator | mode =>
    obtain _ | ⟨-, _ | _⟩ := Json.fieldsFit_of_uniqueMembers? hfits (hany "value") hvs
    obtain ⟨value, -, rfl⟩ := Option.map_eq_some_iff.mp hc
    rfl

/-- Replacing keeps a radius finite. -/
theorem hasFiniteRadius_mapReals? {f : R → Option R} (hf : Json.YieldsFinite f) {c c' : Clause R}
    (hc : c.hasFiniteRadius = true) (h : c.mapReals? f = some c') :
    c'.hasFiniteRadius = true := by
  cases c with
  | nearPoint distance =>
    obtain ⟨distance', hd, rfl⟩ := Option.map_eq_some_iff.mp h
    exact hf _ _ hd
  | _ =>
    obtain rfl := Option.some.inj h
    exact hc

end Clause

namespace Supplement

/-- A resolved block with its radius replaced, if it has one. -/
def mapReals? (f : R → Option R) (s : Supplement R) : Option (Supplement R) :=
  (s.clause.mapReals? f).map fun clause => { s with clause }

/-- The codec of resolved blocks. -/
def codec : Codec R (Supplement R) where
  shape := .any
  ofJson? := ofJson?
  toJson := toJson
  mapReals? := mapReals?

/-- The values of the fields of a resolved block. -/
def fields (s : Supplement R) : List (String × Option (Json R)) :=
  ("type", some (.str s.type.name)) :: ("operator", some (.str s.clause.kind.name)) ::
    s.clause.content

/-- A resolved block is written as a record with its fields. -/
theorem isRecord_toJson (s : Supplement R) : s.toJson.IsRecord s.fields := by
  obtain ⟨type, clause⟩ := s
  cases clause <;> rfl

private theorem nodup_map_fst_fields (s : Supplement R) : (s.fields.map (·.1)).Nodup := by
  obtain ⟨type, clause⟩ := s
  cases clause <;> simp [fields, Clause.content]

theorem isLawful [SteadyScalar R] (depth : Nat) : (codec (R := R)).IsLawful (depth + 1)
    fun s => s.clause.hasFiniteRadius = true where
  holds_of_ofJson? {v s} hfits h := by
    obtain ⟨members, hmembers, h⟩ := Option.bind_eq_some_iff.mp h
    simp only [Option.bind_eq_bind, Option.bind_eq_some_iff] at h
    obtain ⟨_, -, _, -, _, -, op, -, clause, hclause, heq⟩ := h
    obtain rfl := Option.some.inj heq
    cases v with
    | obj ms =>
      obtain rfl := Option.some.inj hmembers
      obtain ⟨inner, -, hms⟩ := hfits
      exact Clause.hasFiniteRadius_of_ofMembers? hms hclause
    | _ => cases hmembers
  ofJson?_toJson {s} hs := by
    have hmembers : s.toJson.members? = some (Json.present s.fields) :=
      congrArg Json.members? s.isRecord_toJson
    have htype : Json.uniqueMember? "type" (Json.present s.fields) =
        some (some (.str s.type.name)) :=
      Json.uniqueMember?_present s.nodup_map_fst_fields (by simp [fields])
    have hoperator : Json.uniqueMember? "operator" (Json.present s.fields) =
        some (some (.str s.clause.kind.name)) :=
      Json.uniqueMember?_present s.nodup_map_fst_fields (by simp [fields])
    -- The content of a clause is found among all the members by the names that its operator asks
    -- for.
    have hclause : Clause.ofMembers? s.clause.kind (Json.present s.fields) = some s.clause := by
      rw [Clause.ofMembers?, ← Clause.map_fst_content,
        Json.uniqueMembers?_present s.nodup_map_fst_fields (by simp [fields]), Option.bind_some,
        Clause.ofContent?_content hs]
    simp [codec, ofJson?, hmembers, htype, hoperator, hclause, Json.required,
      BlockType.ofJson?_name, operatorOf?, BlockOperator.ofName?_name]
  fits {s} _ := by
    refine s.isRecord_toJson.fits ?_
    obtain ⟨type, clause⟩ := s
    cases clause <;> simp [fields, Clause.content]
  keeps s := Json.keeps_any _
  mapReals?_toJson {f s} hf hs := by
    obtain ⟨type, clause⟩ := s
    cases clause with
    | nearPoint distance =>
      simp only [codec, toJson, Clause.toMembers, Json.mapReals?, Json.mapMembers?, mapReals?,
        Clause.mapReals?, Json.mapReals?_ofScalar hf hs]
      cases f distance <;> rfl
    | _ => rfl
  holds_mapReals? {f s s'} hf hs h := by
    obtain ⟨clause, hclause, rfl⟩ := Option.map_eq_some_iff.mp h
    exact Clause.hasFiniteRadius_mapReals? hf hs hclause

/-- What a resolved block is written as is no main clause, for it has no target. -/
theorem mainClause_ofJson?_toJson (s : Supplement R) : MainClause.ofJson? s.toJson = none := by
  have htarget : Json.uniqueMember? "target" (Json.present s.fields) = some none := by
    refine Json.uniqueMember?_present_of_notMem ?_
    obtain ⟨type, clause⟩ := s
    cases clause <;> simp [fields, Clause.content]
  have hrecord : s.toJson = .obj (Json.present s.fields) := s.isRecord_toJson
  rw [MainClause.ofJson?, hrecord, Json.fields?, Json.uniqueMembers?, htarget]
  simp [Json.uniqueMembers?, Json.required, Option.bind_assoc]

end Supplement

/-! ### Entries -/

namespace Entry

/-- An entry with a finite radius, if it has one. -/
def IsWritable : Entry R → Prop
  | main m => Scalar.isFinite m.distance = true
  | supplement s => s.clause.hasFiniteRadius = true

/-- An entry with its radius replaced, if it has one. -/
def mapReals? (f : R → Option R) : Entry R → Option (Entry R)
  | main m => (m.mapReals? f).map main
  | supplement s => (s.mapReals? f).map supplement

/-- The codec of entries. -/
def codec : Codec R (Entry R) where
  shape := .any
  ofJson? := ofJson?
  toJson := toJson
  mapReals? := mapReals?

/-- Entries are read back, each as what it is. -/
theorem isLawful [SteadyScalar R] (depth : Nat) :
    (codec (R := R)).IsLawful (depth + 1) IsWritable where
  holds_of_ofJson? {v e} hfits h := by
    have h : ofJson? v = some e := h
    unfold ofJson? at h
    split at h
    · rename_i m hm
      obtain rfl := Option.some.inj h
      exact (MainClause.isLawful depth).holds_of_ofJson? (hfits.of_any le_rfl _) hm
    · obtain ⟨s, hs, rfl⟩ := Option.map_eq_some_iff.mp h
      exact (Supplement.isLawful depth).holds_of_ofJson? hfits hs
  ofJson?_toJson {e} he := by
    cases e with
    | main m =>
      have hm : MainClause.ofJson? m.toJson = some m :=
        (MainClause.isLawful depth).ofJson?_toJson he
      simp [codec, ofJson?, toJson, hm]
    | supplement s =>
      have hs : Supplement.ofJson? s.toJson = some s :=
        (Supplement.isLawful depth).ofJson?_toJson he
      simp [codec, ofJson?, toJson, s.mainClause_ofJson?_toJson, hs]
  fits {e} he := by
    cases e with
    | main m => exact (MainClause.isLawful depth).fits he
    | supplement s => exact (Supplement.isLawful depth).fits he
  keeps e := Json.keeps_any _
  mapReals?_toJson {f e} hf he := by
    cases e with
    | main m =>
      refine ((MainClause.isLawful depth).mapReals?_toJson hf he).trans ?_
      change (m.mapReals? f).map MainClause.toJson = ((m.mapReals? f).map main).map toJson
      rw [Option.map_map]
      rfl
    | supplement s =>
      refine ((Supplement.isLawful depth).mapReals?_toJson hf he).trans ?_
      change (s.mapReals? f).map Supplement.toJson = ((s.mapReals? f).map supplement).map toJson
      rw [Option.map_map]
      rfl
  holds_mapReals? {f e e'} hf he h := by
    cases e with
    | main m =>
      obtain ⟨m', hm, rfl⟩ := Option.map_eq_some_iff.mp h
      exact (MainClause.isLawful depth).holds_mapReals? hf he hm
    | supplement s =>
      obtain ⟨s', hs, rfl⟩ := Option.map_eq_some_iff.mp h
      exact (Supplement.isLawful depth).holds_mapReals? hf he hs

end Entry

/-! ### Metadata -/

namespace ContextSnapshot

/-- The codec of snapshots, which have no scalars. -/
def codec : Codec R ContextSnapshot where
  shape := .ofNames ["has_point", "has_boundary", "spatial_ready"]
  ofJson? := ofJson?
  toJson := toJson
  mapReals? _ := some

/-- The values of the fields of a snapshot. -/
def fields (s : ContextSnapshot) : List (String × Option (Json R)) :=
  [("has_point", some (.bool s.hasPoint)), ("has_boundary", some (.bool s.hasBoundary)),
    ("spatial_ready", some (.bool s.spatialReady))]

omit [Scalar R] in
theorem isRecord_toJson (s : ContextSnapshot) : (s.toJson : Json R).IsRecord s.fields := rfl

/-- Snapshots are read back, and have no scalars to be replaced. -/
theorem isLawful (depth : Nat) : (codec (R := R)).IsLawful (depth + 1) fun _ => True where
  holds_of_ofJson? _ _ := trivial
  ofJson?_toJson {s} _ := by
    have hfields : (s.toJson : Json R).fields? ["has_point", "has_boundary", "spatial_ready"] =
        some (s.fields.map (·.2)) := s.isRecord_toJson.fields?_eq rfl (by decide)
    simp [codec, ofJson?, hfields, fields, Json.required, Json.bool?]
  fits {s} _ := s.isRecord_toJson.fits (by simp [fields])
  keeps s := s.isRecord_toJson.keeps_ofNames rfl
  mapReals?_toJson _ _ := rfl
  holds_mapReals? _ _ _ := trivial

end ContextSnapshot

namespace Contract

/-- The codec of the time and the snapshot of a compilation. -/
def metadataCodec : Codec R (Instant × ContextSnapshot) where
  shape := .record [("compiled_at", .any),
    ("context", .ofNames ["has_point", "has_boundary", "spatial_ready"])]
  ofJson? := metadataOfJson?
  toJson m := .obj [("compiled_at", .str m.1.toText), ("context", m.2.toJson)]
  mapReals? _ := some

/-- The values of the fields of the metadata. -/
def metadataFields (m : Instant × ContextSnapshot) : List (String × Option (Json R)) :=
  [("compiled_at", some (.str m.1.toText)), ("context", some m.2.toJson)]

omit [Scalar R] in
private theorem isRecord_metadataToJson (m : Instant × ContextSnapshot) :
    (metadataCodec.toJson m : Json R).IsRecord (metadataFields m) := rfl

/-- The time and the snapshot of a compilation are read back. -/
private theorem isLawful_metadata (depth : Nat) : (metadataCodec (R := R)).IsLawful (depth + 2)
    fun m => Instant.ofText? m.1.toText = some m.1 where
  holds_of_ofJson? {v m} hfits h := by
    obtain ⟨vs, hvs, h⟩ := Option.bind_eq_some_iff.mp h
    obtain _ | ⟨-, _ | ⟨-, _ | _⟩⟩ := hfits.of_fields? (by decide) hvs
    simp only [Option.bind_eq_bind, Option.bind_eq_some_iff] at h
    obtain ⟨text, -, time, htime, context, -, heq⟩ := h
    obtain rfl := Option.some.inj heq
    exact Instant.ofText?_toText_of_ofText? htime
  ofJson?_toJson {m} hm := by
    have hfields : (metadataCodec.toJson m : Json R).fields? ["compiled_at", "context"] =
        some ((metadataFields m).map (·.2)) :=
      (isRecord_metadataToJson m).fields?_eq rfl (by decide)
    have hcontext : ContextSnapshot.ofJson? (m.2.toJson : Json R) = some m.2 :=
      (ContextSnapshot.isLawful 0).ofJson?_toJson trivial
    change metadataOfJson? (metadataCodec.toJson m : Json R) = some m
    simp [metadataOfJson?, hfields, metadataFields, Json.required, Json.string?, hm, hcontext]
  fits {m} _ := by
    have hcontext : (m.2.toJson : Json R).Fits .any (depth + 1) :=
      (ContextSnapshot.isLawful depth).fits trivial
    exact (isRecord_metadataToJson m).fits (by simp [metadataFields, hcontext])
  keeps m := by
    have hcontext : (m.2.toJson : Json R).Keeps
        (.ofNames ["has_point", "has_boundary", "spatial_ready"]) :=
      (ContextSnapshot.isLawful 0).keeps m.2
    exact (isRecord_metadataToJson m).keeps
      (by simp [metadataFields, Json.Shape.member, List.lookup_cons, Json.keeps_any, hcontext])
  mapReals?_toJson _ _ := rfl
  holds_mapReals? _ hm h := by
    obtain rfl := Option.some.inj h
    exact hm

/-! ### Contracts -/

/-- A contract that a text can hold, but for its outermost braces. -/
structure IsWritable (depth : Nat) (c : Contract R) : Prop where
  entries : ∀ e ∈ c.entries, e.IsWritable
  boundary : ∀ b ∈ c.boundary, b.IsWritable depth
  compiledAt : Instant.ofText? c.compiledAt.toText = some c.compiledAt

/-- A contract with its scalars replaced. -/
def mapReals? (f : R → Option R) (c : Contract R) : Option (Contract R) := do
  let entries ← c.entries.mapM (Entry.mapReals? f)
  let boundary ← c.boundary.mapM (Boundary.mapReals? f)
  return { c with entries, boundary }

/-- The codec of contracts. -/
def codec : Codec R (Contract R) where
  shape := shape
  ofJson? := ofJson?
  toJson := toJson
  mapReals? := mapReals?

/-- The values of the fields of a contract. -/
def fields (c : Contract R) : List (String × Option (Json R)) :=
  [("version", some (.str c.version)), ("find", some (.str c.find.name)),
    ("blocks", some (Entry.codec.listOf.toJson c.entries)),
    ("boundary", some (Boundary.codec.orNull.toJson c.boundary)),
    ("metadata", some (metadataCodec.toJson (c.compiledAt, c.context))),
    ("hash", some (.str c.hash))]

/-- A contract is written as a record with its fields. -/
theorem isRecord_toJson (c : Contract R) : c.toJson.IsRecord c.fields := rfl

theorem isLawful [SteadyScalar R] (depth : Nat) :
    (codec (R := R)).IsLawful (depth + 3) (IsWritable (depth + 2)) where
  holds_of_ofJson? {v c} hfits h := by
    obtain ⟨vs, hvs, h⟩ := Option.bind_eq_some_iff.mp h
    obtain _ | ⟨-, _ | ⟨-, _ | ⟨hblocks, _ | ⟨hboundary, _ | ⟨hmetadata, _ | ⟨-, _ | _⟩⟩⟩⟩⟩⟩ :=
      hfits.of_fields? (by decide) hvs
    simp only [Option.bind_eq_bind, Option.bind_eq_some_iff] at h
    obtain ⟨⟨compiledAt, context⟩, hm, _, -, _, -, entries, he, boundary, hb, _, -, heq⟩ := h
    have hreadEntries : Json.Reads (Json.listOf? Entry.ofJson?) .any (depth + 2)
        fun es : List (Entry R) => ∀ e ∈ es, e.IsWritable :=
      (Entry.isLawful depth).reads.listOf? rfl rfl
    have hcompiledAt := (isLawful_metadata (R := R) depth).reads.required hmetadata hm
    -- a boundary may be missing, but what is there is not `null`
    rw [← Json.optional_nonNull?] at hb
    dsimp only at hcompiledAt heq
    obtain rfl := Option.some.inj heq
    exact ⟨hreadEntries.required hblocks he,
      (Boundary.isLawful (depth + 2)).reads.optional hboundary hb, hcompiledAt⟩
  ofJson?_toJson {c} hc := by
    have hfields : c.toJson.fields? ["version", "find", "blocks", "boundary", "metadata", "hash"] =
        some (c.fields.map (·.2)) := c.isRecord_toJson.fields?_eq rfl (by decide)
    have hentries : Json.listOf? Entry.ofJson? (Entry.codec.listOf.toJson c.entries) =
        some c.entries := (Entry.isLawful 0).listOf.ofJson?_toJson hc.entries
    have hmetadata : metadataOfJson? (metadataCodec.toJson (c.compiledAt, c.context) : Json R) =
        some (c.compiledAt, c.context) := (isLawful_metadata 0).ofJson?_toJson hc.compiledAt
    simp [codec, ofJson?, hfields, fields, Json.required, Json.string?, Find.ofJson?_name,
      hentries, hmetadata, Boundary.optional_toJson hc.boundary]
  fits {c} hc := by
    have hentries := (Entry.isLawful depth).listOf.fits hc.entries
    have hboundary := (Boundary.isLawful_orNull (depth + 2)).fits hc.boundary
    have hmetadata : (metadataCodec.toJson (c.compiledAt, c.context) : Json R).Fits .any
        (depth + 2) := (isLawful_metadata depth).fits hc.compiledAt
    exact c.isRecord_toJson.fits (by simp [fields, hentries, hboundary, hmetadata])
  keeps c := by
    have hmetadata : (metadataCodec.toJson (c.compiledAt, c.context) : Json R).Keeps
        (.record [("compiled_at", .any),
          ("context", .ofNames ["has_point", "has_boundary", "spatial_ready"])]) :=
      (isLawful_metadata 0).keeps (c.compiledAt, c.context)
    exact c.isRecord_toJson.keeps
      (by simp [fields, Json.Shape.member, List.lookup_cons, Json.keeps_any, hmetadata])
  mapReals?_toJson {f c} hf hc := by
    have hentries : (Entry.codec.listOf.toJson c.entries).mapReals? f =
        (c.entries.mapM (Entry.mapReals? f)).map Entry.codec.listOf.toJson :=
      (Entry.isLawful 0).listOf.mapReals?_toJson hf hc.entries
    have hboundary : (Boundary.codec.orNull.toJson c.boundary).mapReals? f =
        (c.boundary.mapM (Boundary.mapReals? f)).map Boundary.codec.orNull.toJson :=
      (Boundary.isLawful_orNull (depth + 2)).mapReals?_toJson hf hc.boundary
    -- the metadata has no scalars
    have hmetadata : (metadataCodec.toJson (c.compiledAt, c.context)).mapReals? f =
        some (metadataCodec.toJson (c.compiledAt, c.context)) := rfl
    refine c.isRecord_toJson.mapReals?_eq.trans ?_
    simp only [fields, Json.mapFields?, Option.mapM_some, Json.mapReals?, hentries, hboundary,
      hmetadata, codec, mapReals?]
    cases c.entries.mapM (Entry.mapReals? f) with
    | none => rfl
    | some entries => cases c.boundary.mapM (Boundary.mapReals? f) <;> rfl
  holds_mapReals? {f c c'} hf hc h := by
    obtain ⟨entries, hentries, h⟩ := Option.bind_eq_some_iff.mp h
    obtain ⟨boundary, hboundary, heq⟩ := Option.bind_eq_some_iff.mp h
    obtain rfl := Option.some.inj heq
    exact ⟨(Entry.isLawful 0).listOf.holds_mapReals? hf hc.entries hentries,
      (Boundary.isLawful_orNull (depth + 2)).holds_mapReals? hf hc.boundary hboundary,
      hc.compiledAt⟩

end Contract

end TransitQuery
