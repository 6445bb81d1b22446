import TransitQuery.Proofs.Json.Codec
import TransitQuery.Result

/-!
# Results are read back

The codec of results is lawful. A result has no scalars, and its count is an integer of 64 bits, so
that nothing of it is lost in a text.

Of the fields of a result only the count can fail to be written: an integer beyond 64 bits is read
as a scalar, and not as a count. `QueryResult.IsWritable` asks for no more than that. The
identifiers, the count, the error and the list of errors may each be missing, and are read as
missing then; the texts in them may be any.

The proof follows the other codecs: a result is a record of its fields
(`QueryResult.isRecord_toJson`), each field is read back in its own way, and no scalar is there to
be replaced. So a result that was read from a text has the count with which it can be written again
(`QueryResult.reads_natural?`).
-/

namespace TransitQuery

namespace QueryResult

variable {R : Type} [Scalar R]

/-- A result whose count a text can hold. -/
def IsWritable (r : QueryResult) : Prop :=
  ∀ n ∈ r.count, n < UInt64.size

/-- The codec of results, which have no scalars. -/
def codec : Codec R QueryResult where
  shape := .ofNames ["success", "serviceIds", "count", "error", "errors"]
  ofJson? := ofJson?
  toJson := toJson
  mapReals? _ := some

/-- The values of the fields of a result. -/
def fields (r : QueryResult) : List (String × Option (Json R)) :=
  [("success", some (.bool r.success)), ("serviceIds", r.serviceIds.map toJson.texts),
    ("count", r.count.map fun n : Nat => .int n), ("error", r.error.map .str),
    ("errors", r.errors.map toJson.texts)]

omit [Scalar R] in
/-- A result is a record of its fields. -/
theorem isRecord_toJson (r : QueryResult) : (r.toJson : Json R).IsRecord r.fields := by
  obtain ⟨_, _ | _, _ | _, _ | _, _ | _⟩ := r <;> rfl

/-- A count that is read has 64 bits. -/
theorem reads_natural? (shape : Json.Shape) (depth : Nat) :
    Json.Reads (R := R) Json.natural? shape depth fun n => n < UInt64.size := by
  intro v n hfits h
  cases v with
  | int i =>
    cases i with
    | ofNat m =>
      obtain rfl := Option.some.inj h
      exact Int.ofNat_lt.mp hfits.2
    | negSucc m => cases h
  | _ => cases h

/-- The codec of results is lawful for counts of 64 bits. -/
theorem isLawful (depth : Nat) : (codec (R := R)).IsLawful (depth + 2) IsWritable where
  holds_of_ofJson? {v r} hfits h := by
    obtain ⟨vs, hvs, h⟩ := Option.bind_eq_some_iff.mp h
    obtain _ | ⟨-, _ | ⟨-, _ | ⟨hcount, _ | ⟨-, _ | ⟨-, _ | _⟩⟩⟩⟩⟩ :=
      hfits.of_fields? (by decide) hvs
    simp only [Option.bind_eq_bind, Option.bind_eq_some_iff] at h
    obtain ⟨_, -, _, -, count, hc, _, -, _, -, heq⟩ := h
    obtain rfl := Option.some.inj heq
    exact (reads_natural? .any (depth + 1)).optional hcount hc
  ofJson?_toJson {r} _ := by
    have hfields : (r.toJson : Json R).fields? ["success", "serviceIds", "count", "error",
        "errors"] = some (r.fields.map (·.2)) := r.isRecord_toJson.fields?_eq rfl (by decide)
    have htexts (o : Option (List String)) :
        Json.optional (Json.listOf? Json.string?) (o.map (toJson.texts (R := R))) = some o :=
      Json.optional_map rfl fun ss _ => Json.listOf?_string?_map ss
    have hcount : Json.optional Json.natural? (r.count.map fun n : Nat => (.int n : Json R)) =
        some r.count := Json.optional_map rfl fun _ _ => rfl
    simp [codec, ofJson?, hfields, fields, Json.required, Json.bool?, htexts, hcount]
  fits {r} hr := by
    have htexts (ss : List String) : (toJson.texts ss : Json R).Fits .any (depth + 1) :=
      Json.fits_arr (by simp)
    have hcount : ∀ n ∈ r.count, (.int n : Json R).Fits .any (depth + 1) := fun n hn =>
      ⟨(by decide : Int64.minValue.toInt ≤ 0).trans (Int.natCast_nonneg n),
        Int.ofNat_lt.mpr (hr n hn)⟩
    refine r.isRecord_toJson.fits ?_
    simpa [fields, htexts] using hcount
  keeps r := r.isRecord_toJson.keeps_ofNames rfl
  mapReals?_toJson {f r} _ _ := by
    have htexts (o : Option (List String)) :
        (o.map (toJson.texts (R := R))).mapM (Json.mapReals? f) = some (o.map toJson.texts) := by
      cases o with
      | none => rfl
      | some ss => simp [toJson.texts, Json.mapReals?]
    have hcount : (r.count.map fun n : Nat => (.int n : Json R)).mapM (Json.mapReals? f) =
        some (r.count.map fun n : Nat => .int n) := by
      cases r.count <;> rfl
    refine r.isRecord_toJson.mapReals?_eq.trans ?_
    simp only [fields, Json.mapFields?, Option.mapM_some, Json.mapReals?, Json.mapM_map_str, htexts,
      hcount]
    exact congrArg some r.isRecord_toJson.symm
  holds_mapReals? _ hr h := by
    obtain rfl := Option.some.inj h
    exact hr

end QueryResult

end TransitQuery
