import TransitQuery.Proofs.Json.Fields

/-!
# Codecs

A kind of values is kept in JSON by a shape, a reader and a writer, a `Codec`. The laws of a codec
(`Codec.IsLawful`) are stated for the values that a text can hold, and only about JSON values:
whatever is read can be held, it is read again from what it is written as, what it is written as
fits the text and its shape, and to replace the scalars of a value is to replace them in what it
is written as. From them follows what becomes of a value that is written as text and read again:
its scalars are read as their texts are, and all else is kept (`Codec.IsLawful.ofText?_toText`).

The laws of a record come from those of its fields. They are stated here for the ways in which a
field may be read and written: required, with a default, left out or `null` where it is missing,
or a list.

The laws are lifted to lists and to values that may be missing by `Codec.IsLawful.listOf` and
`Codec.IsLawful.orNull`, so that a record needs a proof for its own fields only.
-/

namespace TransitQuery

/-- How values of a kind are kept in JSON. -/
structure Codec (R α : Type) where
  shape : Json.Shape
  ofJson? : Json R → Option α
  toJson : α → Json R
  /-- The value with each scalar replaced by what it is taken to, if each is taken to something. -/
  mapReals? : (R → Option R) → α → Option α

variable {R α : Type} [Scalar R]

namespace Codec

/-- Reads a text. -/
def ofText? (F : Codec R α) (text : String) : Option α :=
  (Json.parse? F.shape text).bind F.ofJson?

/-- The text of a value on one line. -/
def toText (F : Codec R α) (a : α) : String :=
  (F.toJson a).compact

/-- The laws of a codec for the values of which a condition holds, where containers may nest to
some depth. -/
structure IsLawful (F : Codec R α) (depth : Nat) (Holds : α → Prop) : Prop where
  /-- The condition holds of all that is read. -/
  holds_of_ofJson? : ∀ {v a}, v.Fits F.shape depth → F.ofJson? v = some a → Holds a
  /-- A value is read from what it is written as. -/
  ofJson?_toJson : ∀ {a}, Holds a → F.ofJson? (F.toJson a) = some a
  /-- What a value is written as can be read. -/
  fits : ∀ {a}, Holds a → (F.toJson a).Fits .any depth
  /-- No part of it is passed over. -/
  keeps : ∀ a, (F.toJson a).Keeps F.shape
  /-- Replacing scalars commutes with writing. -/
  mapReals?_toJson : ∀ {f a}, Json.YieldsFinite f → Holds a →
    (F.toJson a).mapReals? f = (F.mapReals? f a).map F.toJson
  /-- Replacing scalars keeps the condition. -/
  holds_mapReals? : ∀ {f a b}, Json.YieldsFinite f → Holds a → F.mapReals? f a = some b → Holds b

/-- A codec that loses nothing of a value that it can read. Within JSON values such a value comes
back as it is. From its text it comes back with its scalars as their texts are read, so that it is
the same just if these are. -/
structure RoundTrips (F : Codec R α) : Prop where
  /-- What a value is read as is read again from what that is written as. -/
  ofJson?_toJson : ∀ {depth v a}, v.Fits .any depth → F.ofJson? v = some a →
    F.ofJson? (F.toJson a) = some a
  /-- So is what a text is read as. -/
  ofJson?_toJson_of_text : ∀ {text a}, F.ofText? text = some a →
    F.ofJson? (F.toJson a) = some a
  /-- Its own text is read as itself but for the scalars. -/
  ofText?_toText : ∀ {text a}, F.ofText? text = some a →
    F.ofText? (F.toText a) = F.mapReals? Json.reread? a
  /-- It is read as itself just if each scalar is. -/
  ofText?_toText_eq_iff : ∀ {text a}, F.ofText? text = some a →
    (F.ofText? (F.toText a) = some a ↔ ∀ x ∈ (F.toJson a).reals, Json.reread? x = some x)

/-! ### Lists and values that may be missing -/

/-- The codec of lists, which are arrays. -/
def listOf (F : Codec R α) : Codec R (List α) where
  shape := .list F.shape
  ofJson? := Json.listOf? F.ofJson?
  toJson as := .arr (as.map F.toJson)
  mapReals? f as := as.mapM (F.mapReals? f)

/-- The codec of values that may be missing and are `null` then. -/
def orNull (F : Codec R α) : Codec R (Option α) where
  shape := F.shape
  ofJson? v := Json.optional F.ofJson? (some v)
  toJson := Json.ofOption F.toJson
  mapReals? f o := o.mapM (F.mapReals? f)

variable {F : Codec R α} {Holds : α → Prop} {depth : Nat}

/-- A lawful codec is a reader that carries its condition from values that fit. -/
theorem IsLawful.reads (hF : F.IsLawful depth Holds) :
    Json.Reads F.ofJson? F.shape depth Holds :=
  fun _ _ => hF.holds_of_ofJson?

/-- Lists are as lawful as their items, one level of nesting further out. -/
theorem IsLawful.listOf (hF : F.IsLawful depth Holds) :
    F.listOf.IsLawful (depth + 1) fun as => ∀ a ∈ as, Holds a where
  holds_of_ofJson? {v as} hfits h := hF.reads.listOf? rfl rfl v as hfits h
  ofJson?_toJson has := Json.listOf?_map fun a ha => hF.ofJson?_toJson (has a ha)
  fits has := Json.fits_arr (List.forall_mem_map.mpr fun a ha => hF.fits (has a ha))
  keeps as := Json.keeps_arr (List.forall_mem_map.mpr fun a _ => hF.keeps a)
  mapReals?_toJson {f as} hf has := by
    have hitems : Json.mapItems? f (as.map F.toJson) =
        (as.mapM (F.mapReals? f)).map (List.map F.toJson) :=
      Json.mapItems?_map fun a ha => hF.mapReals?_toJson hf (has a ha)
    change (Json.mapItems? f (as.map F.toJson)).map Json.arr = _
    rw [hitems, Option.map_map]
    rfl
  holds_mapReals? hf has h b hb := by
    obtain ⟨a, ha, hab⟩ := Json.exists_of_mapM_eq_some h b hb
    exact hF.holds_mapReals? hf (has a ha) hab

/-- So are values that may be missing, if none of them is written as `null`. -/
theorem IsLawful.orNull (hF : F.IsLawful depth Holds) (hnull : F.ofJson? .null = none)
    (hskipped : F.shape ≠ .skipped) :
    F.orNull.IsLawful depth fun o => ∀ a ∈ o, Holds a where
  holds_of_ofJson? {v o} hfits h := by
    have hfield : Json.FieldFits depth ("", F.shape) (some v) := by
      rintro _ ⟨⟩
      exact hfits
    exact hF.reads.optional hfield h
  ofJson?_toJson ho := Json.optional_ofOption hnull fun a ha => hF.ofJson?_toJson (ho a ha)
  fits ho := Json.fits_ofOption fun a ha => hF.fits (ho a ha)
  keeps o := by
    cases o with
    | none => exact hskipped
    | some a => exact hF.keeps a
  mapReals?_toJson hf ho :=
    Json.mapReals?_ofOption fun a ha => hF.mapReals?_toJson hf (ho a ha)
  holds_mapReals? hf ho h :=
    Json.forall_mem_of_optionMapM (fun a ha _ => hF.holds_mapReals? hf (ho a ha)) h

/-! ### Values in text -/

/-- The text of a scalar is read as a finite one. -/
private theorem yieldsFinite_reread? [SteadyScalar R] : Json.YieldsFinite (Json.reread? (R := R)) :=
  fun _ _ => Json.isFinite_of_reread?

namespace IsLawful

/-- What is read from a text can be held. -/
theorem holds_of_ofText? [SteadyScalar R] (hF : F.IsLawful Json.maxDepth Holds) {text : String}
    {a : α} (h : F.ofText? text = some a) : Holds a := by
  obtain ⟨v, hv, ha⟩ := Option.bind_eq_some_iff.mp h
  exact hF.holds_of_ofJson? (Json.fits_of_parse? hv) ha

variable [LegibleScalar R] [SteadyScalar R]

/-- What is written as text is read again but for the scalars. -/
theorem ofText?_toText (hF : F.IsLawful Json.maxDepth Holds) {a : α} (ha : Holds a) :
    F.ofText? (F.toText a) = F.mapReals? Json.reread? a := by
  have hparse : Json.parse? F.shape (F.toText a) = (F.toJson a).mapReals? Json.reread? :=
    Json.parse?_compact ((hF.fits ha).of_any le_rfl F.shape) (hF.keeps a)
  rw [ofText?, hparse, hF.mapReals?_toJson yieldsFinite_reread? ha]
  cases hb : F.mapReals? Json.reread? a with
  | none => rfl
  | some b => exact hF.ofJson?_toJson (hF.holds_mapReals? yieldsFinite_reread? ha hb)

/-- It is read again as itself just if each of its scalars is. -/
theorem ofText?_toText_eq_iff (hF : F.IsLawful Json.maxDepth Holds) {a : α} (ha : Holds a) :
    F.ofText? (F.toText a) = some a ↔ ∀ x ∈ (F.toJson a).reals, Json.reread? x = some x := by
  rw [hF.ofText?_toText ha, ← Json.mapReals?_eq_self_iff,
    hF.mapReals?_toJson yieldsFinite_reread? ha]
  constructor
  · intro h
    rw [h, Option.map_some]
  · intro h
    obtain ⟨b, hb, heq⟩ := Option.map_eq_some_iff.mp h
    have hread := hF.ofJson?_toJson (hF.holds_mapReals? yieldsFinite_reread? ha hb)
    rw [heq, hF.ofJson?_toJson ha] at hread
    rw [hb, hread]

/-- A codec loses nothing if it is lawful wherever there is enough room, and in a text. -/
theorem roundTrips {Holds : Nat → α → Prop} {least : Nat} (hleast : least ≤ Json.maxDepth)
    (hF : ∀ depth, least ≤ depth → F.IsLawful depth (Holds depth)) : F.RoundTrips where
  ofJson?_toJson {depth v a} hfits h := by
    have hlaws := hF (depth + least) (by omega)
    exact hlaws.ofJson?_toJson (hlaws.holds_of_ofJson? (hfits.of_any (by omega) _) h)
  ofJson?_toJson_of_text h :=
    (hF _ hleast).ofJson?_toJson ((hF _ hleast).holds_of_ofText? h)
  ofText?_toText h := (hF _ hleast).ofText?_toText ((hF _ hleast).holds_of_ofText? h)
  ofText?_toText_eq_iff h :=
    (hF _ hleast).ofText?_toText_eq_iff ((hF _ hleast).holds_of_ofText? h)

end IsLawful

end Codec

end TransitQuery
