import TransitQuery.Proofs.Json.Legible
import TransitQuery.Proofs.Query.Compile

/-!
# What canonical forms tell

The bytes that are hashed determine the canonical form of a query
(`SpatialQuery.canonicalBytes_eq_iff_canonical_eq`), and this determines what a valid query asks
for: what it finds, its main clause and its blocks as they resolve
(`SpatialQuery.asks_eq_of_canonicalBytes_eq`). What is left out of the canonical form, the content
that an operator ignores, is left out of the contract, too.

The way goes back from the bytes in four steps. The bytes are those of a text, and a text is known
from them. The text is that of a JSON value, which is known from it because its numbers are finite:
a radius that is not finite is written as `null`. The value is an object with the same five members
for all queries. And each member is known: names are written differently for different
constructors, a finite radius is written as a number, and a block that resolves is written as its
clause (`Supplement.toJson_inj`).

What valid queries ask for is a consequence, since all their radii are finite and all their blocks
resolve. Queries that are not valid have canonical forms, too; what these keep apart is the subject
of `Separation`.
-/

namespace TransitQuery

/-! ### Bytes -/

/-- The loop that lists bytes appends those that are left. -/
private theorem read_loop_eq (bytes : ByteArray) (i : Nat) (read : List UInt8) :
    ByteArray.toList.loop bytes i read = read.reverse ++ bytes.data.toList.drop i := by
  fun_induction ByteArray.toList.loop bytes i read with
  | case1 i read hi ih =>
    have hi' : i < bytes.data.toList.length := hi
    have hget : bytes.get! i = bytes.data.toList[i] := by
      rw [ByteArray.get!, getElem!_pos bytes.data i hi, Array.getElem_toList]
    rw [ih, List.drop_eq_getElem_cons hi', hget, List.reverse_cons, List.append_assoc]
    rfl
  | case2 i read hi =>
    have hi' : bytes.data.toList.length ≤ i := not_lt.mp hi
    rw [List.drop_eq_nil_of_le hi', List.append_nil]

private theorem eq_of_utf8_eq {s t : String} (h : s.toUTF8.toList = t.toUTF8.toList) : s = t := by
  rw [ByteArray.toList, ByteArray.toList, read_loop_eq, read_loop_eq] at h
  exact String.toByteArray_inj.mp (ByteArray.ext (Array.toList_inj.mp (by simpa using h)))

/-! ### Names -/

private theorem Find.name_injective : Function.Injective Find.name := by
  rintro ⟨⟩ ⟨⟩ <;> simp [Find.name]

private theorem Condition.name_injective : Function.Injective Condition.name := by
  rintro ⟨⟩ ⟨⟩ <;> simp [Condition.name]

private theorem Target.name_injective : Function.Injective Target.name := by
  rintro ⟨⟩ ⟨⟩ <;> simp [Target.name]

private theorem BlockType.name_injective : Function.Injective BlockType.name := by
  rintro ⟨⟩ ⟨⟩ <;> simp [BlockType.name]

private theorem BlockOperator.name_injective : Function.Injective BlockOperator.name := by
  rintro ⟨⟩ ⟨⟩ <;> simp [BlockOperator.name]

variable {R : Type} [Scalar R]

/-! ### Parts of a canonical form -/

namespace Json

/-- A scalar is written as a finite number, or as `null`. -/
private theorem hasFiniteNumbers_ofScalar (x : R) : (ofScalar x).hasFiniteNumbers = true := by
  unfold ofScalar
  split
  · assumption
  · rfl

/-- A finite scalar is known from the value it is written as. -/
theorem ofScalar_inj {x y : R} (hx : Scalar.isFinite x = true) (hy : Scalar.isFinite y = true)
    (h : ofScalar x = ofScalar y) : x = y := by
  rw [ofScalar, ofScalar, if_pos hx, if_pos hy] at h
  exact Json.real.inj h

private theorem itemsHaveFiniteNumbers_map {α : Type} {f : α → Json R} {as : List α}
    (h : ∀ a ∈ as, (f a).hasFiniteNumbers = true) :
    itemsHaveFiniteNumbers (as.map f) = true := by
  induction as with
  | nil => rfl
  | cons a rest ih =>
    obtain ⟨ha, hrest⟩ := List.forall_mem_cons.mp h
    exact Bool.and_eq_true_iff.mpr ⟨ha, ih hrest⟩

end Json

namespace Supplement

/-- All numbers in a resolved block are finite. -/
private theorem hasFiniteNumbers_toJson (s : Supplement R) : s.toJson.hasFiniteNumbers = true := by
  obtain ⟨type, clause⟩ := s
  cases clause <;>
    simp [toJson, Clause.toMembers, Json.hasFiniteNumbers, Json.membersHaveFiniteNumbers,
      Json.hasFiniteNumbers_ofScalar]

/-- A resolved block with a finite radius is known from how it is written. -/
theorem toJson_inj {s t : Supplement R} (hs : s.clause.hasFiniteRadius = true)
    (ht : t.clause.hasFiniteRadius = true) (h : s.toJson = t.toJson) : s = t := by
  obtain ⟨type, clause⟩ := s
  obtain ⟨type', clause'⟩ := t
  simp only [toJson, Clause.toMembers, Json.obj.injEq, List.cons.injEq, Prod.mk.injEq,
    Json.str.injEq, true_and] at h
  obtain ⟨htype, hkind, hcontent⟩ := h
  obtain rfl := BlockType.name_injective htype
  have hkind := BlockOperator.name_injective hkind
  -- clauses of different operators are gone, and what is left differs in its content at most
  cases clause <;> cases clause' <;> cases hkind
  · simp only [List.cons.injEq, Prod.mk.injEq, true_and, and_true] at hcontent
    rw [Json.ofScalar_inj hs ht hcontent]
  · rfl
  · rfl
  · simpa using hcontent
  · simpa using hcontent

private theorem eq_of_map_toJson_eq {ss ts : List (Supplement R)}
    (hs : ∀ s ∈ ss, s.clause.hasFiniteRadius = true)
    (ht : ∀ t ∈ ts, t.clause.hasFiniteRadius = true)
    (h : ss.map toJson = ts.map toJson) : ss = ts := by
  induction ss generalizing ts with
  | nil => rw [List.map_eq_nil_iff.mp h.symm]
  | cons s rest ih =>
    cases ts with
    | nil => cases h
    | cons t rest' =>
      obtain ⟨hhead, htail⟩ := List.cons.inj h
      obtain ⟨hs, hrest⟩ := List.forall_mem_cons.mp hs
      obtain ⟨ht, hrest'⟩ := List.forall_mem_cons.mp ht
      rw [toJson_inj hs ht hhead, ih hrest hrest' htail]

end Supplement

/-! ### Canonical forms -/

namespace Block

private theorem hasFiniteNumbers_toJson (b : Block R) : b.toJson.hasFiniteNumbers = true := by
  obtain ⟨_ | _, _ | _, _ | _, _ | _⟩ := b <;>
    simp [toJson, Json.memberIfSome, Json.hasFiniteNumbers, Json.membersHaveFiniteNumbers,
      Json.hasFiniteNumbers_ofScalar]

/-- All numbers in the canonical form of a block are finite. -/
theorem hasFiniteNumbers_canonical (inherited : R) (b : Block R) :
    (b.canonical inherited).hasFiniteNumbers = true := by
  unfold canonical
  split
  · exact Supplement.hasFiniteNumbers_toJson _
  · exact b.hasFiniteNumbers_toJson

/-- The canonical forms of blocks that resolve are what they resolve to. -/
theorem map_canonical {inherited : R} {blocks : List (Block R)}
    {supplements : List (Supplement R)}
    (h : blocks.mapM (Block.resolve inherited) = .ok supplements) :
    blocks.map (Block.canonical inherited) = supplements.map Supplement.toJson := by
  induction blocks generalizing supplements with
  | nil =>
    rw [mapM_nil_eq_ok_iff.mp h]
    rfl
  | cons b rest ih =>
    obtain ⟨s, later, hs, hlater, rfl⟩ := mapM_cons_eq_ok_iff.mp h
    rw [List.map_cons, List.map_cons, ih hlater, canonical, hs]

end Block

namespace SpatialQuery

/-- A scalar that is not finite leaves `null`, so that a canonical form can always be read off its
bytes. -/
theorem hasFiniteNumbers_canonical (q : SpatialQuery R) : q.canonical.hasFiniteNumbers = true := by
  have hblocks : Json.itemsHaveFiniteNumbers (q.blocks.map (Block.canonical q.distance)) = true :=
    Json.itemsHaveFiniteNumbers_map fun b _ => b.hasFiniteNumbers_canonical q.distance
  simp [canonical, Json.hasFiniteNumbers, Json.membersHaveFiniteNumbers,
    Json.hasFiniteNumbers_ofScalar, hblocks]

/-- Queries have one canonical form if they agree in each part of it. -/
theorem canonical_eq_canonical_iff {q q' : SpatialQuery R} :
    q.canonical = q'.canonical ↔
      q.find = q'.find ∧ q.condition = q'.condition ∧
        Json.ofScalar q.distance = Json.ofScalar q'.distance ∧ q.target = q'.target ∧
        q.blocks.map (Block.canonical q.distance) =
          q'.blocks.map (Block.canonical q'.distance) := by
  simp only [canonical, Json.obj.injEq, List.cons.injEq, Prod.mk.injEq, Json.str.injEq,
    Json.arr.injEq, true_and, and_true, Find.name_injective.eq_iff,
    Condition.name_injective.eq_iff, Target.name_injective.eq_iff]

/-- The bytes tell the canonical form, and nothing else. -/
theorem canonicalBytes_eq_iff_canonical_eq [LegibleScalar R] {q q' : SpatialQuery R} :
    q.canonicalBytes = q'.canonicalBytes ↔ q.canonical = q'.canonical := by
  constructor
  · intro h
    exact Json.eq_of_compactChars_eq q.hasFiniteNumbers_canonical q'.hasFiniteNumbers_canonical
      (String.ofList_injective (eq_of_utf8_eq h))
  · intro h
    rw [canonicalBytes, canonicalBytes, h]

/-- Valid queries with equal canonical forms ask for the same. -/
theorem asks_eq_of_canonicalBytes_eq [LegibleScalar R] {q q' : SpatialQuery R}
    {supplements supplements' : List (Supplement R)}
    (hdistance : Scalar.isFinite q.distance = true)
    (hdistance' : Scalar.isFinite q'.distance = true)
    (hresolve : q.resolveBlocks = .ok supplements)
    (hresolve' : q'.resolveBlocks = .ok supplements')
    (hfinite : ∀ s ∈ supplements, s.clause.hasFiniteRadius = true)
    (hfinite' : ∀ s ∈ supplements', s.clause.hasFiniteRadius = true)
    (h : q.canonicalBytes = q'.canonicalBytes) :
    q.find = q'.find ∧ q.mainClause = q'.mainClause ∧ supplements = supplements' := by
  obtain ⟨hfind, hcondition, hradius, htarget, hblocks⟩ :=
    canonical_eq_canonical_iff.mp (canonicalBytes_eq_iff_canonical_eq.mp h)
  have hradius := Json.ofScalar_inj hdistance hdistance' hradius
  have hmain : q.mainClause = q'.mainClause := by
    rw [mainClause, mainClause, hradius, htarget, hcondition]
  rw [Block.map_canonical hresolve, Block.map_canonical hresolve'] at hblocks
  exact ⟨hfind, hmain, Supplement.eq_of_map_toJson_eq hfinite hfinite' hblocks⟩

end SpatialQuery

end TransitQuery
