import TransitQuery.Proofs.Query.Canonical
import TransitQuery.Proofs.Scalar.Rational

/-!
# Canonical forms of equal queries

Doubles are compared as numbers, and so the two zeros are equal; their texts are `0.0` and `-0.0`.
Queries that are equal by comparison, block for block, have one canonical form just if their radii
agree in sign (`SpatialQuery.canonicalBytes_eq_iff_signs`), and then they have one digest. A radius
of minus zero is valid, and its query is equal to the one with radius zero, but their digests
differ (`SpatialQuery.hash_atPoint_ne`).

Comparison sees the value of a double, which is the mantissa times a power of two. Finite doubles
have canonical parts, and canonical parts with one value are the same unless the value is zero
(`Double.eq_or_zeros_of_beq`). So two radii that are equal by comparison are one double or the two
zeros, and the text of a zero shows its sign.

* `SpatialQuery.MeansSame`: equality by comparison, of the own fields and of what the blocks
  resolve to, whose radii may be inherited.
* `SpatialQuery.signs`: the signs of all radii of a query, in order. They can differ between such
  queries only where a radius is zero (`SpatialQuery.signs_eq_of_ne_zero`).
* `SpatialQuery.canonicalBytes_eq_iff_signs`: nothing but these signs can make a difference.
-/

namespace TransitQuery

/-! ### Zeros -/

/-- Whether a number has a minus sign. -/
def Binary64.isNegative : Binary64 → Bool
  | nan => false
  | infinite negative => negative
  | finite negative _ _ => negative

namespace Double

open Binary64 (IsCanonical limit signed toSign)

/-- Whether a double has a minus sign, which tells minus zero from zero. -/
def isNegative (x : Float) : Bool :=
  (parts x).isNegative

/-- An infinite double stands at the limit, on the side of its sign. -/
private theorem place_of_parts_eq_infinite {x : Float} {negative : Bool}
    (h : parts x = .infinite negative) :
    place x = some (signed (toSign negative) limit) := by
  have hparts : parts (.ofModel (.pack (.infinity (toSign negative)))) = .infinite negative := by
    cases negative <;> decide +kernel
  rw [eq_of_parts_eq (h.trans hparts.symm)]
  exact place_pack_infinity _

private theorem place_of_parts_eq_finite {x : Float} {negative : Bool} {m : Nat} {e : Int}
    (h : parts x = .finite negative m e) :
    place x = some (signed (toSign negative) (m * 2 ^ e)) := by
  rw [place, unpack_eq h, Binary64.place_unpacked]

private theorem place_of_parts_eq_nan {x : Float} (h : parts x = .nan) : place x = none := by
  have hparts : parts (.ofModel (.pack .notANumber)) = .nan := by
    decide +kernel
  rw [eq_of_parts_eq (h.trans hparts.symm)]
  rfl

/-- Canonical parts of one value are the same, or they are zeros. -/
private theorem finite_eq_or_zeros {negative negative' : Bool} {m m' : Nat} {e e' : Int}
    (h : IsCanonical m e) (h' : IsCanonical m' e')
    (hvalue : signed (toSign negative) (m * 2 ^ e) = signed (toSign negative') (m' * 2 ^ e')) :
    m = m' ∧ e = e' ∧ (m = 0 ∨ negative = negative') := by
  have hmagnitude : (m * 2 ^ e : ℚ) = m' * 2 ^ e' := by
    have habs := congrArg abs hvalue
    rwa [Binary64.abs_signed, Binary64.abs_signed, abs_of_nonneg (by positivity),
      abs_of_nonneg (by positivity)] at habs
  have hzero : ∀ {k : Nat} {i : Int}, k = 0 → (k * 2 ^ i : ℚ) = 0 := by
    rintro k i rfl
    rw [Nat.cast_zero, zero_mul]
  obtain ⟨rfl, rfl⟩ := Binary64.eq_of_shared h h' hzero
    (fun _ => Binary64.Interval.contains_self m e) (fun hm' => hmagnitude.trans (hzero hm'))
    fun _ => hmagnitude ▸ Binary64.Interval.contains_self m' e'
  refine ⟨rfl, rfl, ?_⟩
  by_contra hne
  obtain ⟨hm, hsign⟩ := not_or.mp hne
  have hpos : (0 : ℚ) < m * 2 ^ e := by positivity
  cases negative <;> cases negative' <;> simp [signed, toSign] at hvalue hsign <;> linarith

/-- Doubles that stand in one place have the same parts, or they are zeros. -/
private theorem parts_eq_or_zeros {x y : Float} {p : ℚ} (hx : place x = some p)
    (hy : place y = some p) :
    parts x = parts y ∨ ∃ negative negative', parts x = .finite negative 0 Binary64.minExponent ∧
      parts y = .finite negative' 0 Binary64.minExponent := by
  -- infinite doubles stand farther off than finite ones
  have hinfinite : ∀ {z : Float} {negative : Bool}, parts z = .infinite negative →
      place z = some p → p = signed (toSign negative) limit ∧ |p| = limit := by
    intro z negative hz hplace
    obtain rfl := Option.some.inj ((place_of_parts_eq_infinite hz).symm.trans hplace)
    exact ⟨rfl, by rw [Binary64.abs_signed, abs_of_pos Binary64.limit_pos]⟩
  have hfinite : ∀ {z : Float} {negative : Bool} {m : Nat} {e : Int},
      parts z = .finite negative m e → place z = some p →
        p = signed (toSign negative) (m * 2 ^ e) ∧ |p| < limit ∧ IsCanonical m e := by
    intro z negative m e hz hplace
    have hcanonical := Binary64.ofBits_isCanonical hz
    obtain rfl := Option.some.inj ((place_of_parts_eq_finite hz).symm.trans hplace)
    exact ⟨rfl, Binary64.abs_place_lt _ hcanonical, hcanonical⟩
  cases hpx : parts x with
  | nan =>
    rw [place_of_parts_eq_nan hpx] at hx
    cases hx
  | infinite negative =>
    obtain ⟨hp, hlimit⟩ := hinfinite hpx hx
    cases hpy : parts y with
    | nan =>
      rw [place_of_parts_eq_nan hpy] at hy
      cases hy
    | infinite negative' =>
      obtain ⟨hq, -⟩ := hinfinite hpy hy
      have hpos := Binary64.limit_pos
      left
      cases negative <;> cases negative' <;> simp [signed, toSign] at hp hq ⊢ <;> linarith
    | finite negative' m e => exact absurd hlimit (hfinite hpy hy).2.1.ne
  | finite negative m e =>
    obtain ⟨hp, hlt, hcanonical⟩ := hfinite hpx hx
    cases hpy : parts y with
    | nan =>
      rw [place_of_parts_eq_nan hpy] at hy
      cases hy
    | infinite negative' => exact absurd (hinfinite hpy hy).2 hlt.ne
    | finite negative' m' e' =>
      obtain ⟨hq, -, hcanonical'⟩ := hfinite hpy hy
      obtain ⟨rfl, rfl, rfl | rfl⟩ := finite_eq_or_zeros hcanonical hcanonical' (hp.symm.trans hq)
      · obtain rfl := hcanonical.exponent_of_zero
        exact .inr ⟨negative, negative', rfl, rfl⟩
      · exact .inl rfl

/-- Doubles that are equal as numbers are one double, or the two zeros. -/
theorem eq_or_zeros_of_beq {x y : Float} (h : (x == y) = true) :
    x = y ∨ x = 0 ∧ y = -0 ∨ x = -0 ∧ y = 0 := by
  have hzero : ∀ {z : Float} {negative : Bool},
      parts z = .finite negative 0 Binary64.minExponent → z = if negative then -0 else 0 := by
    intro z negative hz
    cases negative with
    | false => exact eq_of_parts_eq (hz.trans parts_zero.symm)
    | true => exact eq_of_parts_eq (hz.trans (parts_neg parts_zero).symm)
  obtain ⟨p, hx, hy⟩ := beq_iff_place.mp h
  obtain hparts | ⟨negative, negative', hpx, hpy⟩ := parts_eq_or_zeros hx hy
  · exact .inl (eq_of_parts_eq hparts)
  · rw [hzero hpx, hzero hpy]
    cases negative <;> cases negative' <;> simp

private theorem isNegative_zero : isNegative 0 = false := by
  decide +kernel

private theorem isNegative_neg_zero : isNegative (-0) = true := by
  decide +kernel

private theorem ofScalar_zero_ne_ofScalar_neg_zero :
    Json.ofScalar (0 : Float) ≠ Json.ofScalar (-0 : Float) := by
  intro h
  have hzero : (0 : Float) = -0 := Json.ofScalar_inj (by decide +kernel) (by decide +kernel) h
  have hsign := congrArg isNegative hzero
  rw [isNegative_zero, isNegative_neg_zero] at hsign
  cases hsign

/-- Doubles that are equal as numbers are written alike just if they agree in sign. -/
theorem ofScalar_eq_iff_of_beq {x y : Float} (h : (x == y) = true) :
    Json.ofScalar x = Json.ofScalar y ↔ isNegative x = isNegative y := by
  obtain rfl | ⟨rfl, rfl⟩ | ⟨rfl, rfl⟩ := eq_or_zeros_of_beq h
  · exact iff_of_true rfl rfl
  · rw [isNegative_zero, isNegative_neg_zero]
    exact iff_of_false ofScalar_zero_ne_ofScalar_neg_zero Bool.false_ne_true
  · rw [isNegative_zero, isNegative_neg_zero]
    exact iff_of_false ofScalar_zero_ne_ofScalar_neg_zero.symm Bool.false_ne_true.symm

/-- Only zeros are equal to a double of the other sign. -/
theorem isNegative_eq_of_beq {x y : Float} (h : (x == y) = true) (hx : (x == 0) = false) :
    isNegative x = isNegative y := by
  obtain rfl | ⟨rfl, -⟩ | ⟨rfl, -⟩ := eq_or_zeros_of_beq h
  · rfl
  · exact absurd hx (by decide)
  · exact absurd hx (by decide)

end Double

/-! ### Clauses that are equal by comparison -/

/-- The radius of a clause near the point. -/
def Clause.radius? {R : Type} : Clause R → Option R
  | nearPoint distance => some distance
  | _ => none

namespace Supplement

/-- Resolved blocks that are equal by comparison are one, or they differ in a radius. -/
theorem eq_or_nearPoint_of_beq {s t : Supplement Float} (h : (s == t) = true) :
    s = t ∧ s.clause.radius? = none ∨
      ∃ type d d', s = ⟨type, .nearPoint d⟩ ∧ t = ⟨type, .nearPoint d'⟩ ∧ (d == d') = true := by
  obtain ⟨type, clause⟩ := s
  obtain ⟨type', clause'⟩ := t
  obtain ⟨htype, hclause⟩ : (type == type') = true ∧ (clause == clause') = true :=
    Bool.and_eq_true_iff.mp h
  obtain rfl := eq_of_beq htype
  match clause, clause', hclause with
  | .nearPoint d, .nearPoint d', hradius => exact .inr ⟨type, d, d', rfl, rfl, hradius⟩
  | .touchesBoundary, .touchesBoundary, _ => exact .inl ⟨rfl, rfl⟩
  | .insideBoundary, .insideBoundary, _ => exact .inl ⟨rfl, rfl⟩
  | .operator value, .operator value', hvalue =>
    obtain rfl : value = value' := eq_of_beq hvalue
    exact .inl ⟨rfl, rfl⟩
  | .mode value, .mode value', hvalue =>
    obtain rfl : value = value' := eq_of_beq hvalue
    exact .inl ⟨rfl, rfl⟩

/-- They are written alike just if they agree in the sign of it. -/
theorem toJson_eq_iff_of_beq {s t : Supplement Float} (h : (s == t) = true) :
    s.toJson = t.toJson ↔
      s.clause.radius?.map Double.isNegative = t.clause.radius?.map Double.isNegative := by
  obtain ⟨rfl, -⟩ | ⟨type, d, d', rfl, rfl, hradius⟩ := eq_or_nearPoint_of_beq h
  · exact iff_of_true rfl rfl
  · simp only [toJson, Clause.toMembers, Clause.radius?, Clause.kind, Option.map_some,
      Option.some.injEq, Json.obj.injEq, List.cons.injEq, Prod.mk.injEq, true_and, and_true]
    exact Double.ofScalar_eq_iff_of_beq hradius

end Supplement

/-! ### Queries that are equal by comparison -/

/-- Properties that are equivalent for related members are equivalent for related lists. -/
private theorem forall₂_iff_of_forall₂ {α β : Type} {r p p' : α → β → Prop} {as : List α}
    {bs : List β}
    (h : List.Forall₂ r as bs) (hiff : ∀ a b, r a b → (p a b ↔ p' a b)) :
    List.Forall₂ p as bs ↔ List.Forall₂ p' as bs := by
  induction h with
  | nil => exact iff_of_true .nil .nil
  | cons hab _ ih => rw [List.forall₂_cons, List.forall₂_cons, hiff _ _ hab, ih]

namespace Block

variable {R : Type}

/-- The radius of what a block resolves to, its own or the one of its query. -/
def radius? (inherited : R) (b : Block R) : Option R :=
  match b.resolve inherited with
  | .ok s => s.clause.radius?
  | .error _ => none

/-- Blocks of queries with the given radii resolve to clauses that are equal by comparison. -/
def ResolvesLike [BEq R] (inherited inherited' : R) (b b' : Block R) : Prop :=
  ∃ s s', b.resolve inherited = .ok s ∧ b'.resolve inherited' = .ok s' ∧ (s == s') = true

/-- Blocks that resolve alike have one canonical form just if their radii agree in sign. -/
private theorem canonical_eq_iff_of_resolvesLike {inherited inherited' : Float} {b b' : Block Float}
    (h : ResolvesLike inherited inherited' b b') :
    b.canonical inherited = b'.canonical inherited' ↔
      (b.radius? inherited).map Double.isNegative =
        (b'.radius? inherited').map Double.isNegative := by
  obtain ⟨s, s', hs, hs', heq⟩ := h
  rw [canonical, canonical, radius?, radius?, hs, hs']
  exact Supplement.toJson_eq_iff_of_beq heq

/-- A block whose radius is not zero has the sign of every block that resolves like it. -/
theorem map_isNegative_eq_of_resolvesLike {inherited inherited' : Float} {b b' : Block Float}
    (h : ResolvesLike inherited inherited' b b')
    (hradius : ∀ x ∈ b.radius? inherited, (x == 0) = false) :
    (b.radius? inherited).map Double.isNegative =
      (b'.radius? inherited').map Double.isNegative := by
  obtain ⟨s, s', hs, hs', heq⟩ := h
  rw [radius?, hs] at hradius
  rw [radius?, radius?, hs, hs']
  obtain ⟨rfl, -⟩ | ⟨type, d, d', rfl, rfl, hd⟩ := Supplement.eq_or_nearPoint_of_beq heq
  · rfl
  · exact congrArg some (Double.isNegative_eq_of_beq hd (hradius d rfl))

end Block

namespace SpatialQuery

variable {R : Type}

/-- The radius of a query and those of its blocks, `none` for a block without one. -/
def radii (q : SpatialQuery R) : List (Option R) :=
  some q.distance :: q.blocks.map (Block.radius? q.distance)

/-- The signs of the radii. -/
def signs (q : SpatialQuery Float) : List (Option Bool) :=
  q.radii.map (Option.map Double.isNegative)

/-- Two queries are equal by comparison: in their own fields, and block for block in what they
resolve to. -/
structure MeansSame [BEq R] (q q' : SpatialQuery R) : Prop where
  find_eq : q.find = q'.find
  condition_eq : q.condition = q'.condition
  distance_beq : (q.distance == q'.distance) = true
  target_eq : q.target = q'.target
  blocks : List.Forall₂ (Block.ResolvesLike q.distance q'.distance) q.blocks q'.blocks

/-- Signs agree if they do block for block. -/
private theorem signs_eq_iff {q q' : SpatialQuery Float} :
    q.signs = q'.signs ↔
      Double.isNegative q.distance = Double.isNegative q'.distance ∧
        List.Forall₂ (fun b b' => (b.radius? q.distance).map Double.isNegative =
          (b'.radius? q'.distance).map Double.isNegative) q.blocks q'.blocks := by
  rw [signs, signs, radii, radii, List.map_cons, List.map_cons, List.cons.injEq, List.map_map,
    List.map_map, ← List.forall₂_eq_eq_eq, List.forall₂_map_left_iff, List.forall₂_map_right_iff]
  exact and_congr_left' Option.some_inj

/-- Queries that are equal by comparison have one canonical form just if their radii agree in
sign. -/
theorem canonical_eq_iff_signs {q q' : SpatialQuery Float} (h : q.MeansSame q') :
    q.canonical = q'.canonical ↔ q.signs = q'.signs := by
  have hblocks := forall₂_iff_of_forall₂ h.blocks
    fun _ _ hresolves => Block.canonical_eq_iff_of_resolvesLike hresolves
  rw [canonical_eq_canonical_iff, signs_eq_iff, Double.ofScalar_eq_iff_of_beq h.distance_beq,
    ← List.forall₂_eq_eq_eq, List.forall₂_map_left_iff, List.forall₂_map_right_iff, hblocks]
  constructor
  · rintro ⟨-, -, hdistance, -, hsigns⟩
    exact ⟨hdistance, hsigns⟩
  · rintro ⟨hdistance, hsigns⟩
    exact ⟨h.find_eq, h.condition_eq, hdistance, h.target_eq, hsigns⟩

/-- Signs can differ in zeros only. -/
theorem signs_eq_of_ne_zero {q q' : SpatialQuery Float} (h : q.MeansSame q')
    (hradii : ∀ x, some x ∈ q.radii → (x == 0) = false) : q.signs = q'.signs := by
  have hdistance := hradii q.distance List.mem_cons_self
  have hblocks : ∀ b ∈ q.blocks, ∀ x ∈ b.radius? q.distance, (x == 0) = false :=
    fun b hb x hx => hradii x (List.mem_cons_of_mem _ (List.mem_map.mpr ⟨b, hb, hx⟩))
  exact signs_eq_iff.mpr ⟨Double.isNegative_eq_of_beq h.distance_beq hdistance,
    (List.forall₂_and_left _ _ |>.mpr ⟨hblocks, h.blocks⟩).imp fun _ _ hb =>
      Block.map_isNegative_eq_of_resolvesLike hb.2 hb.1⟩

/-- Queries over doubles that are equal by comparison, block for block in what they resolve to,
have the same bytes to be hashed just if their radii agree in sign, and then one digest. They do
unless a radius is zero. -/
theorem canonicalBytes_eq_iff_signs {q q' : SpatialQuery Float} (h : q.MeansSame q') :
    (q.canonicalBytes = q'.canonicalBytes ↔ q.signs = q'.signs) ∧
      (q.signs = q'.signs → q.hash = q'.hash) ∧
      ((∀ x, some x ∈ q.radii → (x == 0) = false) → q.hash = q'.hash) := by
  have hbytes : q.canonicalBytes = q'.canonicalBytes ↔ q.signs = q'.signs :=
    canonicalBytes_eq_iff_canonical_eq.trans (canonical_eq_iff_signs h)
  have hhash : q.signs = q'.signs → q.hash = q'.hash := fun hsigns => by
    rw [hash, hash, hbytes.mpr hsigns]
  exact ⟨hbytes, hhash, fun hradii => hhash (signs_eq_of_ne_zero h hradii)⟩

/-- Buses near the selected point, spelled with what goes without saying or without. -/
def phrased (explicit : Bool) (distance : Float) : SpatialQuery Float where
  find := .routes
  condition := .within
  distance := distance
  target := .selectedPoint
  blocks :=
    [⟨if explicit then some "include" else none, some "mode", some "Bus",
        if explicit then none else some 50⟩,
      ⟨some "also-include", some "near_point", if explicit then none else some "stray",
        if explicit then some distance else none⟩]

/-- Two ways of putting a query have one digest. -/
theorem canonicalBytes_eq_iff_signs_phrased :
    (phrased true 300).MeansSame (phrased false 300) ∧
      (phrased true 300).hash = (phrased false 300).hash := by
  have hsame : (phrased true 300).MeansSame (phrased false 300) :=
    { find_eq := rfl
      condition_eq := rfl
      distance_beq := by decide +kernel
      target_eq := rfl
      blocks := .cons ⟨_, _, rfl, rfl, by decide +kernel⟩
        (.cons ⟨_, _, rfl, rfl, by decide +kernel⟩ .nil) }
  exact ⟨hsame, (canonicalBytes_eq_iff_signs hsame).2.1 (by decide +kernel)⟩

/-- Whatever intersects the disc around the selected point. -/
def atPoint (distance : Float) : SpatialQuery Float :=
  { SpatialQuery.default with distance }

/-- Zero and minus zero are equal radii, both valid, and have two digests. -/
theorem hash_atPoint_ne :
    isRadius (-0 : Float) = true ∧ (atPoint 0).MeansSame (atPoint (-0)) ∧
      (atPoint 0).hash ≠ (atPoint (-0)).hash := by
  refine ⟨by decide +kernel, ⟨rfl, rfl, ?_, rfl, .nil⟩, ?_⟩
  · show ((0 : Float) == -0) = true
    decide +kernel
  · decide +kernel

end SpatialQuery

end TransitQuery
