import TransitQuery.Proofs.Decimal.Shortest
import TransitQuery.Scalar.Double

/-!
# Scalars that are known from their text

What is written as JSON can only be told apart if its numbers can. A type of scalars is *legible*
if every finite scalar is written as a number and no two of them alike. Doubles are, whatever the
trigonometric functions of the machine may be.

A finite double has a sign, a mantissa and an exponent that are canonical, hence known from its
value, and its text is a decimal that is nearer to it than to any other double, or at least as
near. So two doubles with one text have one value and one sign, and their bits are the same
(`Double.eq_of_toBits_eq`); the two zeros differ in the sign that is written.

`FlatDouble` is here because examples have to be computed: its operations are those of doubles, and
its trigonometric functions are simple enough to be evaluated.
-/

namespace TransitQuery

/-- A type of scalars whose finite members are known from their text. -/
class LegibleScalar (R : Type) [Scalar R] : Prop where
  /-- A finite scalar is written as a number. -/
  exists_toNumeral : ∀ {x : R}, Scalar.isFinite x = true →
    ∃ negative digits exponent, Scalar.toNumeral .toEven x = .finite negative digits exponent
  /-- Two finite scalars are not written alike. -/
  eq_of_json_eq : ∀ {x y : R}, Scalar.isFinite x = true → Scalar.isFinite y = true →
    (Scalar.toNumeral .toEven x).json = (Scalar.toNumeral .toEven y).json → x = y

namespace Double

/-- A double is nothing but its bits. -/
theorem eq_of_toBits_eq {x y : Float} (h : x.toBits = y.toBits) : x = y := by
  obtain ⟨x, hx⟩ := x
  obtain ⟨y, hy⟩ := y
  obtain rfl : x = y := h
  rfl

theorem exists_parts {x : Float} (h : isFinite x = true) :
    ∃ negative mantissa exponent, parts x = .finite negative mantissa exponent ∧
      Binary64.IsCanonical mantissa exponent := by
  unfold isFinite at h
  split at h
  · rename_i negative mantissa exponent hx
    exact ⟨negative, mantissa, exponent, hx, Binary64.ofBits_isCanonical hx⟩
  · cases h

instance legible (sin cos : Float → Float) (atan2 : Float → Float → Float) :
    @LegibleScalar Float (scalar sin cos atan2) :=
  letI := scalar sin cos atan2
  { exists_toNumeral := fun {x} hx => by
      obtain ⟨negative, mantissa, exponent, hparts, hcanonical⟩ := exists_parts hx
      obtain ⟨d, k, hs, -⟩ := Binary64.exists_shortest .toEven negative hcanonical
      exact ⟨negative, d, k, by rw [← hs, ← hparts]; rfl⟩
    eq_of_json_eq := fun {x y} hx hy h => by
      obtain ⟨negative, mantissa, exponent, hparts, hcanonical⟩ := exists_parts hx
      obtain ⟨negative', mantissa', exponent', hparts', hcanonical'⟩ := exists_parts hy
      have heq : (Binary64.shortest .toEven (parts x)).json =
          (Binary64.shortest .toEven (parts y)).json := h
      rw [hparts, hparts'] at heq
      have hsame := Binary64.eq_of_shortest_json_eq hcanonical hcanonical' heq
      rw [← hsame] at hparts'
      exact eq_of_toBits_eq (Binary64.ofBits_inj hparts hparts') }

end Double

/-- Doubles with the trigonometry of small angles, for examples that measure distances near the
equator. The functions of a machine do not evaluate in proofs. -/
def FlatDouble : Type := Float

namespace FlatDouble

instance : Scalar FlatDouble :=
  Double.scalar (fun angle => angle) (fun _ => (1 : Float)) (fun y _ => y)

instance : LegibleScalar FlatDouble :=
  Double.legible (fun angle => angle) (fun _ => (1 : Float)) (fun y _ => y)

end FlatDouble

end TransitQuery
