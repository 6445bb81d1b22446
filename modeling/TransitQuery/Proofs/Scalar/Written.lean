import TransitQuery.Proofs.Scalar.Ordered

/-!
# Scalars that are written with digits

In Well-Known Text a number is known by its first character. A type of scalars is *written* if its
finite members are written with digits, and if each of them is equal to itself, so that rings can
be closed. Doubles are.

A reader of Well-Known Text decides from one character whether a number, a word or a parenthesis
comes next, and the text of a finite scalar starts with a digit or a minus sign. A scalar that is
not finite is written as a word instead, and is refused. To be equal to itself is what the last
position of a ring needs: it is compared with the first one, and repeated if it is another.

For doubles the first law holds because the shortest decimal has a digit in front of the point, and
the second because a finite double stands in a place (`Double.beq_iff_place`).
-/

namespace TransitQuery

/-- A type of scalars whose finite members are written with digits. -/
class WrittenScalar (R : Type) [Scalar R] : Prop where
  exists_toNumeral : ∀ {x : R}, Scalar.isFinite x = true →
    ∃ negative digits exponent, Scalar.toNumeral .away x = .finite negative digits exponent
  beq_self : ∀ {x : R}, Scalar.isFinite x = true → (x == x) = true

/-- A finite scalar is written with a digit first, or with a minus sign. -/
theorem Scalar.exists_chars_eq_cons {R : Type} [Scalar R] [WrittenScalar R] {x : R}
    (h : isFinite x = true) : ∃ c s, chars x = c :: s ∧ (c.isDigit = true ∨ c = '-') := by
  obtain ⟨negative, digits, exponent, hnumeral⟩ := WrittenScalar.exists_toNumeral h
  obtain ⟨c, s, htext, hc⟩ := Numeral.exists_unsignedPlain_eq_cons digits exponent
  rw [chars, hnumeral, Numeral.plain_finite, htext]
  cases negative with
  | true => exact ⟨'-', c :: s, rfl, .inr rfl⟩
  | false => exact ⟨c, s, rfl, .inl hc⟩

namespace Double

private theorem beq_self_of_isFinite {x : Float} (h : isFinite x = true) : (x == x) = true := by
  obtain ⟨s, m, e, hunpack, -⟩ := exists_unpack h
  have hplace : place x = some (Binary64.signed s (m * 2 ^ e)) := by
    rw [place, hunpack, Binary64.place_unpacked]
  exact beq_iff_place.mpr ⟨_, hplace, hplace⟩

instance written (sin cos : Float → Float) (atan2 : Float → Float → Float) :
    @WrittenScalar Float (scalar sin cos atan2) :=
  letI := scalar sin cos atan2
  { exists_toNumeral := fun {x} hx => by
      obtain ⟨negative, mantissa, exponent, hparts, hcanonical⟩ := exists_parts hx
      obtain ⟨d, k, hs, -⟩ := Binary64.exists_shortest .away negative hcanonical
      exact ⟨negative, d, k, by rw [← hs, ← hparts]; rfl⟩
    beq_self := beq_self_of_isFinite }

end Double

instance : WrittenScalar FlatDouble :=
  Double.written (fun angle => angle) (fun _ => (1 : Float)) (fun y _ => y)

end TransitQuery
