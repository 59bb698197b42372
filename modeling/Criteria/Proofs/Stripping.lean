import Criteria.Decimal.OfBinary
import Criteria.Proofs.Agreement

/-! # Trailing zeros

Decimals of one value differ in the zeros behind their last digit and, when they are zero, in
their signs. Without those zeros they have one mantissa and one scale.
-/

namespace Criteria.Decimal

/-- What is left when zeros are dropped: the same number, and no zero behind the point. -/
structure DropsZeros (places mantissa : Nat) (left : Placed) : Prop where
  places_le : left.places ≤ places
  mantissa_eq : mantissa = left.mantissa * 10 ^ (places - left.places)
  last : left.places = 0 ∨ left.mantissa % 10 ≠ 0

theorem dropZeros_dropsZeros (places mantissa : Nat) :
    DropsZeros places mantissa (dropZeros places mantissa) := by
  induction places generalizing mantissa with
  | zero => exact ⟨Nat.le_refl 0, by simp [dropZeros], .inl rfl⟩
  | succ places ih =>
      rw [dropZeros]
      split
      · obtain ⟨placesLe, mantissaEq, last⟩ := ih (mantissa / 10)
        refine ⟨Nat.le_succ_of_le placesLe, ?_, last⟩
        calc mantissa
            = mantissa / 10 * 10 := by omega
          _ = (dropZeros places (mantissa / 10)).mantissa *
                10 ^ (places + 1 - (dropZeros places (mantissa / 10)).places) := by
              rw [Nat.succ_sub placesLe, Nat.pow_succ, ← Nat.mul_assoc, ← mantissaEq]
      · exact ⟨Nat.le_refl _, by simp, .inr ‹_›⟩

variable {places mantissa : Nat} {left : Placed}

theorem DropsZeros.mantissa_le (h : DropsZeros places mantissa left) :
    left.mantissa ≤ mantissa := by
  rw [h.mantissa_eq]
  exact Nat.le_mul_of_pos_right _ (by positivity)

theorem DropsZeros.mantissa_eq_zero_iff (h : DropsZeros places mantissa left) :
    left.mantissa = 0 ↔ mantissa = 0 := by
  rw [h.mantissa_eq, Nat.mul_eq_zero]
  exact (or_iff_left (by positivity)).symm

/-- The decimal without the zeros behind its last digit. -/
def stripped (d : Decimal) : Decimal where
  negative := d.negative
  mantissa := (dropZeros d.scale d.mantissa).mantissa
  scale := (dropZeros d.scale d.mantissa).places
  mantissa_lt := Nat.lt_of_le_of_lt (dropZeros_dropsZeros _ _).mantissa_le d.mantissa_lt
  scale_le := Nat.le_trans (dropZeros_dropsZeros _ _).places_le d.scale_le

theorem stripped_dropsZeros (d : Decimal) :
    DropsZeros d.scale d.mantissa ⟨d.stripped.mantissa, d.stripped.scale⟩ :=
  dropZeros_dropsZeros d.scale d.mantissa

theorem sameValue_stripped (d : Decimal) : d.sameValue d.stripped = true := by
  obtain ⟨scaleLe, mantissaEq, -⟩ := d.stripped_dropsZeros
  refine sameValue_iff.mpr ⟨?_, .inl rfl⟩
  calc d.mantissa * 10 ^ d.stripped.scale
      = d.stripped.mantissa * 10 ^ (d.scale - d.stripped.scale) * 10 ^ d.stripped.scale := by
        rw [← mantissaEq]
    _ = d.stripped.mantissa * 10 ^ d.scale := by
        rw [Nat.mul_assoc, ← Nat.pow_add, Nat.sub_add_cancel scaleLe]

/-- Of two decimals of one value without zeros behind their last digits, neither has more places
    than the other. -/
theorem scale_le_of_sameValue {a b : Decimal} (h : a.sameValue b = true)
    (last : b.scale = 0 ∨ b.mantissa % 10 ≠ 0) : b.scale ≤ a.scale := by
  by_contra more
  obtain ⟨crosswise, -⟩ := sameValue_iff.mp h
  obtain ⟨extra, hextra⟩ : ∃ extra, b.scale = a.scale + (extra + 1) :=
    ⟨b.scale - a.scale - 1, by omega⟩
  have mantissa : b.mantissa = a.mantissa * 10 ^ extra * 10 := by
    apply Nat.eq_of_mul_eq_mul_right (show 0 < 10 ^ a.scale by positivity)
    rw [← crosswise, hextra]
    ring
  omega

theorem stripped_of_sameValue {a b : Decimal} (h : a.sameValue b = true) :
    a.stripped.mantissa = b.stripped.mantissa ∧ a.stripped.scale = b.stripped.scale := by
  have same : a.stripped.sameValue b.stripped = true :=
    sameValue_trans (sameValue_symm a.sameValue_stripped) (sameValue_trans h b.sameValue_stripped)
  have scale : a.stripped.scale = b.stripped.scale :=
    Nat.le_antisymm (scale_le_of_sameValue (sameValue_symm same) a.stripped_dropsZeros.last)
      (scale_le_of_sameValue same b.stripped_dropsZeros.last)
  obtain ⟨crosswise, -⟩ := sameValue_iff.mp same
  rw [scale] at crosswise
  exact ⟨Nat.eq_of_mul_eq_mul_right (by positivity) crosswise, scale⟩

end Criteria.Decimal
