import Criteria.Proofs.Scaling
import Criteria.Proofs.Stripping

/-! # Into the range of a decimal

Dropping digits one by one never makes a mantissa or the number of its places larger. A mantissa is
not rounded to zero when it falls short of a unit in the last place that is kept by no more than
one part in twenty.
-/

namespace Criteria.Decimal

/-- Neither more places nor a larger mantissa. -/
structure Placed.AtMost (left : Placed) (places mantissa : Nat) : Prop where
  places_le : left.places ≤ places
  mantissa_le : left.mantissa ≤ mantissa

theorem Placed.AtMost.mono {left : Placed} {places mantissa places' mantissa' : Nat}
    (h : left.AtMost places mantissa) (hplaces : places ≤ places')
    (hmantissa : mantissa ≤ mantissa') : left.AtMost places' mantissa' :=
  ⟨Nat.le_trans h.places_le hplaces, Nat.le_trans h.mantissa_le hmantissa⟩

theorem dropDigit_le (m : Nat) : dropDigit m ≤ m := by
  rw [dropDigit]
  split <;> omega

theorem dropExcess_atMost (kept excess m : Nat) : (dropExcess kept excess m).AtMost kept m := by
  induction excess generalizing m with
  | zero => exact ⟨Nat.le_refl kept, Nat.le_refl m⟩
  | succ excess ih =>
      rw [dropExcess]
      split
      · exact ⟨Nat.zero_le kept, Nat.zero_le m⟩
      · exact (ih (dropDigit m)).mono (Nat.le_refl kept) (dropDigit_le m)

theorem dropImprecise_atMost (limit places m : Nat) :
    (dropImprecise limit places m).AtMost places m := by
  induction places generalizing m with
  | zero => exact ⟨Nat.le_refl 0, Nat.le_refl m⟩
  | succ places ih =>
      rw [dropImprecise]
      split
      · exact (ih (dropDigit m)).mono (Nat.le_succ places) (dropDigit_le m)
      · exact ⟨Nat.le_refl _, Nat.le_refl m⟩

theorem dropZeros_atMost (places m : Nat) : (dropZeros places m).AtMost places m :=
  ⟨(dropZeros_dropsZeros places m).places_le, (dropZeros_dropsZeros places m).mantissa_le⟩

/-- Rounding a digit away keeps the mantissa above nineteen twentieths of a unit. The first two
    digits decide by themselves, for there the bound is no whole number. -/
theorem dropDigit_ge {excess m : Nat} (h : 95 * 10 ^ (excess + 1) ≤ 100 * m) :
    95 * 10 ^ excess ≤ 100 * dropDigit m := by
  rw [dropDigit]
  rcases excess with - | - | excess
  · split <;> omega
  · split <;> omega
  · rw [Nat.pow_succ, Nat.pow_succ, Nat.pow_succ] at h
    rw [Nat.pow_succ, Nat.pow_succ]
    generalize 10 ^ excess = unit at h ⊢
    split <;> omega

theorem mantissa_dropExcess_ne_zero (kept : Nat) {excess m : Nat}
    (h : 95 * 10 ^ excess ≤ 100 * m) : (dropExcess kept excess m).mantissa ≠ 0 := by
  induction excess generalizing m with
  | zero =>
      change m ≠ 0
      omega
  | succ excess ih =>
      have unit : 0 < 10 ^ excess := by positivity
      have filled : m / 10 ≠ 0 := by
        rw [Nat.pow_succ] at h
        omega
      rw [dropExcess, if_neg filled]
      exact ih (dropDigit_ge h)

theorem mantissa_dropImprecise_ne_zero {limit : Nat} (hlimit : 10 ≤ limit) (places : Nat)
    {m : Nat} (h : m ≠ 0) : (dropImprecise limit places m).mantissa ≠ 0 := by
  induction places generalizing m with
  | zero => exact h
  | succ places ih =>
      rw [dropImprecise]
      split
      · apply ih
        rw [dropDigit]
        omega
      · exact h

theorem mantissa_dropZeros_ne_zero (places : Nat) {m : Nat} (h : m ≠ 0) :
    (dropZeros places m).mantissa ≠ 0 :=
  (dropZeros_dropsZeros places m).mantissa_eq_zero_iff.not.mpr h

/-- What is nearly a unit in the last place of a decimal has digits for all its excess places. -/
theorem excess_ge {m shift : Nat} (hm : 0 < m)
    (h : 95 / 100 * (10 : ℚ) ^ (-28 : Int) ≤ (⟨m, .negSucc shift⟩ : Scaled).toRat) :
    95 * 10 ^ (shift + 1 - 28) ≤ 100 * m := by
  have crosswise : 95 * 10 ^ (shift + 1) ≤ 100 * m * 10 ^ 28 := by
    have value : (⟨m, .negSucc shift⟩ : Scaled).toRat = m / 10 ^ (shift + 1) := by
      rw [Scaled.toRat, zpow_negSucc, div_eq_mul_inv]
    rw [value, le_div_iff₀ (by positivity)] at h
    have : (95 : ℚ) * 10 ^ (shift + 1) ≤ 100 * m * 10 ^ 28 := by
      norm_num at h ⊢
      linarith
    exact_mod_cast this
  rcases Nat.lt_or_ge (shift + 1) 28 with few | many
  · rw [Nat.sub_eq_zero_of_le (Nat.le_of_lt few)]
    omega
  · obtain ⟨excess, hexcess⟩ := Nat.exists_eq_add_of_le' many
    rw [hexcess, Nat.add_sub_cancel]
    rw [hexcess, Nat.pow_add, ← Nat.mul_assoc] at crosswise
    exact Nat.le_of_mul_le_mul_right crosswise (by positivity)

/-- A scaled mantissa without a power of ten above zero is brought into range, and what is nearly
    a unit in the last place of a decimal is not brought to zero. -/
theorem exists_placedOfScaled? {limit : Nat} (hlimit : 10 ≤ limit) {n : Scaled}
    (hexponent : n.exponent ≤ 0) (hfilled : 95 / 100 * (10 : ℚ) ^ (-28 : Int) ≤ n.toRat) :
    ∃ placed, placedOfScaled? limit n = some placed ∧ placed.AtMost 28 n.mantissa ∧
      placed.mantissa ≠ 0 := by
  obtain ⟨m, e⟩ := n
  have pos : 0 < m := by
    by_contra empty
    obtain rfl : m = 0 := by omega
    rw [Scaled.toRat, Nat.cast_zero, zero_mul] at hfilled
    norm_num at hfilled
  cases e with
  | ofNat shift =>
      obtain rfl : shift = 0 := by simpa using hexponent
      exact ⟨⟨m, 0⟩, rfl, ⟨Nat.zero_le 28, Nat.le_refl m⟩, Nat.ne_of_gt pos⟩
  | negSucc shift =>
      have inRange := dropExcess_atMost (min (shift + 1) 28) (shift + 1 - 28) m
      have filled := mantissa_dropExcess_ne_zero (min (shift + 1) 28) (excess_ge pos hfilled)
      generalize hleft : dropExcess (min (shift + 1) 28) (shift + 1 - 28) m = left at inRange filled
      have precise := dropImprecise_atMost limit left.places left.mantissa
      have filled := mantissa_dropImprecise_ne_zero hlimit left.places filled
      generalize hprecise : dropImprecise limit left.places left.mantissa = kept at precise filled
      refine ⟨dropZeros kept.places kept.mantissa, ?_, ?_, mantissa_dropZeros_ne_zero _ filled⟩
      · simp only [placedOfScaled?, hleft, hprecise]
      · exact ((dropZeros_atMost _ _).mono precise.places_le precise.mantissa_le).mono
          (Nat.le_trans inRange.places_le (Nat.min_le_right _ _)) inRange.mantissa_le

end Criteria.Decimal
