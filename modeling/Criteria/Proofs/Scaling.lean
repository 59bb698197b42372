import Criteria.Decimal.OfBinary
import Mathlib.Algebra.Order.Field.Power
import Mathlib.Algebra.Order.Ring.Pow
import Mathlib.Tactic.FieldSimp
import Mathlib.Tactic.Linarith
import Mathlib.Tactic.NormNum
import Mathlib.Tactic.Positivity
import Mathlib.Tactic.Ring

/-! # From powers of two to powers of ten

A number `m * 2 ^ e` becomes a mantissa with a power of ten. A power of two that is not negative is
carried over exactly, or the number is refused because it has no mantissa of 96 bits. A negative
one may cost a half of the last place of the mantissa with every halving, but only when the
mantissa is so large that this is less than one part in `2 ^ 93`.
-/

namespace Criteria.Decimal

/-- The number that a mantissa with a power of ten stands for. -/
def Scaled.toRat (n : Scaled) : ℚ :=
  n.mantissa * 10 ^ n.exponent

/-- A number that has a mantissa is doubled until no power of two is left. -/
theorem tradeFifths_of_lt {count m : Nat} (h : m * 2 ^ count < 2 ^ 96) (e : Int) :
    tradeFifths count ⟨m, e⟩ = some ⟨m * 2 ^ count, e - count⟩ := by
  induction count generalizing m e with
  | zero => simp [tradeFifths]
  | succ count ih =>
      rw [Nat.pow_succ', ← Nat.mul_assoc] at h
      have room : m < 2 ^ 95 := by
        have : m * 2 ≤ m * 2 * 2 ^ count := Nat.le_mul_of_pos_right _ (by positivity)
        omega
      rw [tradeFifths, if_pos room, ih h, Nat.pow_succ', Nat.mul_assoc]
      congr 2
      push_cast
      ring

/-- Doubling stops before the powers of ten are gone, so the number is refused. -/
theorem tradeFifths_eq_none {count m : Nat} (hm : m < 2 ^ 96) (h : 2 ^ 96 ≤ m * 2 ^ count) :
    tradeFifths count ⟨m, count⟩ = none := by
  induction count generalizing m with
  | zero => omega
  | succ count ih =>
      rw [tradeFifths]
      split
      · have h : 2 ^ 96 ≤ m * 2 * 2 ^ count := by rwa [Nat.mul_assoc, ← Nat.pow_succ']
        rw [show ((count + 1 : Nat) : Int) - 1 = count by omega]
        exact ih (by omega) h
      · rw [if_pos (by omega)]

/-- What one trade may lose, as a part of the number. -/
def tradeLoss : ℚ := 5 / 2 ^ 96

theorem tradeLoss_nonneg : 0 ≤ tradeLoss := by
  norm_num [tradeLoss]

theorem tradeLoss_lt_one : tradeLoss < 1 := by
  norm_num [tradeLoss]

/-- A mantissa is halved when that is exact, or when the half that is lost is a small part. -/
theorem halved_ge {m : Nat} (h : m % 2 = 0 ∨ 2 ^ 96 ≤ m * 5) :
    (m : ℚ) * (1 - tradeLoss) ≤ (m / 2 : Nat) * 2 := by
  have loss := tradeLoss_nonneg
  rcases h with even | large
  · have exact : m = m / 2 * 2 := by omega
    have same : (m : ℚ) = (m / 2 : Nat) * 2 := by exact_mod_cast exact
    have : (m : ℚ) * (1 - tradeLoss) ≤ m := by
      apply mul_le_of_le_one_right (Nat.cast_nonneg m)
      linarith
    linarith
  · have floor : m ≤ m / 2 * 2 + 1 := by omega
    have floor : (m : ℚ) ≤ (m / 2 : Nat) * 2 + 1 := by exact_mod_cast floor
    have large : (2 : ℚ) ^ 96 ≤ m * 5 := by exact_mod_cast large
    have one : 1 ≤ (m : ℚ) * tradeLoss := by
      rw [tradeLoss, mul_div_assoc', le_div_iff₀ (by positivity)]
      linarith
    linarith

/-- A halving of the mantissa loses no more than its part. -/
theorem toRat_halved_ge {m : Nat} (h : m % 2 = 0 ∨ 2 ^ 96 ≤ m * 5) (e : Int) :
    (⟨m, e⟩ : Scaled).toRat * 5 * (1 - tradeLoss) ≤ (⟨m / 2, e + 1⟩ : Scaled).toRat := by
  have half := halved_ge h
  calc (m : ℚ) * 10 ^ e * 5 * (1 - tradeLoss)
      = m * (1 - tradeLoss) * (10 ^ e * 5) := by ring
    _ ≤ (m / 2 : Nat) * 2 * (10 ^ e * 5) := by gcongr
    _ = (m / 2 : Nat) * 10 ^ (e + 1) := by
        rw [zpow_add_one₀ (by norm_num)]
        ring

/-- A factor of five loses nothing. -/
theorem toRat_mul_five_ge (m : Nat) (e : Int) :
    (⟨m, e⟩ : Scaled).toRat * 5 * (1 - tradeLoss) ≤ (⟨m * 5, e⟩ : Scaled).toRat := by
  calc (m : ℚ) * 10 ^ e * 5 * (1 - tradeLoss)
      ≤ m * 10 ^ e * 5 := by
        apply mul_le_of_le_one_right (by positivity)
        linarith [tradeLoss_nonneg]
    _ = (m * 5 : Nat) * 10 ^ e := by
        push_cast
        ring

/-- Trading loses no more than its part with each halving. -/
theorem toRat_tradeHalvings_ge (count : Nat) (n : Scaled) :
    n.toRat * 5 ^ count * (1 - tradeLoss) ^ count ≤ (tradeHalvings count n).toRat := by
  induction count generalizing n with
  | zero => simp [tradeHalvings]
  | succ count ih =>
      obtain ⟨m, e⟩ := n
      have factor : 0 ≤ 5 ^ count * (1 - tradeLoss) ^ count := by
        have : 0 ≤ 1 - tradeLoss := by linarith [tradeLoss_lt_one]
        positivity
      have run (next : Scaled)
          (step : (⟨m, e⟩ : Scaled).toRat * 5 * (1 - tradeLoss) ≤ next.toRat) :
          (⟨m, e⟩ : Scaled).toRat * 5 ^ (count + 1) * (1 - tradeLoss) ^ (count + 1) ≤
            (tradeHalvings count next).toRat :=
        calc (⟨m, e⟩ : Scaled).toRat * 5 ^ (count + 1) * (1 - tradeLoss) ^ (count + 1)
            = (⟨m, e⟩ : Scaled).toRat * 5 * (1 - tradeLoss) *
                (5 ^ count * (1 - tradeLoss) ^ count) := by ring
          _ ≤ next.toRat * (5 ^ count * (1 - tradeLoss) ^ count) :=
              mul_le_mul_of_nonneg_right step factor
          _ = next.toRat * 5 ^ count * (1 - tradeLoss) ^ count := by ring
          _ ≤ (tradeHalvings count next).toRat := ih next
      rw [tradeHalvings]
      split
      · exact run _ (toRat_halved_ge ‹_› e)
      · exact run _ (toRat_mul_five_ge m e)

/-- Trading gains nothing. -/
theorem toRat_tradeHalvings_le (count : Nat) (n : Scaled) :
    (tradeHalvings count n).toRat ≤ n.toRat * 5 ^ count := by
  induction count generalizing n with
  | zero => simp [tradeHalvings]
  | succ count ih =>
      obtain ⟨m, e⟩ := n
      have run (next : Scaled) (step : next.toRat ≤ (⟨m, e⟩ : Scaled).toRat * 5) :
          (tradeHalvings count next).toRat ≤ (⟨m, e⟩ : Scaled).toRat * 5 ^ (count + 1) :=
        calc (tradeHalvings count next).toRat
            ≤ next.toRat * 5 ^ count := ih next
          _ ≤ (⟨m, e⟩ : Scaled).toRat * 5 * 5 ^ count := by gcongr
          _ = (⟨m, e⟩ : Scaled).toRat * 5 ^ (count + 1) := by ring
      rw [tradeHalvings]
      split
      · apply run
        have half : ((m / 2 : Nat) : ℚ) * 2 ≤ m := by exact_mod_cast Nat.div_mul_le_self m 2
        calc ((m / 2 : Nat) : ℚ) * 10 ^ (e + 1)
            = (m / 2 : Nat) * 2 * (10 ^ e * 5) := by
              rw [zpow_add_one₀ (by norm_num)]
              ring
          _ ≤ m * (10 ^ e * 5) := by gcongr
          _ = m * 10 ^ e * 5 := by ring
      · apply run
        apply le_of_eq
        rw [Scaled.toRat, Scaled.toRat]
        push_cast
        ring

theorem exponent_tradeHalvings_le (count : Nat) (n : Scaled) :
    (tradeHalvings count n).exponent ≤ n.exponent + count := by
  induction count generalizing n with
  | zero => simp [tradeHalvings]
  | succ count ih =>
      obtain ⟨m, e⟩ := n
      rw [tradeHalvings]
      split
      · have := ih ⟨m / 2, e + 1⟩
        push_cast at this ⊢
        linarith
      · have := ih ⟨m * 5, e⟩
        push_cast at this ⊢
        linarith

theorem mantissa_tradeHalvings_lt (count : Nat) {n : Scaled} (h : n.mantissa < 2 ^ 96) :
    (tradeHalvings count n).mantissa < 2 ^ 96 := by
  induction count generalizing n with
  | zero => exact h
  | succ count ih =>
      obtain ⟨m, e⟩ := n
      rw [tradeHalvings]
      split
      · exact ih (Nat.lt_of_le_of_lt (Nat.div_le_self m 2) h)
      · refine ih (show m * 5 < 2 ^ 96 from ?_)
        omega

/-- What is lost adds up at most. -/
theorem one_sub_tradeLoss_pow_ge_sub (count : Nat) :
    1 - count * tradeLoss ≤ (1 - tradeLoss) ^ count := by
  have bernoulli : 1 + count * -tradeLoss ≤ (1 + -tradeLoss) ^ count :=
    one_add_mul_le_pow (by norm_num [tradeLoss]) count
  rwa [mul_neg, ← sub_eq_add_neg, ← sub_eq_add_neg] at bernoulli

/-- As many trades as a double can need lose less than one part in twenty. -/
theorem one_sub_tradeLoss_pow_ge {count : Nat} (h : count ≤ 1074) :
    95 / 100 ≤ (1 - tradeLoss) ^ count := by
  have few : (count : ℚ) ≤ 1074 := by exact_mod_cast h
  have lost : count * tradeLoss ≤ 1074 * tradeLoss :=
    mul_le_mul_of_nonneg_right few tradeLoss_nonneg
  have small : 1074 * tradeLoss ≤ 5 / 100 := by norm_num [tradeLoss]
  linarith [one_sub_tradeLoss_pow_ge_sub count]

variable {m : Nat} {e : Int}

/-- A halving is a factor of five over ten. -/
theorem toRat_negSucc (m shift : Nat) :
    (⟨m, .negSucc shift⟩ : Scaled).toRat * 5 ^ (shift + 1) = (m : ℚ) * 2 ^ Int.negSucc shift := by
  rw [Scaled.toRat, zpow_negSucc, zpow_negSucc, mul_assoc, ← div_eq_inv_mul,
    show (10 : ℚ) = 2 * 5 by norm_num, mul_pow]
  field_simp

/-- Halvings take a part of the number at most and add nothing. -/
theorem toRat_tradeHalvings_bounds (m shift : Nat) :
    (1 - tradeLoss) ^ (shift + 1) * ((m : ℚ) * 2 ^ Int.negSucc shift) ≤
      (tradeHalvings (shift + 1) ⟨m, .negSucc shift⟩).toRat ∧
    (tradeHalvings (shift + 1) ⟨m, .negSucc shift⟩).toRat ≤ (m : ℚ) * 2 ^ Int.negSucc shift := by
  rw [← toRat_negSucc, mul_comm]
  exact ⟨toRat_tradeHalvings_ge _ _, toRat_tradeHalvings_le _ _⟩

/-- A number that is not above the largest mantissa has a mantissa with a power of ten that is not
    positive, and little of it is lost. -/
theorem exists_scaledOfBinary? (hm : m < 2 ^ 53) (he : -1074 ≤ e)
    (hsmall : (m : ℚ) * 2 ^ e ≤ 2 ^ 96 - 1) :
    ∃ n, scaledOfBinary? m e = some n ∧ n.exponent ≤ 0 ∧ n.mantissa < 2 ^ 96 ∧
      95 / 100 * ((m : ℚ) * 2 ^ e) ≤ n.toRat := by
  cases e with
  | ofNat shift =>
      have small : m * 2 ^ shift < 2 ^ 96 := by
        rw [Int.ofNat_eq_natCast, zpow_natCast] at hsmall
        have : ((m * 2 ^ shift : Nat) : ℚ) < (2 ^ 96 : Nat) := by
          push_cast
          linarith
        exact_mod_cast this
      refine ⟨⟨m * 2 ^ shift, shift - shift⟩, tradeFifths_of_lt small shift, ?_, small, ?_⟩
      · simp
      · have : (0 : ℚ) ≤ m * 2 ^ shift := by positivity
        simp only [Scaled.toRat, Int.ofNat_eq_natCast, zpow_natCast, sub_self, zpow_zero]
        push_cast
        linarith
  | negSucc shift =>
      have few : shift + 1 ≤ 1074 := by omega
      have exponent : (tradeHalvings (shift + 1) ⟨m, .negSucc shift⟩).exponent ≤
          Int.negSucc shift + (shift + 1 : Nat) := exponent_tradeHalvings_le (shift + 1) _
      have room : m < 2 ^ 96 := by omega
      refine ⟨_, rfl, by omega, mantissa_tradeHalvings_lt (shift + 1) room, ?_⟩
      calc 95 / 100 * ((m : ℚ) * 2 ^ Int.negSucc shift)
          ≤ (1 - tradeLoss) ^ (shift + 1) * ((m : ℚ) * 2 ^ Int.negSucc shift) :=
            mul_le_mul_of_nonneg_right (one_sub_tradeLoss_pow_ge few) (by positivity)
        _ ≤ (tradeHalvings (shift + 1) ⟨m, .negSucc shift⟩).toRat :=
            (toRat_tradeHalvings_bounds m shift).1

/-- A number above the largest mantissa is refused. It has no power of two below zero. -/
theorem scaledOfBinary?_eq_none (hm : m < 2 ^ 53) (hlarge : (2 : ℚ) ^ 96 - 1 < m * 2 ^ e) :
    scaledOfBinary? m e = none := by
  cases e with
  | ofNat shift =>
      rw [Int.ofNat_eq_natCast, zpow_natCast] at hlarge
      have large : ((2 ^ 96 : Nat) : ℚ) < (m * 2 ^ shift + 1 : Nat) := by
        push_cast
        linarith
      have large : 2 ^ 96 < m * 2 ^ shift + 1 := by exact_mod_cast large
      exact tradeFifths_eq_none (by omega) (by omega)
  | negSucc shift =>
      exfalso
      have below : (m : ℚ) * 2 ^ Int.negSucc shift ≤ m := by
        apply mul_le_of_le_one_right (Nat.cast_nonneg m)
        exact zpow_le_one_of_nonpos₀ (by norm_num) (by omega)
      have : (m : ℚ) < 2 ^ 53 := by exact_mod_cast hm
      linarith

end Criteria.Decimal
