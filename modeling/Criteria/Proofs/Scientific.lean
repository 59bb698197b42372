import Criteria.Proofs.Rounding
import Mathlib.Tactic.FieldSimp

/-! # Doubles of decimal numbers

A product of two doubles and the double of digits with a power of ten are rounded once. So they are
the double in whose interval the exact number lies.
-/

namespace Criteria.Binary

open Float.Model Float.Model.UnpackedFloat

/-- The bits that a whole number lacks to a significand. -/
def slack (n : Nat) : Nat :=
  52 - n.log2

variable {n : Nat} {exponent : Int}

theorem isNormal_slack (pos : 0 < n) (small : n < 2 ^ 53) (least : -1000 ≤ exponent)
    (most : exponent ≤ 900) : IsNormal (n * 2 ^ slack n) (exponent - slack n) := by
  obtain ⟨low, high⟩ := (Nat.log2_eq_iff pos.ne').mp rfl
  have short : n.log2 < 53 := (Nat.log2_lt pos.ne').mpr small
  have whole : n.log2 + slack n = 52 := by
    unfold slack
    omega
  refine ⟨?_, ?_, by omega, by omega⟩
  · calc 2 ^ 52 = 2 ^ n.log2 * 2 ^ slack n := by rw [← pow_add, whole]
      _ ≤ n * 2 ^ slack n := by gcongr
  · calc n * 2 ^ slack n < 2 ^ (n.log2 + 1) * 2 ^ slack n := by gcongr
      _ = 2 ^ 53 := by rw [← pow_add, add_right_comm, whole]

theorem slack_value (n : Nat) (exponent : Int) :
    ((n * 2 ^ slack n : Nat) : ℚ) * 2 ^ (exponent - slack n) = n * 2 ^ exponent := by
  rw [zpow_sub₀ (by norm_num), zpow_natCast]
  push_cast
  field_simp

/-- A number that has room in a significand is not rounded. -/
theorem round_eq (small : n < 2 ^ 53) (normal : IsNormal (n * 2 ^ slack n) (-slack n)) :
    UnpackedFloat.round .binary64 .positive n 0 =
      .finite .positive (n * 2 ^ slack n) (-slack n) normal.pos := by
  have pos : n ≠ 0 := left_ne_zero_of_mul normal.pos.ne'
  have short : n.log2 < 53 := (Nat.log2_lt pos).mpr small
  have target : Format.binary64.targetExponent (totalExponent n 0) = -slack n := by
    unfold Format.targetExponent totalExponent Format.minExponent Format.mantissaBits slack
    simp
    omega
  have kept : IsNormal (n * 2 ^ slack n) (-slack n + (0 : Nat)) := by simpa using normal
  have exact := roundWithAccuracy_eq_of_rounded normal.log2_eq kept rfl
  simp only [UnpackedFloat.round, target, decreaseExponent, Nat.shiftLeft_eq, zero_sub]
  simpa using exact

theorem toFloat_toUInt64 (small : n < 2 ^ 53) (normal : IsNormal (n * 2 ^ slack n) (-slack n)) :
    n.toUInt64.toFloat = packed normal := by
  have pos : 0 < n := Nat.pos_of_ne_zero (left_ne_zero_of_mul normal.pos.ne')
  have back : n.toUInt64.toNat = n := by
    rw [UInt64.toNat_ofNat']
    omega
  have sign : compare (n : Int) 0 = .gt := by
    rw [Int.compare_eq_gt]
    omega
  change Float.ofModel (.pack (UnpackedFloat.normalize .binary64 n.toUInt64.toNat 0 .positive)) = _
  simp only [back, UnpackedFloat.normalize, sign, Int.toNat_natCast, round_eq small normal]
  rfl

/-- The powers of ten that a double holds exactly. -/
theorem ofFloat_power : ∀ (e : Nat) (h : e < 23),
    ofFloat (getElem Float.exactlyRepresentablePowersOfTen e h) =
      .finite false (5 ^ e * 2 ^ slack (5 ^ e)) (e - slack (5 ^ e)) := by
  decide +kernel

variable {a b significand : Nat} {p q : Int}

theorem RoundsTo.exponent_gt (h : RoundsTo significand exponent (a * 2 ^ p))
    (normal : IsNormal significand exponent) (filled : 2 ^ 104 ≤ a) : p + 51 < exponent := by
  have wide : (highEnd significand : ℚ) < 2 ^ 55 := by exact_mod_cast highEnd_lt normal
  have filled : (2 : ℚ) ^ 104 ≤ a := by exact_mod_cast filled
  have powers : (2 : ℚ) ^ (104 + p) < 2 ^ (55 + (exponent - 2)) := by
    calc (2 : ℚ) ^ (104 + p) = 2 ^ 104 * 2 ^ p := zpow_add₀ (by norm_num) 104 p
      _ ≤ a * 2 ^ p := mul_le_mul_of_nonneg_right filled (by positivity)
      _ ≤ highEnd significand * 2 ^ (exponent - 2) := h.high
      _ < 2 ^ 55 * 2 ^ (exponent - 2) := by gcongr
      _ = 2 ^ (55 + (exponent - 2)) := (zpow_add₀ (by norm_num) 55 (exponent - 2)).symm
  have := (zpow_lt_zpow_iff_right₀ (by norm_num)).mp powers
  omega

/-- A product is rounded once. -/
theorem packed_mul_packed (ha : IsNormal a p) (hb : IsNormal b q)
    (normal : IsNormal significand exponent) (above : -1074 < exponent)
    (h : RoundsTo significand exponent (a * 2 ^ p * (b * 2 ^ q))) :
    packed ha * packed hb = packed normal := by
  have product : (a : ℚ) * 2 ^ p * (b * 2 ^ q) = (a * b : Nat) * 2 ^ (p + q) := by
    rw [zpow_add₀ (by norm_num)]
    push_cast
    ring
  rw [product] at h
  have filled : 2 ^ 104 ≤ a * b := by
    calc 2 ^ 104 = 2 ^ 52 * 2 ^ 52 := by norm_num
      _ ≤ a * b := Nat.mul_le_mul ha.le_significand hb.le_significand
  have gap := h.exponent_gt normal filled
  obtain ⟨shift, rfl⟩ : ∃ shift : Nat, exponent = p + q + (shift + 2 : Nat) :=
    ⟨(exponent - (p + q) - 2).toNat, by omega⟩
  change Float.ofModel (.pack (UnpackedFloat.mul .binary64 (packed ha).toModel.unpack
    (packed hb).toModel.unpack)) = _
  rw [unpack_packed, unpack_packed]
  change Float.ofModel (.pack (roundWithAccuracy .binary64 .positive (a * b) (p + q) .exact)) = _
  rw [h.roundWithAccuracy_eq normal above]
  rfl

variable {coefficient power : Nat}

theorem ofScientific_eq_of_short (positive : 0 < coefficient) (small : coefficient < 2 ^ 53)
    (few : power < 23) (normal : IsNormal significand exponent) (above : -1074 < exponent)
    (h : RoundsTo significand exponent (coefficient * 10 ^ power)) :
    coefficient.toUInt64.toFloat * getElem Float.exactlyRepresentablePowersOfTen power few =
      packed normal := by
  have hc := isNormal_slack positive small (show -1000 ≤ 0 by decide) (by decide)
  have hp : IsNormal (5 ^ power * 2 ^ slack (5 ^ power)) (power - slack (5 ^ power)) := by
    apply isNormal_slack (by positivity) _ (by omega) (by omega)
    calc 5 ^ power ≤ 5 ^ 22 := Nat.pow_le_pow_right (by decide) (by omega)
      _ < 2 ^ 53 := by norm_num
  rw [eq_packed hp (ofFloat_power power few)]
  rw [zero_sub] at hc
  rw [toFloat_toUInt64 small hc]
  apply packed_mul_packed hc hp normal above
  rw [slack_value, ← zero_sub, slack_value]
  have ten : (5 : ℚ) ^ power * 2 ^ power = 10 ^ power := by
    rw [← mul_pow]
    norm_num
  simpa [ten] using h

theorem ofModel_ofScientific_eq (positive : 0 < coefficient) (modest : power ≤ 2 ^ 11)
    (normal : IsNormal significand exponent) (whole : 0 ≤ exponent)
    (h : RoundsTo significand exponent (coefficient * 10 ^ power)) :
    Float.ofModel (.ofScientific coefficient power) = packed normal := by
  have shifted : (coefficient * 10 ^ power : ℚ) =
      (coefficient <<< 53 * 10 ^ power : Nat) * 2 ^ (-53 : Int) := by
    rw [Nat.shiftLeft_eq]
    push_cast
    norm_num
    ring
  rw [shifted] at h
  obtain ⟨shift, rfl⟩ : ∃ shift : Nat, exponent = -53 + (shift + 2 : Nat) :=
    ⟨(exponent + 51).toNat, by omega⟩
  have rounded := h.roundWithAccuracy_eq normal (by omega)
  have above : ¬ (power : Int) > 2 ^ 11 := by omega
  have below : ¬ (power : Int) < -(2 ^ 11 + coefficient.log2) := by omega
  have nonneg : 0 ≤ (power : Int) := by omega
  change Float.ofModel (.pack (UnpackedFloat.ofScientific .binary64 coefficient power)) = _
  simp only [UnpackedFloat.ofScientific, dif_neg positive.ne', if_neg above, if_neg below,
    if_pos nonneg]
  change Float.ofModel (.pack (roundWithAccuracy .binary64 .positive
    (coefficient <<< 53 * 10 ^ power) (-53) .exact)) = _
  rw [rounded]
  rfl

theorem ofScientific_eq (positive : 0 < coefficient) (modest : power ≤ 2 ^ 11)
    (normal : IsNormal significand exponent) (whole : 0 ≤ exponent)
    (h : RoundsTo significand exponent (coefficient * 10 ^ power)) :
    Float.ofScientific coefficient false power = packed normal := by
  unfold Float.ofScientific
  split
  · rename_i short
    exact ofScientific_eq_of_short positive short.1 (by omega) normal (by omega) h
  · exact ofModel_ofScientific_eq positive modest normal whole h

end Criteria.Binary
