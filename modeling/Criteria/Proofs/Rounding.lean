import Criteria.Proofs.Packing
import Mathlib.Algebra.Order.Field.Power
import Mathlib.Algebra.Order.Field.Rat
import Mathlib.Tactic.Linarith
import Mathlib.Tactic.Positivity

/-! # Rounding to doubles

A whole number loses the bits that a significand has no room for, and two of the bits that are lost
decide about the last one that is kept. So the numbers that are rounded to one double are an
interval around it, and half of the way to its neighbours belongs to it.
-/

namespace Criteria.Binary

open Float.Model Float.Model.UnpackedFloat

/-- A whole number without its last bits, of which only those are kept that decide the rounding. -/
def dropped (m shift : Nat) : ExtendedMantissa :=
  ExtendedMantissa.ofMantissaAndAccuracy m .exact >>> shift

theorem dropped_zero (m : Nat) : dropped m 0 = ⟨m, false, false⟩ := rfl

theorem dropped_succ (m shift : Nat) :
    dropped m (shift + 1) = (dropped m shift).shiftRightOne := rfl

theorem mod_two_pow_succ (m shift : Nat) :
    m % 2 ^ (shift + 1) = m / 2 ^ shift % 2 * 2 ^ shift + m % 2 ^ shift := by
  rw [Nat.pow_succ, Nat.mod_mul]
  grind

/-- The bits that are kept say how much was dropped: nothing, less than a half, a half or more. -/
theorem dropped_eq (m shift : Nat) :
    dropped m shift =
      ⟨m / 2 ^ shift, decide (2 ^ shift ≤ 2 * (m % 2 ^ shift)),
        decide (m % 2 ^ shift ≠ 0 ∧ 2 * (m % 2 ^ shift) ≠ 2 ^ shift)⟩ := by
  induction shift with
  | zero => simp [dropped_zero, Nat.mod_one]
  | succ shift ih =>
      have whole : m / 2 ^ (shift + 1) = m / 2 ^ shift / 2 := by
        rw [Nat.pow_succ, Nat.div_div_eq_div_mul]
      have rest : m % 2 ^ shift < 2 ^ shift := Nat.mod_lt _ (by positivity)
      simp only [dropped_succ, ih, ExtendedMantissa.shiftRightOne, whole, mod_two_pow_succ]
      rw [Nat.pow_succ]
      -- The bit that is dropped next says on which side of the new half the rest lies.
      generalize m % 2 ^ shift = rest at *
      have bit := Nat.mod_two_eq_zero_or_one (m / 2 ^ shift)
      generalize m / 2 ^ shift = halves at *
      generalize 2 ^ shift = unit at *
      generalize halves % 2 = last at *
      rcases bit with rfl | rfl
      · simp; grind
      · simp; grind

/-- The whole number nearest to a quotient, of two the even one. -/
theorem roundedMantissa_eq {whole rest unit rounded : Nat} (hrest : rest < unit)
    (low : 2 * rounded * unit ≤ 2 * (whole * unit + rest) + unit)
    (high : 2 * (whole * unit + rest) ≤ 2 * rounded * unit + unit)
    (ends : rounded % 2 = 1 → 2 * rounded * unit < 2 * (whole * unit + rest) + unit ∧
      2 * (whole * unit + rest) < 2 * rounded * unit + unit) :
    (⟨whole, decide (unit ≤ 2 * rest), decide (rest ≠ 0 ∧ 2 * rest ≠ unit)⟩ :
      ExtendedMantissa).roundedMantissa = rounded := by
  have least : whole ≤ rounded := by
    by_contra! more
    nlinarith
  have most : rounded ≤ whole + 1 := by
    by_contra! more
    nlinarith
  have parts : rounded = whole ∧ 2 * rest ≤ unit ∧ (2 * rest = unit → whole % 2 = 0) ∨
      rounded = whole + 1 ∧ unit ≤ 2 * rest ∧ (2 * rest = unit → whole % 2 = 1) := by
    rcases Nat.eq_or_lt_of_le least with rfl | greater
    · left
      grind
    · right
      obtain rfl : rounded = whole + 1 := by omega
      grind
  rcases lt_trichotomy (2 * rest) unit with less | half | more
  · have down : decide (unit ≤ 2 * rest) = false := by simpa using less
    rw [down]
    cases decide (rest ≠ 0 ∧ 2 * rest ≠ unit) <;> change whole = rounded <;> omega
  · have up : decide (unit ≤ 2 * rest) = true := by simpa using half.ge
    have even : decide (rest ≠ 0 ∧ 2 * rest ≠ unit) = false := by simp [half]
    rw [up, even]
    change whole + whole % 2 = rounded
    omega
  · have up : decide (unit ≤ 2 * rest) = true := by simpa using more.le
    have odd : decide (rest ≠ 0 ∧ 2 * rest ≠ unit) = true := by simp; omega
    rw [up, odd]
    change whole + 1 = rounded
    omega

theorem roundedMantissa_dropped {m shift rounded : Nat}
    (low : 2 * rounded * 2 ^ shift ≤ 2 * m + 2 ^ shift)
    (high : 2 * m ≤ 2 * rounded * 2 ^ shift + 2 ^ shift)
    (ends : rounded % 2 = 1 → 2 * rounded * 2 ^ shift < 2 * m + 2 ^ shift ∧
      2 * m < 2 * rounded * 2 ^ shift + 2 ^ shift) :
    (dropped m shift).roundedMantissa = rounded := by
  have rest : m % 2 ^ shift < 2 ^ shift := Nat.mod_lt _ (by positivity)
  rw [← Nat.div_add_mod' m (2 ^ shift)] at low high ends
  rw [dropped_eq]
  exact roundedMantissa_eq rest low high ends

theorem targetExponent_eq {m shift : Nat} {exponent : Int} (hm : m.log2 = 52 + shift)
    (least : -1074 ≤ exponent + shift) :
    Format.binary64.targetExponent (totalExponent m exponent) = exponent + shift := by
  unfold Format.targetExponent totalExponent Format.minExponent Format.mantissaBits
  simp [hm]
  omega

theorem shiftToTargetExponent_eq {m shift : Nat} {exponent : Int} (hm : m.log2 = 52 + shift)
    (least : -1074 ≤ exponent + shift) :
    shiftToTargetExponent .binary64 m exponent .exact = (dropped m shift, exponent + shift) := by
  have amount : (exponent + shift - exponent).toNat = shift := by omega
  simp only [shiftToTargetExponent, targetExponent_eq hm least, shiftToExponent, amount, dropped]

variable {m shift significand : Nat} {exponent : Int}

theorem roundWithAccuracy_eq_of_rounded (hm : m.log2 = 52 + shift)
    (normal : IsNormal significand (exponent + shift))
    (rounded : (dropped m shift).roundedMantissa = significand) :
    roundWithAccuracy .binary64 .positive m exponent .exact =
      .finite .positive significand (exponent + shift) normal.pos := by
  have again : shiftToTargetExponent .binary64 significand (exponent + shift) .exact =
      (dropped significand 0, exponent + shift + 0) :=
    shiftToTargetExponent_eq normal.log2_eq (by have := normal.le_exponent; omega)
  simp [roundWithAccuracy, shiftToTargetExponent_eq hm normal.le_exponent, rounded, again,
    dropped_zero, normal.pos.ne']

/-- Rounding up can give one bit more than there are. -/
theorem roundWithAccuracy_eq_of_carried (hm : m.log2 = 52 + shift)
    (least : -1074 ≤ exponent + shift)
    (rounded : (dropped m shift).roundedMantissa = 2 ^ 53) :
    roundWithAccuracy .binary64 .positive m exponent .exact =
      .finite .positive (2 ^ 52) (exponent + shift + 1) (by decide) := by
  have again : shiftToTargetExponent .binary64 (2 ^ 53) (exponent + shift) .exact =
      (dropped (2 ^ 53) 1, exponent + shift + 1) :=
    shiftToTargetExponent_eq Nat.log2_two_pow (by omega)
  have carried : (dropped (2 ^ 53) 1).mantissa = 2 ^ 52 := rfl
  simp only [roundWithAccuracy, shiftToTargetExponent_eq hm least, rounded, again, carried]
  rfl

/-- Where the numbers begin that are rounded to a normal double, in quarters of its last place. The
    doubles below a power of two are closer together. -/
def lowEnd (significand : Nat) : Nat :=
  4 * significand - if significand = 2 ^ 52 then 1 else 2

def highEnd (significand : Nat) : Nat :=
  4 * significand + 2

theorem lowEnd_lt (pos : 0 < significand) : lowEnd significand < 4 * significand := by
  unfold lowEnd
  split <;> omega

theorem le_lowEnd (pos : 0 < significand) : 2 * significand ≤ lowEnd significand := by
  unfold lowEnd
  split <;> omega

theorem lt_highEnd (significand : Nat) : 4 * significand < highEnd significand := by
  unfold highEnd
  omega

theorem highEnd_lt (normal : IsNormal significand exponent) : highEnd significand < 2 ^ 55 := by
  have := normal.significand_lt
  unfold highEnd
  omega

/-- The numbers that are rounded to a normal double above the least exponent. The ends of the
    interval are among them when the significand is even. -/
@[mk_iff]
structure RoundsTo (significand : Nat) (exponent : Int) (v : ℚ) : Prop where
  low : lowEnd significand * 2 ^ (exponent - 2) ≤ v
  high : v ≤ highEnd significand * 2 ^ (exponent - 2)
  odd : significand % 2 = 1 → lowEnd significand * 2 ^ (exponent - 2) < v ∧
    v < highEnd significand * 2 ^ (exponent - 2)

theorem roundsTo_scaled_iff :
    RoundsTo significand (exponent + (shift + 2 : Nat)) (m * 2 ^ exponent) ↔
      lowEnd significand * 2 ^ shift ≤ m ∧ m ≤ highEnd significand * 2 ^ shift ∧
        (significand % 2 = 1 →
          lowEnd significand * 2 ^ shift < m ∧ m < highEnd significand * 2 ^ shift) := by
  have unit : (0 : ℚ) < 2 ^ exponent := by positivity
  have scale (q : Nat) : (q : ℚ) * 2 ^ (exponent + (shift + 2 : Nat) - 2) =
      (q * 2 ^ shift : Nat) * 2 ^ exponent := by
    have : exponent + (shift + 2 : Nat) - 2 = shift + exponent := by omega
    rw [this, zpow_add₀ (by norm_num), zpow_natCast, Nat.cast_mul, Nat.cast_pow, mul_assoc,
      Nat.cast_ofNat]
  simp only [roundsTo_iff, scale, mul_le_mul_iff_left₀ unit, mul_lt_mul_iff_left₀ unit,
    Nat.cast_le, Nat.cast_lt]

theorem log2_eq_of_between {width : Nat} (low : 2 ^ width * 2 ^ shift ≤ m)
    (high : m < 2 ^ (width + 1) * 2 ^ shift) : m.log2 = width + shift := by
  have filled : m ≠ 0 := by
    have : 0 < 2 ^ width * 2 ^ shift := by positivity
    omega
  rw [← pow_add] at low high
  rw [Nat.log2_eq_iff filled]
  exact ⟨low, by rwa [add_right_comm]⟩

/-- Every number from a power of two on keeps as many bits as the significand has. -/
theorem roundWithAccuracy_eq_of_full (normal : IsNormal significand (exponent + (shift + 2 : Nat)))
    (full : 2 ^ 52 * 2 ^ (shift + 2) ≤ m)
    (low : lowEnd significand * 2 ^ shift ≤ m) (high : m ≤ highEnd significand * 2 ^ shift)
    (odd : significand % 2 = 1 → lowEnd significand * 2 ^ shift < m ∧
      m < highEnd significand * 2 ^ shift) :
    roundWithAccuracy .binary64 .positive m exponent .exact =
      .finite .positive significand (exponent + (shift + 2 : Nat)) normal.pos := by
  obtain ⟨filled, small, -, -⟩ := id normal
  have unit : 0 < 2 ^ shift := by positivity
  have step : 2 ^ (shift + 2) = 4 * 2 ^ shift := by ring
  have half : (4 * significand - 2) * 2 ^ shift ≤ lowEnd significand * 2 ^ shift := by
    unfold lowEnd
    gcongr
    split <;> omega
  rw [Nat.sub_mul] at half
  unfold highEnd at high odd
  apply roundWithAccuracy_eq_of_rounded _ normal
  · apply roundedMantissa_dropped
    · rw [step]
      grind
    · rw [step]
      grind
    · rw [step]
      intro last
      specialize odd last
      grind
  · apply log2_eq_of_between full
    rw [step]
    calc m ≤ (4 * significand + 2) * 2 ^ shift := high
      _ < 2 ^ 55 * 2 ^ shift := by
        gcongr
        omega
      _ = 2 ^ (52 + 1) * (4 * 2 ^ shift) := by ring

/-- A number right below a power of two has a bit more, and rounding carries it to the power. -/
theorem roundWithAccuracy_eq_of_short (least : -1074 < exponent + (shift + 2 : Nat))
    (short : m < 2 ^ 52 * 2 ^ (shift + 2)) (low : (2 ^ 54 - 1) * 2 ^ shift ≤ m) :
    roundWithAccuracy .binary64 .positive m exponent .exact =
      .finite .positive (2 ^ 52) (exponent + (shift + 2 : Nat)) (by decide) := by
  have unit : 0 < 2 ^ shift := by positivity
  have step : 2 ^ (shift + 1) = 2 * 2 ^ shift := by ring
  have step' : 2 ^ (shift + 2) = 4 * 2 ^ shift := by ring
  have up : exponent + (shift + 2 : Nat) = exponent + (shift + 1 : Nat) + 1 := by omega
  rw [up]
  apply roundWithAccuracy_eq_of_carried _ (by omega)
  · apply roundedMantissa_dropped
    · rw [step]
      omega
    · rw [step]
      omega
    · intro last
      cases last
  · apply log2_eq_of_between
    · rw [step]
      omega
    · omega

/-- The one rounding of a number in the interval of a double gives that double. -/
theorem RoundsTo.roundWithAccuracy_eq
    (h : RoundsTo significand (exponent + (shift + 2 : Nat)) (m * 2 ^ exponent))
    (normal : IsNormal significand (exponent + (shift + 2 : Nat)))
    (above : -1074 < exponent + (shift + 2 : Nat)) :
    roundWithAccuracy .binary64 .positive m exponent .exact =
      .finite .positive significand (exponent + (shift + 2 : Nat)) normal.pos := by
  obtain ⟨low, high, odd⟩ := roundsTo_scaled_iff.mp h
  -- Only the interval of a power of two reaches below it, where a bit less is dropped.
  rcases Nat.lt_or_ge m (2 ^ 52 * 2 ^ (shift + 2)) with short | full
  · have below : lowEnd significand < 2 ^ 54 := by
      apply Nat.lt_of_mul_lt_mul_right (a := 2 ^ shift)
      calc lowEnd significand * 2 ^ shift ≤ m := low
        _ < 2 ^ 52 * 2 ^ (shift + 2) := short
        _ = 2 ^ 54 * 2 ^ shift := by ring
    obtain rfl : significand = 2 ^ 52 := by
      have := normal.le_significand
      unfold lowEnd at below
      split at below <;> omega
    exact roundWithAccuracy_eq_of_short above short low
  · exact roundWithAccuracy_eq_of_full normal full low high odd

end Criteria.Binary
