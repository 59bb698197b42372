import Criteria.Binary.Shortest
import Criteria.Proofs.Rounding

/-! # Digits that read back

The shortest digits of a double make a number in the interval of that double. The candidates are
tested for it, and the nearest number with seventeen digits is so near that it needs no test.
-/

namespace Criteria.Binary

variable {significand : Nat} {exponent : Int}

theorem pow_toNat {base : ℚ} (h : base ≠ 0) (n : Int) :
    base ^ n.toNat = base ^ (-n).toNat * base ^ n := by
  rw [← zpow_natCast, ← zpow_natCast, ← zpow_add₀ h]
  congr 1
  omega

/-- A grid counts both numbers in one unit. -/
theorem Grid.exists_unit (significand : Nat) (exponent : Int) (digits : Nat) :
    ∃ unit : ℚ, 0 < unit ∧
      (ofDigits significand exponent digits).quarter = unit * 2 ^ (exponent - 2) ∧
      (ofDigits significand exponent digits).step =
        unit * 10 ^ (ofDigits significand exponent digits).exponent := by
  unfold ofDigits
  generalize firstDigitExponent significand exponent - digits + 1 = spacing
  refine ⟨2 ^ (-(exponent - 2)).toNat * 10 ^ (-spacing).toNat, by positivity, ?_, ?_⟩
  · push_cast
    rw [pow_toNat (by norm_num) (exponent - 2)]
    ring
  · push_cast
    rw [pow_toNat (by norm_num) spacing]
    ring

theorem readsBack_eq (above : -1074 < exponent) (grid : Grid) (c : Nat) :
    grid.readsBack significand exponent c =
      if significand % 2 = 0 then
        decide (lowEnd significand * grid.quarter ≤ c * grid.step) &&
          decide (c * grid.step ≤ highEnd significand * grid.quarter)
      else
        decide (lowEnd significand * grid.quarter < c * grid.step) &&
          decide (c * grid.step < highEnd significand * grid.quarter) := by
  have edge : (significand == BinaryFormat.double.leadingBit &&
      decide (BinaryFormat.double.minExponent < exponent)) = (significand == 2 ^ 52) := by
    rw [decide_eq_true (show BinaryFormat.double.minExponent < exponent from above), Bool.and_true]
    rfl
  unfold Grid.readsBack
  simp only [edge, beq_iff_eq]
  rfl

theorem Grid.quarter_pos (significand : Nat) (exponent : Int) (digits : Nat) :
    0 < (ofDigits significand exponent digits).quarter := by
  unfold ofDigits
  positivity

theorem Grid.step_pos (significand : Nat) (exponent : Int) (digits : Nat) :
    0 < (ofDigits significand exponent digits).step := by
  unfold ofDigits
  positivity

/-- A candidate reads back as the double when its number is in the interval. -/
theorem readsBack_iff (above : -1074 < exponent) (digits c : Nat) :
    (Grid.ofDigits significand exponent digits).readsBack significand exponent c = true ↔
      RoundsTo significand exponent
        (c * 10 ^ (Grid.ofDigits significand exponent digits).exponent) := by
  obtain ⟨unit, pos, quarter, step⟩ := Grid.exists_unit significand exponent digits
  generalize Grid.ofDigits significand exponent digits = grid at *
  have scale (a : Nat) : ((a * grid.quarter : Nat) : ℚ) = unit * (a * 2 ^ (exponent - 2)) := by
    push_cast
    rw [quarter]
    ring
  have scale' : ((c * grid.step : Nat) : ℚ) = unit * (c * 10 ^ grid.exponent) := by
    push_cast
    rw [step]
    ring
  have le_iff (a : Nat) : a * 2 ^ (exponent - 2) ≤ (c * 10 ^ grid.exponent : ℚ) ↔
      a * grid.quarter ≤ c * grid.step := by
    rw [← Nat.cast_le (α := ℚ), scale, scale', mul_le_mul_iff_right₀ pos]
  have ge_iff (a : Nat) : (c * 10 ^ grid.exponent : ℚ) ≤ a * 2 ^ (exponent - 2) ↔
      c * grid.step ≤ a * grid.quarter := by
    rw [← Nat.cast_le (α := ℚ), scale, scale', mul_le_mul_iff_right₀ pos]
  simp only [readsBack_eq above, roundsTo_iff, ← not_le, le_iff, ge_iff]
  rcases Nat.mod_two_eq_zero_or_one significand with even | odd
  · simp [even]
  · simp [odd]
    omega

variable {grid : Grid} {c : Nat}

theorem nearest_eq_or (grid : Grid) (significand : Nat) :
    grid.nearest significand = grid.below significand ∨
      grid.nearest significand = grid.below significand + 1 := by
  unfold Grid.nearest
  grind

theorem readsBack_of_candidate? (h : grid.candidate? significand exponent = some c) :
    grid.readsBack significand exponent c = true := by
  unfold Grid.candidate? at h
  have either := nearest_eq_or grid significand
  grind

/-- The nearest candidate is off by half a step at most. -/
theorem nearest_close (pos : 0 < grid.step) (significand : Nat) :
    8 * significand * grid.quarter ≤ 2 * grid.nearest significand * grid.step + grid.step ∧
      2 * grid.nearest significand * grid.step ≤ 8 * significand * grid.quarter + grid.step := by
  have parts := Nat.div_add_mod' (4 * significand * grid.quarter) grid.step
  have rest := Nat.mod_lt (4 * significand * grid.quarter) pos
  unfold Grid.nearest Grid.below
  generalize 4 * significand * grid.quarter / grid.step = below at *
  generalize 4 * significand * grid.quarter % grid.step = rest at *
  dsimp only
  split_ifs
  · constructor <;> linarith
  · constructor <;> linarith
  · constructor <;> linarith
  · constructor <;> linarith

/-- With sixteen digits before the step the nearest candidate is in the interval. -/
theorem readsBack_nearest (normal : IsNormal significand exponent) (above : -1074 < exponent)
    (hquarter : 0 < grid.quarter) (hstep : 0 < grid.step)
    (fine : 10 ^ 16 * grid.step ≤ 4 * significand * grid.quarter) :
    grid.readsBack significand exponent (grid.nearest significand) = true := by
  obtain ⟨low, high⟩ := nearest_close hstep significand
  have filled := normal.le_significand
  have small := normal.significand_lt
  obtain ⟨gap, hgap, two, steep⟩ : ∃ gap, lowEnd significand + gap = 4 * significand ∧ gap ≤ 2 ∧
      grid.step < 2 * gap * grid.quarter := by
    by_cases edge : significand = 2 ^ 52
    · subst edge
      exact ⟨1, rfl, by omega, by omega⟩
    · refine ⟨2, by rw [lowEnd, if_neg edge]; omega, by omega, ?_⟩
      have : 4 * significand * grid.quarter < 2 ^ 55 * grid.quarter := by
        gcongr
        omega
      omega
  have whole : lowEnd significand * grid.quarter + gap * grid.quarter =
      4 * significand * grid.quarter := by
    rw [← Nat.add_mul, hgap]
  have few : gap * grid.quarter ≤ 2 * grid.quarter := by gcongr
  have inside : lowEnd significand * grid.quarter < grid.nearest significand * grid.step := by
    linarith
  have inside' : grid.nearest significand * grid.step < highEnd significand * grid.quarter := by
    unfold highEnd
    linarith
  rw [readsBack_eq above]
  split
  · simp [inside.le, inside'.le]
  · simp [inside, inside']

theorem ten_pow_le {n : Nat} (pos : 0 < n) : 10 ^ (digitCount n - 1) ≤ n := by
  rcases Nat.eq_zero_or_pos (digitCount n - 1) with one | more
  · rw [one]
    exact pos
  · by_contra! less
    have := (Nat.length_toDigits_le_iff (by decide) more).mpr less
    unfold digitCount at *
    omega

theorem lt_ten_pow (n : Nat) : n < 10 ^ digitCount n :=
  (Nat.length_toDigits_le_iff (by decide) Nat.length_toDigits_pos).mp (Nat.le_refl _)

theorem firstDigitExponent_eq {shift : Nat} (pos : 0 < significand) :
    firstDigitExponent significand shift = (digitCount (significand * 2 ^ shift) : Int) - 1 := by
  have : 1 ≤ significand * 2 ^ shift := Nat.mul_pos pos (by positivity)
  simp [firstDigitExponent, this]

variable {shift : Nat}

theorem spacing_eq (pos : 0 < significand) (digits : Nat) :
    (Grid.ofDigits significand shift digits).exponent =
      (digitCount (significand * 2 ^ shift) - 1 : Nat) - digits + 1 := by
  have : 0 < digitCount (significand * 2 ^ shift) := Nat.length_toDigits_pos
  unfold Grid.ofDigits
  rw [firstDigitExponent_eq pos]
  dsimp only
  omega

/-- A whole double has sixteen digits before the last of seventeen. -/
theorem fine_ofDigits (pos : 0 < significand) :
    10 ^ 16 * (Grid.ofDigits significand shift 17).step ≤
      4 * significand * (Grid.ofDigits significand shift 17).quarter := by
  obtain ⟨unit, positive, quarter, step⟩ := Grid.exists_unit significand shift 17
  have first : (10 ^ (digitCount (significand * 2 ^ shift) - 1) : ℚ) ≤ significand * 2 ^ shift := by
    exact_mod_cast ten_pow_le (Nat.mul_pos pos (show 0 < 2 ^ shift by positivity))
  rw [← Nat.cast_le (α := ℚ)]
  push_cast
  rw [quarter, step, spacing_eq pos]
  generalize digitCount (significand * 2 ^ shift) - 1 = places at *
  calc (10 : ℚ) ^ 16 * (unit * 10 ^ ((places : Int) - (17 : Nat) + 1))
      = unit * 10 ^ places := by
        rw [sub_add, zpow_sub₀ (by norm_num), zpow_natCast]
        norm_num
        ring
    _ ≤ unit * (significand * 2 ^ shift) := by gcongr
    _ = 4 * significand * (unit * 2 ^ ((shift : Int) - 2)) := by
        rw [zpow_sub₀ (by norm_num), zpow_natCast]
        norm_num
        ring

/-- Removing zeros moves them into the exponent. -/
theorem exists_trimmed (c : Nat) (exponent : Int) :
    ∃ d zeros : Nat, Scientific.trimmed c exponent = ⟨d, exponent + zeros⟩ ∧
      c = d * 10 ^ zeros := by
  fun_induction Scientific.trimmed c exponent with
  | case1 c exponent h ih =>
      obtain ⟨d, zeros, trimmed, value⟩ := ih
      refine ⟨d, zeros + 1, ?_, ?_⟩
      · rw [trimmed]
        push_cast
        congr 1
        omega
      · rw [Nat.pow_succ, ← Nat.mul_assoc, ← value]
        omega
  | case2 c exponent => exact ⟨c, 0, by simp, by simp⟩

/-- The shortest digits are a candidate with at most seventeen of them, without its zeros. -/
theorem exists_shortest (normal : IsNormal significand shift) :
    ∃ digits c, digits ≤ 17 ∧
      shortest significand shift =
        .trimmed c (Grid.ofDigits significand shift digits).exponent ∧
      (Grid.ofDigits significand shift digits).readsBack significand shift c = true := by
  unfold shortest
  rw [if_neg normal.pos.ne']
  dsimp only
  -- Every candidate before the last is tested, so only the last needs to be in the interval.
  cases found : (List.range 16).findSome? fun i =>
      ((Grid.ofDigits significand shift (i + 1)).candidate? significand shift).map
        (Scientific.trimmed · (Grid.ofDigits significand shift (i + 1)).exponent) with
  | none =>
      exact ⟨17, _, by omega, rfl, readsBack_nearest normal (by omega) (Grid.quarter_pos _ _ _)
        (Grid.step_pos _ _ _) (fine_ofDigits normal.pos)⟩
  | some number =>
      obtain ⟨i, hi, attempt⟩ := List.exists_of_findSome?_eq_some found
      obtain ⟨c, candidate, rfl⟩ := Option.map_eq_some_iff.mp attempt
      refine ⟨i + 1, c, ?_, rfl, readsBack_of_candidate? candidate⟩
      have := List.mem_range.mp hi
      omega

/-- The shortest digits of a large double are a whole number in its interval. -/
theorem exists_shortest_whole (normal : IsNormal significand shift)
    (large : 10 ^ 17 ≤ significand * 2 ^ shift) :
    ∃ c power : Nat, shortest significand shift = ⟨c, power⟩ ∧
      RoundsTo significand shift (c * 10 ^ power) := by
  obtain ⟨digits, candidate, few, hshortest, back⟩ := exists_shortest normal
  rw [readsBack_iff (by omega), spacing_eq normal.pos] at back
  rw [spacing_eq normal.pos] at hshortest
  have many : 17 < digitCount (significand * 2 ^ shift) :=
    (Nat.pow_lt_pow_iff_right (by decide)).mp (Nat.lt_of_le_of_lt large (lt_ten_pow _))
  obtain ⟨spacing, hspacing⟩ : ∃ spacing : Nat,
      ((digitCount (significand * 2 ^ shift) - 1 : Nat) - digits + 1 : Int) = spacing :=
    ⟨(digitCount (significand * 2 ^ shift) - digits), by omega⟩
  rw [hspacing] at back hshortest
  obtain ⟨c, zeros, trimmed, rfl⟩ := exists_trimmed candidate spacing
  refine ⟨c, spacing + zeros, by rw [hshortest, trimmed, Nat.cast_add], ?_⟩
  rw [zpow_natCast] at back
  push_cast at back
  rwa [mul_assoc, ← pow_add, add_comm zeros] at back

end Criteria.Binary
