import Criteria.Proofs.FloatRange

/-! # Floats below the unit of a decimal

The places that a decimal cannot keep go one by one, and each rounds on its own. So a number need
not be a whole unit in the last place to become one: rounding carries from digit to digit, and
seventeen eighteenths of a unit are enough, `0.9444…`. Below that a number becomes zero and is
refused. No float lies so close to the bound that the scaling before it could change the outcome.
-/

namespace Criteria

namespace Decimal

theorem ten_pow_mod (n : Nat) : 10 ^ (n + 1) % 18 = 10 := by
  induction n with
  | zero => rfl
  | succ n ih =>
      rw [Nat.pow_succ]
      omega

/-- Rounding a digit away does not carry a number over the bound, nor back. -/
theorem dropDigit_lt_iff {m : Nat} (h : 10 ≤ m) (excess : Nat) :
    18 * dropDigit m < 17 * 10 ^ excess ↔ 18 * m < 17 * 10 ^ (excess + 1) := by
  rw [dropDigit, Nat.pow_succ]
  rcases excess with - | excess
  · split <;> omega
  · have unit := ten_pow_mod excess
    generalize 10 ^ (excess + 1) = unit at *
    split <;> omega

theorem dropDigit_le_of_le {m unit : Nat} (h : m ≤ unit * 10) : dropDigit m ≤ unit := by
  rw [dropDigit]
  split <;> omega

/-- Below the bound nothing is left. -/
theorem mantissa_dropExcess_eq_zero (kept : Nat) {excess m : Nat}
    (h : 18 * m < 17 * 10 ^ excess) : (dropExcess kept excess m).mantissa = 0 := by
  induction excess generalizing m with
  | zero =>
      change m = 0
      omega
  | succ excess ih =>
      rw [dropExcess]
      split
      · rfl
      · exact ih ((dropDigit_lt_iff (by omega) excess).mpr h)

/-- From the bound to a whole unit, a unit is left. -/
theorem dropExcess_eq_one (kept : Nat) {excess m : Nat} (low : 17 * 10 ^ excess ≤ 18 * m)
    (high : m ≤ 10 ^ excess) : dropExcess kept excess m = ⟨1, kept⟩ := by
  induction excess generalizing m with
  | zero =>
      obtain rfl : m = 1 := by omega
      rfl
  | succ excess ih =>
      have unit : 0 < 10 ^ excess := by positivity
      have filled : 10 ≤ m := by
        rw [Nat.pow_succ] at low
        omega
      rw [dropExcess, if_neg (by omega)]
      apply ih
      · rw [← Nat.not_lt] at low ⊢
        exact (dropDigit_lt_iff filled excess).not.mpr low
      · exact dropDigit_le_of_le (by rwa [← Nat.pow_succ])

/-- One in the last of twenty-eight places, the least decimal above zero. -/
def lastUnit : ℚ := 10 ^ (-28 : Int)

theorem lastUnit_pos : 0 < lastUnit := by
  rw [lastUnit]
  positivity

/-- What is less than a unit has excess places. -/
theorem exists_excess {n : Scaled} (pos : 0 < n.toRat) (small : n.toRat < lastUnit) :
    ∃ m excess, n = ⟨m, .negSucc (excess + 27)⟩ ∧ n.toRat = m / 10 ^ excess * lastUnit := by
  obtain ⟨m, e⟩ := n
  have filled : m ≠ 0 := by
    rintro rfl
    simp [Scaled.toRat] at pos
  have few : e < -28 := by
    by_contra more
    have one : (1 : ℚ) ≤ m := by exact_mod_cast Nat.one_le_iff_ne_zero.mpr filled
    have : lastUnit ≤ (⟨m, e⟩ : Scaled).toRat :=
      calc (10 : ℚ) ^ (-28 : Int)
          ≤ 10 ^ e := zpow_le_zpow_right₀ (by norm_num) (by omega)
        _ ≤ m * 10 ^ e := le_mul_of_one_le_left (by positivity) one
    linarith
  obtain ⟨excess, rfl⟩ : ∃ excess : Nat, e = -excess + -28 := ⟨(-28 - e).toNat, by omega⟩
  refine ⟨m, excess, by congr 1; omega, ?_⟩
  rw [Scaled.toRat, lastUnit, zpow_add₀ (by norm_num), zpow_neg, zpow_natCast, ← mul_assoc,
    ← div_eq_mul_inv]

variable {limit : Nat} {n : Scaled}

theorem placedOfScaled?_of_excess (limit m excess : Nat) :
    placedOfScaled? limit ⟨m, .negSucc (excess + 27)⟩ =
      some (
        let kept := dropExcess 28 excess m
        let precise := dropImprecise limit kept.places kept.mantissa
        dropZeros precise.places precise.mantissa) := by
  have kept : min (excess + 27 + 1) 28 = 28 := by omega
  have dropped : excess + 27 + 1 - 28 = excess := by omega
  simp only [placedOfScaled?, kept, dropped]

theorem exists_placedOfScaled?_of_lt (limit : Nat) (pos : 0 < n.toRat)
    (h : n.toRat < 17 / 18 * lastUnit) :
    ∃ placed, placedOfScaled? limit n = some placed ∧ placed.mantissa = 0 := by
  obtain ⟨m, excess, rfl, value⟩ := exists_excess pos (by linarith [lastUnit_pos])
  have below : 18 * m < 17 * 10 ^ excess := by
    rw [value, mul_lt_mul_iff_left₀ lastUnit_pos, div_lt_div_iff₀ (by positivity) (by norm_num),
      mul_comm] at h
    exact_mod_cast h
  refine ⟨_, placedOfScaled?_of_excess limit m excess, Nat.le_zero.mp ?_⟩
  calc _ ≤ _ := (dropZeros_atMost _ _).mantissa_le
    _ ≤ _ := (dropImprecise_atMost _ _ _).mantissa_le
    _ = 0 := mantissa_dropExcess_eq_zero 28 below

theorem placedOfScaled?_eq_unit (hlimit : 2 ≤ limit) (low : 17 / 18 * lastUnit ≤ n.toRat)
    (high : n.toRat < lastUnit) : placedOfScaled? limit n = some ⟨1, 28⟩ := by
  obtain ⟨m, excess, rfl, value⟩ := exists_excess (by linarith [lastUnit_pos]) high
  have low : 17 * 10 ^ excess ≤ 18 * m := by
    rw [value, mul_le_mul_iff_left₀ lastUnit_pos, div_le_div_iff₀ (by norm_num) (by positivity),
      mul_comm (m : ℚ)] at low
    exact_mod_cast low
  have high : m ≤ 10 ^ excess := by
    rw [value, mul_lt_iff_lt_one_left lastUnit_pos, div_lt_one (by positivity)] at high
    exact_mod_cast high.le
  rw [placedOfScaled?_of_excess, dropExcess_eq_one 28 low high]
  simp only [dropImprecise, if_neg (show ¬ limit ≤ 1 by omega)]
  rfl

variable {m shift : Nat}

/-- A float of either width that is not below the bound is a multiple of `2 ^ -146`. -/
theorem shift_le_of_bound_le (hm : m < 2 ^ 53)
    (h : 17 / 18 * lastUnit ≤ (m : ℚ) * 2 ^ Int.negSucc shift) : shift + 1 ≤ 146 := by
  by_contra many
  have small : (m : ℚ) ≤ 2 ^ 53 := by exact_mod_cast hm.le
  refine absurd h (not_le.mpr ?_)
  calc (m : ℚ) * 2 ^ Int.negSucc shift
      ≤ 2 ^ 53 * 2 ^ (-147 : Int) := by
        gcongr
        · norm_num
        · omega
    _ < 17 / 18 * lastUnit := by norm_num [lastUnit]

/-- The first multiple that is not below the bound is so far above it that the halvings do not
    bring it below. -/
theorem bound_le_of_bound_le (hm : m < 2 ^ 53)
    (h : 17 / 18 * lastUnit ≤ (m : ℚ) * 2 ^ Int.negSucc shift) :
    17 / 18 * lastUnit ≤ (1 - tradeLoss) ^ (shift + 1) * ((m : ℚ) * 2 ^ Int.negSucc shift) := by
  have few := shift_le_of_bound_le hm h
  obtain ⟨more, hmore⟩ := Nat.exists_eq_add_of_le few
  have multiple : (m : ℚ) * 2 ^ Int.negSucc shift = (m * 2 ^ more : Nat) / 2 ^ 146 := by
    rw [zpow_negSucc, ← div_eq_mul_inv, Nat.cast_mul, Nat.cast_pow, Nat.cast_ofNat, hmore,
      pow_add 2 (shift + 1), mul_div_mul_right _ _ (by positivity)]
  rw [multiple] at h ⊢
  generalize m * 2 ^ more = multiple at h ⊢
  have first : 8424725963889347 ≤ multiple := by
    by_contra less
    have less : (multiple : ℚ) ≤ 8424725963889346 := by exact_mod_cast Nat.le_of_not_lt less
    refine absurd h (not_le.mpr ?_)
    calc (multiple : ℚ) / 2 ^ 146
        ≤ 8424725963889346 / 2 ^ 146 := by gcongr
      _ < 17 / 18 * lastUnit := by norm_num [lastUnit]
  have first : (8424725963889347 : ℚ) ≤ multiple := by exact_mod_cast first
  have kept : 1 - 146 * tradeLoss ≤ (1 - tradeLoss) ^ (shift + 1) := by
    have count : ((shift + 1 : Nat) : ℚ) ≤ 146 := by exact_mod_cast few
    have := mul_le_mul_of_nonneg_right count tradeLoss_nonneg
    linarith [one_sub_tradeLoss_pow_ge_sub (shift + 1)]
  calc 17 / 18 * lastUnit
      ≤ (1 - 146 * tradeLoss) * (8424725963889347 / 2 ^ 146) := by norm_num [lastUnit, tradeLoss]
    _ ≤ (1 - tradeLoss) ^ (shift + 1) * (multiple / 2 ^ 146) := by
        gcongr
        norm_num [tradeLoss]

variable {negative : Bool} {significand : Nat} {exponent : Int}

/-- A number below one has a power of two below one. -/
theorem exists_negSucc (filled : significand ≠ 0)
    (h : (significand : ℚ) * 2 ^ exponent < lastUnit) : ∃ shift, exponent = .negSucc shift := by
  cases exponent with
  | negSucc shift => exact ⟨shift, rfl⟩
  | ofNat shift =>
      exfalso
      have one : 1 ≤ significand * 2 ^ shift :=
        Nat.mul_pos (Nat.pos_of_ne_zero filled) (by positivity)
      have one : (1 : ℚ) ≤ significand * 2 ^ shift := by exact_mod_cast one
      have unit : lastUnit < 1 := by norm_num [lastUnit]
      rw [Int.ofNat_eq_natCast, zpow_natCast] at h
      linarith

/-- Below the bound a number has no decimal but zero. -/
theorem mantissa_eq_zero_of_ofBinary? (filled : significand ≠ 0)
    (h : (significand : ℚ) * 2 ^ exponent < 17 / 18 * lastUnit) {d : Decimal}
    (found : ofBinary? limit (.finite negative significand exponent) = some d) :
    d.mantissa = 0 := by
  obtain ⟨shift, rfl⟩ := exists_negSucc filled (by linarith [lastUnit_pos])
  obtain ⟨least, most⟩ := toRat_tradeHalvings_bounds significand shift
  have pos : 0 < (tradeHalvings (shift + 1) ⟨significand, .negSucc shift⟩).toRat := by
    have : 0 < 1 - tradeLoss := by linarith [tradeLoss_lt_one]
    have : (0 : ℚ) < significand := by exact_mod_cast Nat.pos_of_ne_zero filled
    exact lt_of_lt_of_le (by positivity) least
  obtain ⟨placed, hplaced, empty⟩ :=
    exists_placedOfScaled?_of_lt limit pos (lt_of_le_of_lt most h)
  obtain ⟨scaled, hscaled, hplaced', -⟩ := (ofBinary?_finite_eq_some_iff filled).mp found
  obtain rfl := Option.some.inj hscaled
  obtain rfl := Option.some.inj (hplaced.symm.trans hplaced')
  exact empty

/-- From the bound on a number has the least decimal above zero. -/
theorem ofBinary?_eq_unit (negative : Bool) {limit : Nat} (hlimit : 2 ≤ limit)
    (hsignificand : significand < 2 ^ 53)
    (low : 17 / 18 * lastUnit ≤ (significand : ℚ) * 2 ^ exponent)
    (high : (significand : ℚ) * 2 ^ exponent < lastUnit) :
    ofBinary? limit (.finite negative significand exponent) =
      some ⟨negative, 1, 28, by decide, Nat.le_refl 28⟩ := by
  have filled : significand ≠ 0 := by
    rintro rfl
    rw [Nat.cast_zero, zero_mul] at low
    linarith [lastUnit_pos]
  obtain ⟨shift, rfl⟩ := exists_negSucc filled high
  obtain ⟨least, most⟩ := toRat_tradeHalvings_bounds significand shift
  have reached := le_trans (bound_le_of_bound_le hsignificand low) least
  exact (ofBinary?_finite_eq_some_iff filled).mpr
    ⟨_, rfl, placedOfScaled?_eq_unit hlimit reached (lt_of_le_of_lt most high), rfl⟩

end Decimal

namespace Literal

variable {limit : Nat} {x : Binary}

/-- What comes of a float that is not zero but below a unit: `x` is its value, `named` the double in
    whose name it is refused. -/
structure ConvertsSmall (x : Binary) (named : Float) (result : Except Refusal Literal) : Prop where
  refused (v : ℚ) : x.toRat? = some v → v ≠ 0 → |v| < 17 / 18 * Decimal.lastUnit →
    result = .error (.unsupported (.float named))
  rounded_up (v : ℚ) : x.toRat? = some v → 17 / 18 * Decimal.lastUnit ≤ |v| →
    |v| < Decimal.lastUnit → ∃ d : Decimal, result = .ok (.decimal d) ∧
      d.negative = x.isNegative ∧ d.mantissa = 1 ∧ d.scale = 28

theorem ofBinary?_eq_none_of_small {v : ℚ} (hv : x.toRat? = some v) (filled : v ≠ 0)
    (h : |v| < 17 / 18 * Decimal.lastUnit) : ofBinary? limit x = none := by
  rw [Option.eq_none_iff_forall_ne_some]
  intro l hl
  obtain ⟨d, -, found, zero⟩ := ofBinary?_eq_some_iff.mp hl
  refine filled ((Binary.isZero_iff hv).mp (zero ?_))
  cases x with
  | nan | infinite => cases hv
  | finite negative significand exponent =>
      rw [Binary.abs_of_toRat?_eq_some hv] at h
      have present : significand ≠ 0 := mt (Binary.eq_zero_of_toRat?_iff hv).mpr filled
      exact beq_iff_eq.mpr (Decimal.mantissa_eq_zero_of_ofBinary? present h found)

theorem ConvertsSmall.of_convertsBy {named : Float} {result : Except Refusal Literal}
    (hlimit : 2 ≤ limit) (hx : x.FitsDouble) (converts : ConvertsBy limit x named result) :
    ConvertsSmall x named result where
  refused v hv filled below := converts.error (ofBinary?_eq_none_of_small hv filled below)
  rounded_up v hv low high := by
    cases x with
    | nan | infinite => cases hv
    | finite negative significand exponent =>
        rw [Binary.abs_of_toRat?_eq_some hv] at low high
        have found := Decimal.ofBinary?_eq_unit negative hlimit hx.1 low high
        exact ⟨_, converts.ok (ofBinary?_eq_some_iff.mpr ⟨_, rfl, found, nofun⟩), rfl, rfl, rfl⟩

/-- A float of either width that is not zero is refused below seventeen eighteenths of a unit. From
    there on it becomes a whole unit with its sign. -/
theorem floats_refused_below_bound (x : Float) (y : Float32) :
    ConvertsSmall (Binary.ofFloat x) x (ofFloat x) ∧
    ConvertsSmall (Binary.ofFloat32 y) y.toFloat (ofFloat32 y) := by
  constructor
  · exact .of_convertsBy (by decide) (Binary.fitsDouble_ofFloat x) (convertsBy_ofFloat x)
  · exact .of_convertsBy (by decide) (Binary.fitsDouble_ofFloat32 y) (convertsBy_ofFloat32 y)

/-- The doubles on either side of the bound. -/
theorem floats_refused_below_bound_of_neighbours :
    ofFloat (Float.ofBits 0x3A1DEE3E5E685AC2) =
      .error (.unsupported (.float (Float.ofBits 0x3A1DEE3E5E685AC2))) ∧
    ∃ d : Decimal, ofFloat (Float.ofBits 0x3A1DEE3E5E685AC3) = .ok (.decimal d) ∧
      d.negative = false ∧ d.mantissa = 1 ∧ d.scale = 28 := by
  have below : Binary.ofFloat (Float.ofBits 0x3A1DEE3E5E685AC2) =
      .finite false 8424725963889346 (-146) := by decide +kernel
  have above : Binary.ofFloat (Float.ofBits 0x3A1DEE3E5E685AC3) =
      .finite false 8424725963889347 (-146) := by decide +kernel
  constructor
  · refine (floats_refused_below_bound _ 0).1.refused _ (by rw [below]; rfl) ?_ ?_
    · norm_num
    · norm_num [Decimal.lastUnit, abs_of_pos]
  · obtain ⟨d, found, sign, mantissa, scale⟩ :=
      (floats_refused_below_bound _ 0).1.rounded_up _ (by rw [above]; rfl)
      (by norm_num [Decimal.lastUnit, abs_of_pos]) (by norm_num [Decimal.lastUnit, abs_of_pos])
    exact ⟨d, found, by rw [sign, above]; rfl, mantissa, scale⟩

/-- The double nearest to `9.9e-29` is below a unit and is not refused. -/
theorem exists_float_below_unit_not_refused :
    ∃ (x : Float) (v : ℚ), (Binary.ofFloat x).toRat? = some v ∧ 0 < |v| ∧ |v| < Decimal.lastUnit ∧
      ∃ l, ofFloat x = .ok l := by
  have value : Binary.ofFloat (Float.ofBits 0x3A1F5FD58E54B10F) =
      .finite false 8831095098618127 (-146) := by decide +kernel
  refine ⟨Float.ofBits 0x3A1F5FD58E54B10F, 8831095098618127 / 2 ^ 146, ?_, ?_, ?_, ?_⟩
  · rw [value, Binary.toRat?]
    norm_num
  · norm_num
  · norm_num [Decimal.lastUnit, abs_of_pos]
  · have found := Decimal.ofBinary?_eq_unit false (show 2 ≤ Decimal.doubleLimit by decide)
      (show 8831095098618127 < 2 ^ 53 by decide)
      (show 17 / 18 * Decimal.lastUnit ≤ (8831095098618127 : Nat) * 2 ^ (-146 : Int) by
        norm_num [Decimal.lastUnit])
      (by norm_num [Decimal.lastUnit])
    rw [← value] at found
    exact ⟨_, (convertsBy_ofFloat _).ok (ofBinary?_eq_some_iff.mpr ⟨_, rfl, found, nofun⟩)⟩

end Literal

end Criteria
