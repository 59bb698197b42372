import Criteria.Literal.Conversion
import Criteria.Proofs.Placing

/-! # Which floats have a decimal

A float has a decimal literal when it is zero or lies between a unit in the last place of a decimal
and the largest mantissa. It has none when it is no number or lies above. Below the unit some
numbers are rounded up to it; what matters is that no number becomes zero that is not.
-/

namespace Criteria

namespace Binary

/-- The number that a floating-point value stands for, if it is finite. -/
def toRat? : Binary → Option ℚ
  | .nan => none
  | .infinite _ => none
  | .finite negative significand exponent =>
    some ((if negative then -1 else 1) * (significand * 2 ^ exponent))

def isNegative : Binary → Bool
  | .nan => false
  | .infinite negative => negative
  | .finite negative _ _ => negative

variable {x : Binary} {negative : Bool} {significand : Nat} {exponent : Int} {v : ℚ}

theorem abs_of_toRat?_eq_some (h : (finite negative significand exponent).toRat? = some v) :
    |v| = significand * 2 ^ exponent := by
  obtain rfl := Option.some.inj h
  have nonneg : (0 : ℚ) ≤ significand * 2 ^ exponent := by positivity
  cases negative <;> simp [abs_of_nonneg nonneg]

theorem eq_zero_of_toRat?_iff (h : (finite negative significand exponent).toRat? = some v) :
    v = 0 ↔ significand = 0 := by
  rw [← abs_eq_zero, abs_of_toRat?_eq_some h]
  have power : (2 : ℚ) ^ exponent ≠ 0 := by positivity
  simp [power]

theorem neg_of_toRat?_iff (h : (finite negative significand exponent).toRat? = some v) :
    v < 0 ↔ negative = true ∧ significand ≠ 0 := by
  obtain rfl := Option.some.inj h
  have power : (0 : ℚ) < 2 ^ exponent := by positivity
  cases negative with
  | true => simp [power, Nat.pos_iff_ne_zero]
  | false =>
      have nonneg : (0 : ℚ) ≤ significand * 2 ^ exponent := by positivity
      simp [nonneg]

/-- Of a finite value, that its significand and exponent fit the fields of a double. -/
def FitsDouble : Binary → Prop
  | .nan => True
  | .infinite _ => True
  | .finite _ significand exponent => significand < 2 ^ 53 ∧ -1074 ≤ exponent

/-- Significands are below twice the leading bit, and exponents are not below the least one. -/
theorem fitsDouble_ofBits {format : BinaryFormat} (hleading : 2 * format.leadingBit ≤ 2 ^ 53)
    (hexponent : -1074 ≤ format.minExponent) (bits : Nat) : (ofBits format bits).FitsDouble := by
  have fraction : bits % format.leadingBit < format.leadingBit :=
    Nat.mod_lt _ (Nat.two_pow_pos format.fractionBits)
  rw [ofBits]
  split
  · split <;> trivial
  · split
    · exact ⟨by omega, hexponent⟩
    · exact ⟨by omega, by omega⟩

theorem fitsDouble_ofFloat (x : Float) : (ofFloat x).FitsDouble :=
  fitsDouble_ofBits (by decide) (by decide) x.toBits.toNat

theorem fitsDouble_ofFloat32 (x : Float32) : (ofFloat32 x).FitsDouble :=
  fitsDouble_ofBits (by decide) (by decide) x.toBits.toNat

theorem isZero_iff (h : x.toRat? = some v) : x.isZero = true ↔ v = 0 := by
  cases x with
  | nan | infinite => cases h
  | finite negative significand exponent =>
      rw [eq_zero_of_toRat?_iff h, isZero, beq_iff_eq]

end Binary

namespace Decimal

variable {limit : Nat} {negative : Bool} {significand : Nat} {exponent : Int} {d : Decimal}

/-- The decimal of a number other than zero is what the two stages leave, under its sign. -/
theorem ofBinary?_finite_eq_some_iff (filled : significand ≠ 0) :
    ofBinary? limit (.finite negative significand exponent) = some d ↔
      ∃ scaled, scaledOfBinary? significand exponent = some scaled ∧
        placedOfScaled? limit scaled = some ⟨d.mantissa, d.scale⟩ ∧ d.negative = negative := by
  simp only [ofBinary?, if_neg filled, Option.bind_eq_bind, Option.bind_eq_some_iff, ofParts?]
  constructor
  · rintro ⟨scaled, hscaled, placed, hplaced, h⟩
    split at h
    · cases h
      exact ⟨scaled, hscaled, hplaced, rfl⟩
    · cases h
  · rintro ⟨scaled, hscaled, hplaced, rfl⟩
    exact ⟨scaled, hscaled, _, hplaced, dif_pos ⟨d.mantissa_lt, d.scale_le⟩⟩

/-- Every number in the range has a decimal, and that is not zero. -/
theorem exists_ofBinary? (hlimit : 10 ≤ limit) (hsignificand : significand < 2 ^ 53)
    (hexponent : -1074 ≤ exponent)
    (hlow : (10 : ℚ) ^ (-28 : Int) ≤ significand * 2 ^ exponent)
    (hhigh : (significand : ℚ) * 2 ^ exponent ≤ 2 ^ 96 - 1) :
    ∃ d, ofBinary? limit (.finite negative significand exponent) = some d ∧ d.mantissa ≠ 0 := by
  have unit : (0 : ℚ) < 10 ^ (-28 : Int) := by positivity
  have filled : significand ≠ 0 := by
    rintro rfl
    rw [Nat.cast_zero, zero_mul] at hlow
    linarith
  obtain ⟨n, hscaled, nonpos, room, near⟩ :=
    exists_scaledOfBinary? hsignificand hexponent hhigh
  have near : 95 / 100 * (10 : ℚ) ^ (-28 : Int) ≤ n.toRat :=
    le_trans (mul_le_mul_of_nonneg_left hlow (by norm_num)) near
  obtain ⟨placed, hplaced, inRange, nonzero⟩ := exists_placedOfScaled? hlimit nonpos near
  have parts : placed.mantissa < 2 ^ 96 ∧ placed.places ≤ 28 :=
    ⟨Nat.lt_of_le_of_lt inRange.mantissa_le room, inRange.places_le⟩
  exact ⟨⟨negative, placed.mantissa, placed.places, parts.1, parts.2⟩,
    (ofBinary?_finite_eq_some_iff filled).mpr ⟨n, hscaled, hplaced, rfl⟩, nonzero⟩

theorem ofBinary?_eq_none (hsignificand : significand < 2 ^ 53)
    (hlarge : (2 : ℚ) ^ 96 - 1 < significand * 2 ^ exponent) :
    ofBinary? limit (.finite negative significand exponent) = none := by
  have filled : significand ≠ 0 := by
    rintro rfl
    norm_num at hlarge
  rw [ofBinary?, if_neg filled, scaledOfBinary?_eq_none hsignificand hlarge]
  rfl

/-- A decimal comes from a finite number and has its sign. -/
theorem sign_of_ofBinary? {x : Binary} (h : ofBinary? limit x = some d) :
    (∃ v, x.toRat? = some v) ∧ d.negative = x.isNegative ∧ (x.isZero = true → d.isZero = true) := by
  cases x with
  | nan | infinite => cases h
  | finite negative significand exponent =>
      refine ⟨⟨_, rfl⟩, ?_⟩
      by_cases zero : significand = 0
      · rw [ofBinary?, if_pos zero] at h
        cases h
        exact ⟨rfl, fun _ => rfl⟩
      · obtain ⟨-, -, -, sign⟩ := (ofBinary?_finite_eq_some_iff zero).mp h
        exact ⟨sign, fun zero' => absurd (beq_iff_eq.mp zero') zero⟩

end Decimal

namespace Literal

variable {limit : Nat} {x : Binary} {l : Literal}

theorem ofBinary?_eq_some_iff :
    ofBinary? limit x = some l ↔ ∃ d, l = .decimal d ∧ Decimal.ofBinary? limit x = some d ∧
      (d.isZero = true → x.isZero = true) := by
  rw [ofBinary?]
  cases Decimal.ofBinary? limit x with
  | none => simp
  | some d =>
      have silent : (d.isZero && !x.isZero) = true ↔ ¬ (d.isZero = true → x.isZero = true) := by
        cases d.isZero <;> cases x.isZero <;> decide
      dsimp only
      constructor
      · intro h
        split at h
        · cases h
        · cases h
          exact ⟨d, rfl, rfl, of_not_not (silent.not.mp ‹_›)⟩
      · rintro ⟨_, rfl, ⟨rfl⟩, zero⟩
        exact if_neg (silent.not.mpr (not_not.mpr zero))

/-- Both widths convert so: `x` is the value, `named` the double in whose name it is refused. -/
structure ConvertsBy (limit : Nat) (x : Binary) (named : Float) (result : Except Refusal Literal) :
    Prop where
  ok {l : Literal} : ofBinary? limit x = some l → result = .ok l
  error : ofBinary? limit x = none → result = .error (.unsupported (.float named))

theorem convertsBy_ofFloat (x : Float) :
    ConvertsBy Decimal.doubleLimit (Binary.ofFloat x) x (ofFloat x) where
  ok h := by rw [ofFloat, h]
  error h := by rw [ofFloat, h]

theorem convertsBy_ofFloat32 (x : Float32) :
    ConvertsBy Decimal.singleLimit (Binary.ofFloat32 x) x.toFloat (ofFloat32 x) where
  ok h := by rw [ofFloat32, h]
  error h := by rw [ofFloat32, h]

/-- What comes of a float: `x` is its value, `named` the double in whose name it is refused. -/
structure ConvertsInRange (x : Binary) (named : Float) (result : Except Refusal Literal) :
    Prop where
  not_finite : x.toRat? = none → result = .error (.unsupported (.float named))
  too_large (v : ℚ) : x.toRat? = some v → 2 ^ 96 - 1 < |v| →
    result = .error (.unsupported (.float named))
  in_range (v : ℚ) : x.toRat? = some v → v = 0 ∨ 10 ^ (-28 : Int) ≤ |v| ∧ |v| ≤ 2 ^ 96 - 1 →
    ∃ l, result = .ok l
  faithful (l : Literal) : result = .ok l → ∃ d v, l = .decimal d ∧ x.toRat? = some v ∧
    d.mantissa < 2 ^ 96 ∧ d.scale ≤ 28 ∧ d.negative = x.isNegative ∧ (l.isEmpty = true ↔ v = 0)

/-- A finite number has a literal when it is zero or in the range. -/
theorem exists_ofBinary?_of_in_range (hlimit : 10 ≤ limit) (hx : x.FitsDouble)
    {v : ℚ} (hv : x.toRat? = some v) (h : v = 0 ∨ 10 ^ (-28 : Int) ≤ |v| ∧ |v| ≤ 2 ^ 96 - 1) :
    ∃ l, ofBinary? limit x = some l := by
  cases x with
  | nan | infinite => cases hv
  | finite negative significand exponent =>
      obtain ⟨hsignificand, hexponent⟩ := hx
      rcases h with zero | ⟨low, high⟩
      · obtain rfl := (Binary.eq_zero_of_toRat?_iff hv).mp zero
        exact ⟨_, ofBinary?_eq_some_iff.mpr ⟨.zero negative, rfl, rfl, fun _ => rfl⟩⟩
      · rw [Binary.abs_of_toRat?_eq_some hv] at low high
        obtain ⟨d, found, filled⟩ := Decimal.exists_ofBinary? hlimit hsignificand hexponent low high
        exact ⟨_, ofBinary?_eq_some_iff.mpr
          ⟨d, rfl, found, fun zero => absurd (beq_iff_eq.mp zero) filled⟩⟩

theorem ofBinary?_eq_none_of_large (hx : x.FitsDouble)
    {v : ℚ} (hv : x.toRat? = some v) (h : 2 ^ 96 - 1 < |v|) : ofBinary? limit x = none := by
  cases x with
  | nan | infinite => cases hv
  | finite negative significand exponent =>
      rw [Binary.abs_of_toRat?_eq_some hv] at h
      rw [ofBinary?, Decimal.ofBinary?_eq_none hx.1 h]

/-- The literal of a float is a decimal with its sign, and is empty for zero only. -/
theorem faithful_of_ofBinary?_eq_some (h : ofBinary? limit x = some l) :
    ∃ d v, l = .decimal d ∧ x.toRat? = some v ∧ d.negative = x.isNegative ∧
      (l.isEmpty = true ↔ v = 0) := by
  obtain ⟨d, rfl, found, zero⟩ := ofBinary?_eq_some_iff.mp h
  obtain ⟨⟨v, hv⟩, sign, zero'⟩ := Decimal.sign_of_ofBinary? found
  exact ⟨d, v, rfl, hv, sign, by rw [← Binary.isZero_iff hv]; exact ⟨zero, zero'⟩⟩

/-- What every width shares. -/
theorem ConvertsInRange.of_convertsBy {named : Float} {result : Except Refusal Literal}
    (hlimit : 10 ≤ limit) (hx : x.FitsDouble) (converts : ConvertsBy limit x named result) :
    ConvertsInRange x named result where
  not_finite none := by
    apply converts.error
    rw [Option.eq_none_iff_forall_ne_some]
    intro l hl
    obtain ⟨_, v, -, hv, -⟩ := faithful_of_ofBinary?_eq_some hl
    cases none.symm.trans hv
  too_large v hv large := converts.error (ofBinary?_eq_none_of_large hx hv large)
  in_range v hv range := by
    obtain ⟨l, hl⟩ := exists_ofBinary?_of_in_range hlimit hx hv range
    exact ⟨l, converts.ok hl⟩
  faithful l hresult := by
    cases hl : ofBinary? limit x with
    | none => cases hresult.symm.trans (converts.error hl)
    | some other =>
        obtain rfl : l = other := Except.ok.inj (hresult.symm.trans (converts.ok hl))
        obtain ⟨d, v, rfl, hv, sign, empty⟩ := faithful_of_ofBinary?_eq_some hl
        exact ⟨d, v, rfl, hv, d.mantissa_lt, d.scale_le, sign, empty⟩

/-- A float of either width is refused when it is no number or lies above the largest mantissa. It
    has a literal when it is zero or lies in the range of a decimal. A literal of a float is a
    decimal with its sign, and none but that of zero is empty. -/
theorem floats_convert_in_range :
    (∀ x : Float, ConvertsInRange (Binary.ofFloat x) x (ofFloat x)) ∧
    ∀ x : Float32, ConvertsInRange (Binary.ofFloat32 x) x.toFloat (ofFloat32 x) := by
  constructor
  · intro x
    exact .of_convertsBy (by decide) (Binary.fitsDouble_ofFloat x) (convertsBy_ofFloat x)
  · intro x
    exact .of_convertsBy (by decide) (Binary.fitsDouble_ofFloat32 x) (convertsBy_ofFloat32 x)

/-- The doubles on either side of the largest mantissa, and a single that is no number. -/
theorem floats_convert_in_range_of_neighbours :
    (∃ l, ofFloat (Float.ofBits 0x45EFFFFFFFFFFFFF) = .ok l) ∧
    ofFloat (Float.ofBits 0x45F0000000000000) =
      .error (.unsupported (.float (Float.ofBits 0x45F0000000000000))) ∧
    ofFloat32 (Float32.ofBits 0x7FC00000) =
      .error (.unsupported (.float (Float32.ofBits 0x7FC00000).toFloat)) := by
  have below : Binary.ofFloat (Float.ofBits 0x45EFFFFFFFFFFFFF) =
      .finite false (2 ^ 53 - 1) 43 := by decide +kernel
  have above : Binary.ofFloat (Float.ofBits 0x45F0000000000000) =
      .finite false (2 ^ 52) 44 := by decide +kernel
  have other : Binary.ofFloat32 (Float32.ofBits 0x7FC00000) = .nan := by decide +kernel
  obtain ⟨doubles, singles⟩ := floats_convert_in_range
  refine ⟨(doubles _).in_range _ (by rw [below]; rfl) (.inr ?_),
    (doubles _).too_large _ (by rw [above]; rfl) ?_, (singles _).not_finite (by rw [other]; rfl)⟩
  · norm_num [abs_of_pos]
  · norm_num [abs_of_pos]

end Literal

end Criteria
