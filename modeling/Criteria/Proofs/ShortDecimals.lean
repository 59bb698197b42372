import Criteria.Proofs.Equality
import Criteria.Proofs.FloatRange
import Criteria.Proofs.Forms
import Mathlib.Algebra.Order.Ring.Pow
import Mathlib.Data.Nat.Prime.Basic

/-! # Floats with few digits

A float with a short decimal expansion loses nothing on its way. A power of two in its significand
is halved away first, and what is left is odd and takes a factor of five for every place. That is
the number without its point, and when it is below the limit no stage behind it drops a digit.
-/

namespace Criteria

namespace Decimal

theorem tradeHalvings_add (first second : Nat) (n : Scaled) :
    tradeHalvings (first + second) n = tradeHalvings second (tradeHalvings first n) := by
  induction first generalizing n with
  | zero => rw [Nat.zero_add, tradeHalvings]
  | succ first ih =>
      rw [Nat.succ_add, tradeHalvings, tradeHalvings]
      split
      · exact ih _
      · exact ih _

theorem tradeHalvings_even (count m : Nat) (e : Int) :
    tradeHalvings count ⟨m * 2 ^ count, e⟩ = ⟨m, e + count⟩ := by
  induction count generalizing e with
  | zero => simp [tradeHalvings]
  | succ count ih =>
      have twice : m * 2 ^ (count + 1) = m * 2 ^ count * 2 := by rw [Nat.pow_succ, Nat.mul_assoc]
      rw [tradeHalvings, twice, if_pos (.inl (Nat.mul_mod_left _ 2)),
        Nat.mul_div_cancel _ (by decide), ih]
      congr 1
      push_cast
      ring

theorem tradeHalvings_odd {count m : Nat} (odd : m % 2 = 1) (room : m * 5 ^ count < 2 ^ 96)
    (e : Int) : tradeHalvings count ⟨m, e⟩ = ⟨m * 5 ^ count, e⟩ := by
  induction count generalizing m with
  | zero => simp [tradeHalvings]
  | succ count ih =>
      rw [Nat.pow_succ', ← Nat.mul_assoc] at room
      have next : m * 5 < 2 ^ 96 :=
        Nat.lt_of_le_of_lt (Nat.le_mul_of_pos_right _ (by positivity)) room
      rw [tradeHalvings, if_neg (by omega), ih (by omega) room, Nat.pow_succ', Nat.mul_assoc]

/-- A whole number of tenths, hundredths and so on that is a whole number of halves, quarters and
    so on, too. Its last digit shows that there are no more places than halvings. -/
theorem exists_odd_part {m k places count : Nat} (h : m * 10 ^ places = k * 2 ^ count)
    (last : places = 0 ∨ k % 10 ≠ 0) :
    ∃ c zeros, count = zeros + places ∧ m = c * 2 ^ zeros ∧ k = c * 5 ^ places ∧
      (places = 0 ∨ c % 2 = 1) := by
  have enough : places ≤ count := by
    by_contra more
    obtain ⟨extra, rfl⟩ : ∃ extra, places = count + (extra + 1) := ⟨places - count - 1, by omega⟩
    have tens : k = m * 10 ^ extra * 5 ^ count * 10 := by
      apply Nat.eq_of_mul_eq_mul_right (show 0 < 2 ^ count by positivity)
      rw [← h, show 10 = 2 * 5 from rfl, Nat.mul_pow, Nat.mul_pow]
      ring
    omega
  obtain ⟨zeros, rfl⟩ := Nat.exists_eq_add_of_le' enough
  have fives : m * 5 ^ places = k * 2 ^ zeros := by
    apply Nat.eq_of_mul_eq_mul_right (show 0 < 2 ^ places by positivity)
    calc m * 5 ^ places * 2 ^ places
        = m * 10 ^ places := by rw [Nat.mul_assoc, ← Nat.mul_pow]
      _ = k * 2 ^ zeros * 2 ^ places := by rw [h, Nat.pow_add, Nat.mul_assoc]
  have coprime : Nat.Coprime (2 ^ zeros) (5 ^ places) := Nat.Coprime.pow _ _ (by decide)
  obtain ⟨c, rfl⟩ : 2 ^ zeros ∣ m := coprime.dvd_of_dvd_mul_right ⟨k, by rw [fives, Nat.mul_comm]⟩
  have whole : k = c * 5 ^ places := by
    apply Nat.eq_of_mul_eq_mul_right (show 0 < 2 ^ zeros by positivity)
    rw [← fives]
    ring
  refine ⟨c, zeros, rfl, Nat.mul_comm _ _, whole, ?_⟩
  rcases places with - | places
  · exact .inl rfl
  · refine .inr ?_
    rw [whole, Nat.pow_succ] at last
    have last := last.resolve_left (Nat.succ_ne_zero places)
    by_contra even
    obtain ⟨half, rfl⟩ : 2 ∣ c := by omega
    exact last (by rw [show 2 * half * (5 ^ places * 5) = half * 5 ^ places * 10 by ring]; omega)

variable {limit significand k places : Nat} {exponent : Int}

/-- A number with an expansion has no power of two below one, or as many of them as it has places
    and zeros in its significand. -/
theorem digits_cases (last : places = 0 ∨ k % 10 ≠ 0)
    (value : (significand : ℚ) * 2 ^ exponent = k / 10 ^ places) :
    (∃ shift, exponent = .ofNat shift ∧ places = 0 ∧ k = significand * 2 ^ shift) ∨
    ∃ shift c zeros, exponent = .negSucc shift ∧ shift + 1 = zeros + places ∧
      significand = c * 2 ^ zeros ∧ k = c * 5 ^ places ∧ (places = 0 ∨ c % 2 = 1) := by
  rw [eq_div_iff (by positivity)] at value
  cases exponent with
  | ofNat shift =>
      have value : significand * 2 ^ shift * 10 ^ places = k := by
        rw [Int.ofNat_eq_natCast, zpow_natCast] at value
        exact_mod_cast value
      obtain rfl : places = 0 := by
        by_contra filled
        have tens : 10 ∣ k := value ▸ (dvd_pow_self 10 filled).mul_left _
        exact last.resolve_left filled (Nat.mod_eq_zero_of_dvd tens)
      exact .inl ⟨shift, rfl, rfl, by rw [← value, Nat.pow_zero, Nat.mul_one]⟩
  | negSucc shift =>
      have value : significand * 10 ^ places = k * 2 ^ (shift + 1) := by
        rw [zpow_negSucc, mul_right_comm, mul_inv_eq_iff_eq_mul₀ (by positivity)] at value
        exact_mod_cast value
      obtain ⟨c, zeros, count, significand, digits, odd⟩ := exists_odd_part value last
      exact .inr ⟨shift, c, zeros, rfl, count, significand, digits, odd⟩

theorem five_pow_dvd_of_digits (last : places = 0 ∨ k % 10 ≠ 0)
    (value : (significand : ℚ) * 2 ^ exponent = k / 10 ^ places) : 5 ^ places ∣ k := by
  rcases digits_cases last value with ⟨-, -, rfl, -⟩ | ⟨-, c, -, -, -, -, rfl, -⟩
  · exact one_dvd k
  · exact Nat.dvd_mul_left _ _

/-- A number with a short expansion is scaled to that expansion. -/
theorem scaledOfBinary?_of_digits (room : k < 2 ^ 96) (last : places = 0 ∨ k % 10 ≠ 0)
    (value : (significand : ℚ) * 2 ^ exponent = k / 10 ^ places) :
    scaledOfBinary? significand exponent = some ⟨k, -places⟩ := by
  rcases digits_cases last value with
    ⟨shift, rfl, rfl, rfl⟩ | ⟨shift, c, zeros, rfl, count, rfl, rfl, odd⟩
  · rw [scaledOfBinary?, tradeFifths_of_lt room, sub_self, Nat.cast_zero, neg_zero]
  · have exponent : Int.negSucc shift + zeros = -(places : Int) := by omega
    rw [scaledOfBinary?, count, tradeHalvings_add, tradeHalvings_even, exponent]
    rcases odd with rfl | odd
    · simp [tradeHalvings]
    · rw [tradeHalvings_odd odd room]

/-- Digits that are few enough are neither rounded nor dropped. -/
theorem placedOfScaled?_of_digits (hplaces : places ≤ 28)
    (short : places = 0 ∨ k % 10 ≠ 0 ∧ k < limit) :
    placedOfScaled? limit ⟨k, -places⟩ = some ⟨k, places⟩ := by
  cases places with
  | zero => rfl
  | succ places =>
      obtain ⟨last, precise⟩ := short.resolve_left (Nat.succ_ne_zero places)
      have exponent : -((places + 1 : Nat) : Int) = .negSucc places := rfl
      rw [exponent]
      simp only [placedOfScaled?, Nat.min_eq_left hplaces, Nat.sub_eq_zero_of_le hplaces,
        dropExcess, dropImprecise, dropZeros, if_neg (Nat.not_le_of_lt precise), if_neg last]

/-- A number with a short expansion has the decimal that is written so. -/
theorem ofBinary?_of_digits (limit : Nat) (negative : Bool) (filled : k ≠ 0) (room : k < 2 ^ 96)
    (hplaces : places ≤ 28) (short : places = 0 ∨ k % 10 ≠ 0 ∧ k < limit)
    (value : (significand : ℚ) * 2 ^ exponent = k / 10 ^ places) :
    ofBinary? limit (.finite negative significand exponent) =
      some ⟨negative, k, places, room, hplaces⟩ := by
  have nonzero : significand ≠ 0 := by
    rintro rfl
    rw [Nat.cast_zero, zero_mul, eq_comm, div_eq_zero_iff] at value
    exact filled (by simpa using value)
  exact (ofBinary?_finite_eq_some_iff nonzero).mpr
    ⟨_, scaledOfBinary?_of_digits room (short.imp_right And.left) value,
      placedOfScaled?_of_digits hplaces short, rfl⟩

end Decimal

namespace Text

/-- A number written in base ten as people write it: no needless zero in front, and none behind the
    last digit after the point. -/
structure Expansion where
  negative : Bool
  whole : List Char
  places : List Char
  digits : ∀ c ∈ whole ++ places, c.isDigit = true
  whole_canonical : whole = ['0'] ∨ whole ≠ [] ∧ whole.head? ≠ some '0'
  places_canonical : places.getLast? ≠ some '0'

namespace Expansion

/-- There is no point when there are no places. -/
def chars (e : Expansion) : List Char :=
  (if e.negative then ['-'] else []) ++ e.whole ++
    if e.places = [] then [] else '.' :: e.places

def toRat (e : Expansion) : ℚ :=
  (if e.negative then -1 else 1) *
    (Nat.ofDigitChars 10 (e.whole ++ e.places) 0 / 10 ^ e.places.length)

end Expansion

theorem numeral_canonical (n : Nat) :
    numeral n = ['0'] ∨ numeral n ≠ [] ∧ (numeral n).head? ≠ some '0' := by
  rcases Nat.eq_zero_or_pos n with rfl | pos
  · exact .inl rfl
  · exact .inr ⟨numeral_ne_nil n, head?_numeral_ne_zero pos⟩

theorem getLast?_numeral (n : Nat) : (numeral n).getLast? = some (Nat.digitChar (n % 10)) := by
  rw [numeral, Nat.toDigits_eq_if (by decide)]
  split
  · rw [Nat.mod_eq_of_lt ‹_›]
    rfl
  · rw [List.getLast?_append]
    rfl

theorem getLast?_padded (width n : Nat) :
    (padded width n).getLast? = some (Nat.digitChar (n % 10)) := by
  rw [padded, List.leftpad, List.getLast?_append, getLast?_numeral]
  rfl

theorem digitChar_ne_zero {d : Nat} (h : d < 10) (filled : d ≠ 0) : Nat.digitChar d ≠ '0' := by
  decide +revert

end Text

namespace Decimal

/-- Digits without the point and with it are of one number. -/
theorem ofDigitChars_magnitude {width : Nat} (pos : 0 < width) (m : Nat) :
    Nat.ofDigitChars 10
      (Text.numeral (m / 10 ^ width) ++ Text.padded width (m % 10 ^ width)) 0 = m := by
  have digits : Nat.ofDigitChars 10 (Text.numeral (m / 10 ^ width)) 0 = m / 10 ^ width :=
    Nat.ofDigitChars_ten_toDigits
  have small : m % 10 ^ width < 10 ^ width := Nat.mod_lt _ (by positivity)
  rw [Nat.ofDigitChars_append, digits, Nat.ofDigitChars_eq_ofDigitChars_zero,
    Text.length_padded pos small, Text.ofDigitChars_padded, Nat.div_add_mod]

/-- A decimal whose last place is not zero is written as an expansion of its number. -/
theorem exists_expansion {d : Decimal} (last : d.scale = 0 ∨ d.mantissa % 10 ≠ 0) :
    ∃ e : Text.Expansion, d.chars = e.chars ∧ d.toRat = e.toRat := by
  by_cases whole : d.scale = 0
  · refine ⟨⟨d.negative, Text.numeral d.mantissa, [], ?_, Text.numeral_canonical _, nofun⟩, ?_, ?_⟩
    · rw [List.append_nil]
      exact fun _ => Text.isDigit_of_mem_numeral
    · rw [chars_eq, magnitudeChars_of_scale_eq_zero whole]
      simp [Text.Expansion.chars]
    · have digits : Nat.ofDigitChars 10 (Text.numeral d.mantissa) 0 = d.mantissa :=
        Nat.ofDigitChars_ten_toDigits
      simp [Text.Expansion.toRat, toRat, whole, digits]
  · have pos : 0 < d.scale := Nat.pos_of_ne_zero whole
    have small : d.mantissa % 10 ^ d.scale < 10 ^ d.scale := Nat.mod_lt _ (by positivity)
    have length := Text.length_padded pos small
    have filled : Text.padded d.scale (d.mantissa % 10 ^ d.scale) ≠ [] := by
      rw [← List.length_pos_iff, length]
      exact pos
    refine ⟨⟨d.negative, Text.numeral (d.mantissa / 10 ^ d.scale),
      Text.padded d.scale (d.mantissa % 10 ^ d.scale), ?_, Text.numeral_canonical _, ?_⟩, ?_, ?_⟩
    · intro c hc
      rcases List.mem_append.mp hc with hc | hc
      · exact Text.isDigit_of_mem_numeral hc
      · exact Text.isDigit_of_mem_padded hc
    · have digit : d.mantissa % 10 ^ d.scale % 10 = d.mantissa % 10 :=
        Nat.mod_mod_of_dvd _ (dvd_pow_self 10 whole)
      rw [Text.getLast?_padded, digit]
      exact fun zero => Text.digitChar_ne_zero (Nat.mod_lt _ (by decide)) (last.resolve_left whole)
        (Option.some.inj zero)
    · rw [chars_eq, magnitudeChars_of_scale_ne_zero whole]
      simp [Text.Expansion.chars, filled]
    · simp [Text.Expansion.toRat, toRat, length, ofDigitChars_magnitude pos]

end Decimal

namespace Literal

/-- The number is `k / 10 ^ places`, and with fewer places it cannot be written. -/
structure HasDigits (v : ℚ) (k : Int) (places : Nat) : Prop where
  value : v = k / 10 ^ places
  fewest : ∀ fewer < places, ∀ j : Int, v ≠ j / 10 ^ fewer

theorem hasDigits_iff {v : ℚ} {k : Int} {places : Nat} :
    HasDigits v k places ↔ v = k / 10 ^ places ∧ (places = 0 ∨ k.natAbs % 10 ≠ 0) := by
  constructor
  · rintro ⟨value, fewest⟩
    refine ⟨value, ?_⟩
    rcases places with - | places
    · exact .inl rfl
    · refine .inr fun tens => ?_
      obtain ⟨j, rfl⟩ : (10 : Int) ∣ k := by omega
      apply fewest places (Nat.lt_succ_self places) j
      rw [value, pow_succ', Int.cast_mul, Int.cast_ofNat, mul_div_mul_left _ _ (by norm_num)]
  · rintro ⟨rfl, last⟩
    refine ⟨rfl, fun fewer less j same => ?_⟩
    obtain ⟨extra, rfl⟩ : ∃ extra, places = fewer + (extra + 1) := ⟨places - fewer - 1, by omega⟩
    rw [div_eq_div_iff (by positivity) (by positivity)] at same
    have same : k * 10 ^ fewer = j * 10 ^ (fewer + (extra + 1)) := by exact_mod_cast same
    have tens : k = j * 10 ^ extra * 10 := by
      apply Int.eq_of_mul_eq_mul_right (show (10 : Int) ^ fewer ≠ 0 by positivity)
      rw [same]
      ring
    omega

/-- What comes of a float with a short expansion. -/
def ConvertsDigits (x : Binary) (limit : Nat) (result : Except Refusal Literal) : Prop :=
  ∀ v k places, x.toRat? = some v → v ≠ 0 → HasDigits v k places → k.natAbs < limit →
    ∃ d : Decimal, result = .ok (.decimal d) ∧
      d.negative = decide (k < 0) ∧ d.mantissa = k.natAbs ∧ d.scale = places ∧
      ∃ e : Text.Expansion, (decimal d).text = String.ofList e.chars ∧ e.toRat = v

theorem ConvertsDigits.of_convertsBy {x : Binary} {named : Float} {limit : Nat}
    {result : Except Refusal Literal} (hlimit : limit ≤ 2 ^ 52)
    (converts : ConvertsBy limit x named result) : ConvertsDigits x limit result := by
  intro v k places hv filled digits small
  cases x with
  | nan | infinite => cases hv
  | finite negative significand exponent =>
      obtain ⟨value, last⟩ := hasDigits_iff.mp digits
      have magnitude : (significand : ℚ) * 2 ^ exponent = k.natAbs / 10 ^ places := by
        rw [← Binary.abs_of_toRat?_eq_some hv, value, abs_div, Nat.cast_natAbs, Int.cast_abs]
        simp
      have nonzero : k.natAbs ≠ 0 := by
        intro zero
        rw [value, Int.natAbs_eq_zero.mp zero, Int.cast_zero, zero_div] at filled
        exact filled rfl
      -- A mantissa of 52 bits has no room for more factors of five.
      have hplaces : places ≤ 28 := by
        by_contra many
        have few : 5 ^ places ≤ k.natAbs := Nat.le_of_dvd (Nat.pos_of_ne_zero nonzero)
          (Decimal.five_pow_dvd_of_digits last magnitude)
        have : 5 ^ 28 ≤ 5 ^ places := Nat.pow_le_pow_right (by decide) (by omega)
        omega
      have found := Decimal.ofBinary?_of_digits limit negative nonzero
        (by omega : k.natAbs < 2 ^ 96) hplaces (last.imp_right (⟨·, small⟩)) magnitude
      have sign : negative = decide (k < 0) := by
        have below : v < 0 ↔ k < 0 := by
          rw [value, div_lt_iff₀ (by positivity), zero_mul, Int.cast_lt_zero]
        rw [Binary.neg_of_toRat?_iff hv] at below
        have present : significand ≠ 0 := mt (Binary.eq_zero_of_toRat?_iff hv).mpr filled
        rw [Bool.eq_iff_iff, decide_eq_true_iff, ← below]
        exact (and_iff_left present).symm
      subst sign
      refine ⟨_, converts.ok (ofBinary?_eq_some_iff.mpr ⟨_, rfl, found, ?_⟩), rfl, rfl, rfl, ?_⟩
      · exact fun zero => absurd (beq_iff_eq.mp zero) nonzero
      · obtain ⟨e, text, number⟩ := Decimal.exists_expansion
          (d := ⟨decide (k < 0), k.natAbs, places, by omega, hplaces⟩) last
        refine ⟨e, ?_, ?_⟩
        · rw [Literal.text, chars_decimal nonzero, text]
        · rw [← number, ← Option.some.inj hv, Decimal.toRat, magnitude]

/-- A float with a short expansion has the decimal with its sign, its digits and its places, and
    that is written as the expansion. -/
theorem short_decimals_convert_exactly :
    (∀ x : Float, ConvertsDigits (Binary.ofFloat x) (2 ^ 52) (ofFloat x)) ∧
    ∀ x : Float32, ConvertsDigits (Binary.ofFloat32 x) (2 ^ 24) (ofFloat32 x) := by
  constructor
  · exact fun x => .of_convertsBy (Nat.le_refl _) (convertsBy_ofFloat x)
  · exact fun x => .of_convertsBy (by decide) (convertsBy_ofFloat32 x)

/-- The double `-1 / 256` has eight places, and the single `2 ^ -10` has ten. -/
theorem short_decimals_convert_exactly_of_eighths :
    (∃ d : Decimal, ofFloat (Float.ofBits 0xBF70000000000000) = .ok (.decimal d) ∧
      d.negative = true ∧ d.mantissa = 390625 ∧ d.scale = 8) ∧
    ∃ d : Decimal, ofFloat32 (Float32.ofBits 0x3A800000) = .ok (.decimal d) ∧
      d.negative = false ∧ d.mantissa = 9765625 ∧ d.scale = 10 := by
  have double : Binary.ofFloat (Float.ofBits 0xBF70000000000000) =
      .finite true (2 ^ 52) (-60) := by decide +kernel
  have single : Binary.ofFloat32 (Float32.ofBits 0x3A800000) =
      .finite false (2 ^ 23) (-33) := by decide +kernel
  have small : (Binary.ofFloat (Float.ofBits 0xBF70000000000000)).toRat? = some (-1 / 256) := by
    rw [double, Binary.toRat?]
    norm_num
  have tiny : (Binary.ofFloat32 (Float32.ofBits 0x3A800000)).toRat? = some (1 / 1024) := by
    rw [single, Binary.toRat?]
    norm_num
  obtain ⟨doubles, singles⟩ := short_decimals_convert_exactly
  obtain ⟨d, found, sign, mantissa, scale, -⟩ := doubles _ _ (-390625) 8 small (by norm_num)
    (hasDigits_iff.mpr ⟨by norm_num, by decide⟩) (by decide)
  obtain ⟨d', found', sign', mantissa', scale', -⟩ := singles _ _ 9765625 10 tiny (by norm_num)
    (hasDigits_iff.mpr ⟨by norm_num, by decide⟩) (by decide)
  exact ⟨⟨d, found, sign, mantissa, scale⟩, d', found', sign', mantissa', scale'⟩

end Literal

end Criteria
