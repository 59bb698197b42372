import Criteria.Proofs.JsonReading
import Criteria.Proofs.Scientific
import Criteria.Proofs.ShortestDigits

/-! # Reading back large floats

The JSON text of a large float has an exponent. Its digits are read together with the exponent as
the number that was written, and that number is rounded to the float again.
-/

namespace Criteria.Json

open Binary

variable {d : Char} {fraction : List Char}

theorem isWholePart_singleton (d : Char) : isWholePart [d] = true := by
  by_cases h : d = '0' <;> simp [isWholePart, h]

theorem exponent?_numeral (n : Nat) :
    exponent? ('e' :: '+' :: Text.numeral n) = some (n : Int) := by
  have digits : (Text.numeral n).all Char.isDigit = true :=
    List.all_eq_true.mpr fun _ => Text.isDigit_of_mem_numeral
  have value : Nat.ofDigitChars 10 (Text.numeral n) 0 = n := Nat.ofDigitChars_ten_toDigits
  simp [exponent?, exponentDigits?, digits, value, Text.numeral_ne_nil]

theorem span_digits {digits rest : List Char} {stop : Char} (h : ∀ c ∈ digits, c.isDigit)
    (hstop : stop.isDigit = false) :
    (digits ++ stop :: rest).span Char.isDigit = (digits, stop :: rest) := by
  rw [List.span_eq_takeWhile_dropWhile, List.takeWhile_append_of_pos h,
    List.dropWhile_append_of_pos h]
  simp [hstop]

theorem number?_cons (hd : d.isDigit) (rest : List Char) :
    number? (d :: rest) = magnitude? false (d :: rest) := by
  unfold number?
  split
  · rename_i h
    cases h
    cases hd
  · rfl

/-- Digits with an exponent are read as a float. -/
theorem word?_scientificChars (hd : d.isDigit) (hfraction : ∀ c ∈ fraction, c.isDigit) (n : Nat) :
    word? (scientificChars true (d :: fraction) n) =
      float? false (Nat.ofDigitChars 10 (d :: fraction) 0) (n - fraction.length) := by
  have first : ∀ c ∈ [d], c.isDigit := by simpa using hd
  rw [word?_eq_number? (c := d) (by simp [scientificChars]) hd]
  cases fraction with
  | nil =>
      have text : scientificChars true [d] n = [d] ++ 'e' :: '+' :: Text.numeral n := rfl
      rw [text, List.singleton_append, number?_cons hd, ← List.singleton_append, magnitude?,
        span_digits first rfl]
      simp [isWholePart_singleton, places?, exponent?_numeral]
  | cons p places =>
      have text : scientificChars true (d :: p :: places) n =
          [d] ++ '.' :: (p :: places ++ 'e' :: '+' :: Text.numeral n) := by
        have unsigned : Text.signedNumeral (n : Int) = Text.numeral n := rfl
        simp [scientificChars, unsigned]
      rw [text, List.singleton_append, number?_cons hd, ← List.singleton_append, magnitude?,
        span_digits first rfl]
      have behind : (p :: places ++ 'e' :: '+' :: Text.numeral n).span Char.isDigit =
          (p :: places, 'e' :: '+' :: Text.numeral n) := span_digits hfraction rfl
      simp only [places?, behind]
      simp [isWholePart_singleton, exponent?_numeral]

variable {x : Float} {significand shift : Nat}

theorem isInf_packed {exponent : Int} (normal : IsNormal significand exponent) :
    (packed normal).isInf = false := by
  change (packed normal).toModel.unpack.isInf = false
  rw [unpack_packed]
  rfl

/-- The digits of a large double and its exponent together have more than sixteen places. -/
theorem lt_places (normal : IsNormal significand shift) (large : 10 ^ 17 ≤ significand * 2 ^ shift)
    {c power : Nat} (rounds : RoundsTo significand shift (c * 10 ^ power)) :
    16 < power + (Text.numeral c).length := by
  have half : 10 ^ 17 ≤ 2 * (c * 10 ^ power) := by
    have quarters : (2 * significand : ℚ) ≤ lowEnd significand := by
      exact_mod_cast le_lowEnd normal.pos
    have large : (10 : ℚ) ^ 17 ≤ significand * 2 ^ shift := by exact_mod_cast large
    have : (10 : ℚ) ^ 17 ≤ 2 * (c * 10 ^ power) := by
      calc (10 : ℚ) ^ 17 ≤ significand * 2 ^ shift := large
        _ = 2 * (2 * significand * 2 ^ ((shift : Int) - 2)) := by
          rw [zpow_sub₀ (by norm_num), zpow_natCast]
          norm_num
          ring
        _ ≤ 2 * (lowEnd significand * 2 ^ ((shift : Int) - 2)) := by gcongr
        _ ≤ 2 * (c * 10 ^ power) := by
          apply mul_le_mul_of_nonneg_left rounds.low
          norm_num
    exact_mod_cast this
  have digits : c < 10 ^ (Text.numeral c).length := lt_ten_pow c
  have places : 10 ^ 16 < 10 ^ (power + (Text.numeral c).length) := by
    calc 10 ^ 16 < c * 10 ^ power := by omega
      _ < 10 ^ (Text.numeral c).length * 10 ^ power := by gcongr
      _ = 10 ^ (power + (Text.numeral c).length) := by rw [← pow_add, Nat.add_comm]
  exact (Nat.pow_lt_pow_iff_right (by decide)).mp places

theorem floatChars_eq (normal : IsNormal significand shift)
    (large : 10 ^ 17 ≤ significand * 2 ^ shift) (hx : ofFloat x = .finite false significand shift) :
    ∃ c power n : Nat, RoundsTo significand shift (c * 10 ^ power) ∧
      n + 1 = power + (Text.numeral c).length ∧
      floatChars x = scientificChars true (Text.numeral c) n := by
  obtain ⟨c, power, hshortest, rounds⟩ := exists_shortest_whole normal large
  have many := lt_places normal large rounds
  obtain ⟨n, hn⟩ : ∃ n, power + (Text.numeral c).length = n + 1 :=
    Nat.exists_eq_add_one.mpr (by omega)
  have first : (power + (Text.numeral c).length - 1 : Int) = n := by omega
  have exponential : ¬ (n : Int) ≤ 15 := by omega
  refine ⟨c, power, n, rounds, hn.symm, ?_⟩
  rw [floatChars, hx]
  simp [Binary.chars, hshortest, Layout.unsignedChars, Layout.json, first, exponential]

theorem coefficient_pos (normal : IsNormal significand shift) {c power : Nat}
    (rounds : RoundsTo significand shift (c * 10 ^ power)) : 0 < c := by
  apply Nat.pos_of_ne_zero
  rintro rfl
  have filled : 0 < lowEnd significand :=
    Nat.lt_of_lt_of_le (Nat.mul_pos (by decide) normal.pos) (le_lowEnd normal.pos)
  have positive : (0 : ℚ) < lowEnd significand * 2 ^ ((shift : Int) - 2) := by positivity
  have := rounds.low
  simp at this
  linarith

theorem power_le (normal : IsNormal significand shift) {c power : Nat}
    (rounds : RoundsTo significand shift (c * 10 ^ power)) : power ≤ 2 ^ 11 := by
  have one : (1 : ℚ) ≤ c := by exact_mod_cast coefficient_pos normal rounds
  have wide : (highEnd significand : ℚ) ≤ 2 ^ 55 := by exact_mod_cast (highEnd_lt normal).le
  have small : (2 : ℚ) ^ power ≤ 2 ^ 1024 := by
    calc (2 : ℚ) ^ power ≤ 10 ^ power := by gcongr; norm_num
      _ ≤ c * 10 ^ power := le_mul_of_one_le_left (by positivity) one
      _ ≤ highEnd significand * 2 ^ ((shift : Int) - 2) := rounds.high
      _ ≤ 2 ^ 55 * 2 ^ (969 : Int) := by
        gcongr
        · norm_num
        · have := normal.exponent_le
          omega
      _ = 2 ^ 1024 := by rw [← zpow_natCast, ← zpow_add₀ (by norm_num), ← zpow_natCast]; rfl
  have := (pow_le_pow_iff_right₀ (by norm_num)).mp small
  omega

/-- A large float is read back from its text. -/
theorem word?_floatChars (normal : IsNormal significand shift)
    (large : 10 ^ 17 ≤ significand * 2 ^ shift) (hx : ofFloat x = .finite false significand shift) :
    word? (floatChars x) = some (.float x) := by
  obtain ⟨c, power, n, rounds, hn, text⟩ := floatChars_eq normal large hx
  have digits : ∀ d ∈ Text.numeral c, d.isDigit := fun _ => Text.isDigit_of_mem_numeral
  have value : Nat.ofDigitChars 10 (Text.numeral c) 0 = c := Nat.ofDigitChars_ten_toDigits
  have filled : Text.numeral c ≠ [] := Text.numeral_ne_nil c
  have read : Float.ofScientific c false power = packed normal :=
    ofScientific_eq (coefficient_pos normal rounds) (power_le normal rounds) normal (by omega)
      rounds
  rw [text]
  generalize Text.numeral c = letters at *
  cases letters with
  | nil => exact absurd rfl filled
  | cons d fraction =>
      obtain ⟨hd, hfraction⟩ := List.forall_mem_cons.mp digits
      have exponent : (n : Int) - fraction.length = power := by
        simp at hn
        omega
      have whole : decide ((power : Int) < 0) = false := by simp
      rw [word?_scientificChars hd hfraction, value, exponent, float?]
      simp [whole, read, isInf_packed, eq_packed normal hx]

theorem not_isDelimiter_of_mem_floatChars (normal : IsNormal significand shift)
    (large : 10 ^ 17 ≤ significand * 2 ^ shift) (hx : ofFloat x = .finite false significand shift)
    {c : Char} (hc : c ∈ floatChars x) : isDelimiter c = false := by
  obtain ⟨m, power, n, -, -, text⟩ := floatChars_eq normal large hx
  have unsigned : Text.signedNumeral (n : Int) = Text.numeral n := rfl
  have member : c ∈ Text.numeral m ∨ c ∈ Text.numeral n ∨ c = '.' ∨ c = 'e' ∨ c = '+' := by
    have start : c ∈ (Text.numeral m).take 1 → c ∈ Text.numeral m := List.mem_of_mem_take
    have rest : c ∈ (Text.numeral m).tail → c ∈ Text.numeral m := List.mem_of_mem_tail
    rw [text] at hc
    simp [scientificChars, unsigned] at hc
    tauto
  rcases member with digit | digit | rfl | rfl | rfl
  · exact not_isDelimiter_of_mem_numeral digit
  · exact not_isDelimiter_of_mem_numeral digit
  · rfl
  · rfl
  · rfl

theorem isReadable (normal : IsNormal significand shift)
    (large : 10 ^ 17 ≤ significand * 2 ^ shift) (hx : ofFloat x = .finite false significand shift) :
    IsReadable x :=
  ⟨word?_floatChars normal large hx, fun _ => not_isDelimiter_of_mem_floatChars normal large hx⟩

end Criteria.Json
