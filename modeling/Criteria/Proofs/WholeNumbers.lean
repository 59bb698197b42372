import Criteria.Proofs.ShortDecimals

/-! # Whole numbers by any route

A whole number becomes an integer, a decimal or a string of digits, whichever conversion takes it.
Inside a rule it cannot be seen which: all of them are written as the number, or as a blank when
the number is zero.
-/

namespace Criteria

namespace Text

theorem ofList_signedNumeral (n : Int) : String.ofList (signedNumeral n) = toString n := by
  cases n with
  | ofNat n => exact Nat.repr_eq_ofList_toDigits.symm
  | negSucc n =>
      calc String.ofList ('-' :: numeral (n + 1))
          = "-" ++ String.ofList (numeral (n + 1)) := @String.ofList_append ['-'] (numeral (n + 1))
        _ = "-" ++ Nat.repr (n + 1) := by rw [numeral, Nat.repr_eq_ofList_toDigits]

end Text

namespace Decimal

theorem toRat_of_scale_eq_zero {d : Decimal} (h : d.scale = 0) : d.toRat = d.signed := by
  rw [toRat, signed, h]
  cases d.negative <;> simp

end Decimal

namespace Literal

variable {n : Int}

/-- Written as a whole number is, and empty only for zero. -/
structure Shows (n : Int) (l : Literal) : Prop where
  text_eq : l.text = if n = 0 then "\"\"" else toString n
  isEmpty_iff : l.isEmpty = true ↔ n = 0

theorem isEmpty_of_isBlank {l : Literal} (h : l.IsBlank) : l.isEmpty = true := by
  cases l with
  | null => rfl
  | boolean value =>
      obtain rfl : value = false := h
      rfl
  | integer value => exact beq_iff_eq.mpr h
  | decimal value => exact beq_iff_eq.mpr h
  | string value => rcases h with rfl | rfl <;> rfl
  | list values => cases h

theorem not_isEmpty_of_isNumber {l : Literal} (h : l.IsNumber) : l.isEmpty = false := by
  cases l with
  | null | boolean | list => cases h
  | integer value => exact beq_eq_false_iff_ne.mpr h
  | decimal value => exact beq_eq_false_iff_ne.mpr h
  | string value => simp [isEmpty, h.1, h.2.1]

theorem Shows.of_isBlank {l : Literal} (h : l.IsBlank) : Shows 0 l where
  text_eq := by
    rw [text, chars_of_isBlank h]
    rfl
  isEmpty_iff := by simp [isEmpty_of_isBlank h]

theorem Shows.of_isNumber {l : Literal} (h : l.IsNumber) (filled : n ≠ 0)
    (chars : l.chars = Text.signedNumeral n) : Shows n l where
  text_eq := by rw [text, chars, Text.ofList_signedNumeral, if_neg filled]
  isEmpty_iff := by simp [not_isEmpty_of_isNumber h, filled]

theorem shows_integer (k : Int64) : Shows k.toInt (.integer k) := by
  by_cases zero : k = 0
  · subst zero
    exact .of_isBlank rfl
  · exact .of_isNumber zero (fun h => zero (Int64.toInt_inj.mp h)) (chars_integer zero)

theorem shows_decimal {d : Decimal} (h : d.scale = 0) (value : d.toRat = n) :
    Shows n (.decimal d) := by
  rw [Decimal.toRat_of_scale_eq_zero h] at value
  obtain rfl : d.signed = n := by exact_mod_cast value
  by_cases zero : d.mantissa = 0
  · have signed : d.signed = 0 := by simp [Decimal.signed, zero]
    rw [signed]
    exact .of_isBlank zero
  · have filled : d.signed ≠ 0 := by
      rw [Decimal.signed]
      split <;> omega
    refine .of_isNumber zero filled ?_
    rw [chars_decimal zero, Decimal.chars_of_scale_eq_zero h zero]

theorem shows_digits (n : Nat) : Shows n (.string (toString n)) := by
  have toList : (toString n).toList = Text.numeral n := Nat.toList_repr
  rcases Nat.eq_zero_or_pos n with rfl | pos
  · exact .of_isBlank (.inr rfl)
  · have number : IsNumber (.string (toString n)) := by
      refine ⟨fun empty => ?_, fun zero => ?_, ?_⟩
      · rw [empty] at toList
        exact Text.numeral_ne_nil n toList.symm
      · rw [zero] at toList
        exact Text.head?_numeral_ne_zero pos (by rw [← toList]; rfl)
      · rw [toList, List.all_eq_true]
        exact fun _ => Text.isDigit_of_mem_numeral
    refine .of_isNumber number (by omega) ?_
    rw [chars_of_digits number, toList]
    rfl

theorem shows_ofUInt64 (x : UInt64) : Shows x.toNat (ofUInt64 x) := by
  rw [ofUInt64]
  split
  · have integer := shows_integer (Int64.ofNat x.toNat)
    rwa [Int64.toInt_ofNat_of_lt ‹_›] at integer
  · apply shows_decimal rfl
    simp [Decimal.toRat, Decimal.ofUInt64]

/-- A float that is a whole number loses nothing of it, however many digits that has. -/
theorem exists_ofBinary?_shows (limit : Nat) {x : Binary} (small : n.natAbs < 2 ^ 96)
    (h : x.toRat? = some (n : ℚ)) : ∃ l, ofBinary? limit x = some l ∧ Shows n l := by
  cases x with
  | nan | infinite => cases h
  | finite negative significand exponent =>
      by_cases zero : significand = 0
      · subst zero
        refine ⟨_, ofBinary?_eq_some_iff.mpr ⟨.zero negative, rfl, rfl, fun _ => rfl⟩,
          shows_decimal rfl ?_⟩
        rw [(Binary.eq_zero_of_toRat?_iff h).mpr rfl]
        simp [Decimal.toRat, Decimal.zero]
      · have magnitude : (significand : ℚ) * 2 ^ exponent = n.natAbs / 10 ^ 0 := by
          rw [← Binary.abs_of_toRat?_eq_some h, Nat.cast_natAbs, Int.cast_abs, pow_zero, div_one]
        have filled : n.natAbs ≠ 0 := by
          rw [ne_eq, Int.natAbs_eq_zero, ← @Int.cast_eq_zero ℚ, Binary.eq_zero_of_toRat?_iff h]
          exact zero
        have found := Decimal.ofBinary?_of_digits limit negative filled small
          (Nat.zero_le 28) (.inl rfl) magnitude
        refine ⟨_, ofBinary?_eq_some_iff.mpr ⟨_, rfl, found, ?_⟩, shows_decimal rfl ?_⟩
        · exact fun zero => absurd (beq_iff_eq.mp zero) filled
        · rw [← Option.some.inj h, Decimal.toRat, magnitude]

/-- The conversions that take a whole number as it is, with what comes of it. -/
inductive Route (n : Int) : Except Refusal Literal → Prop where
  | int8 (x : Int8) : x.toInt = n → Route n (.ok (toLiteral x))
  | int16 (x : Int16) : x.toInt = n → Route n (.ok (toLiteral x))
  | int32 (x : Int32) : x.toInt = n → Route n (.ok (toLiteral x))
  | int64 (x : Int64) : x.toInt = n → Route n (.ok (toLiteral x))
  | uint8 (x : UInt8) : x.toNat = n → Route n (.ok (toLiteral x))
  | uint16 (x : UInt16) : x.toNat = n → Route n (.ok (toLiteral x))
  | uint32 (x : UInt32) : x.toNat = n → Route n (.ok (toLiteral x))
  | uint64 (x : UInt64) : x.toNat = n → Route n (.ok (toLiteral x))
  | usize (x : USize) : x.toNat = n → Route n (.ok (toLiteral x))
  /-- A decimal without places. -/
  | decimal (d : Decimal) : d.scale = 0 → d.toRat = n → Route n (.ok (toLiteral d))
  /-- The digits of the number as people write it. -/
  | digits : 0 ≤ n → Route n (.ok (toLiteral (toString n)))
  | float (x : Float) : (Binary.ofFloat x).toRat? = some (n : ℚ) → Route n (ofFloat x)
  | float32 (x : Float32) : (Binary.ofFloat32 x).toRat? = some (n : ℚ) → Route n (ofFloat32 x)
  | jsonInteger (x : Int64) : x.toInt = n → Route n (ofJson (.integer x))
  | jsonNatural (x : UInt64) : x.toNat = n → Route n (ofJson (.natural x))
  | jsonFloat (x : Float) : (Binary.ofFloat x).toRat? = some (n : ℚ) → Route n (ofJson (.float x))

theorem exists_ofFloat_shows (small : n.natAbs < 2 ^ 96) (x : Float)
    (h : (Binary.ofFloat x).toRat? = some (n : ℚ)) : ∃ l, ofFloat x = .ok l ∧ Shows n l := by
  obtain ⟨l, hl, shows⟩ := exists_ofBinary?_shows Decimal.doubleLimit small h
  exact ⟨l, (convertsBy_ofFloat x).ok hl, shows⟩

theorem exists_ofFloat32_shows (small : n.natAbs < 2 ^ 96) (x : Float32)
    (h : (Binary.ofFloat32 x).toRat? = some (n : ℚ)) : ∃ l, ofFloat32 x = .ok l ∧ Shows n l := by
  obtain ⟨l, hl, shows⟩ := exists_ofBinary?_shows Decimal.singleLimit small h
  exact ⟨l, (convertsBy_ofFloat32 x).ok hl, shows⟩

/-- An unsigned number of fewer than 64 bits becomes an integer. -/
theorem shows_natural {k : Nat} (h : k < 2 ^ 63) : Shows k (.integer (Int64.ofNat k)) := by
  have integer := shows_integer (Int64.ofNat k)
  rwa [Int64.toInt_ofNat_of_lt h] at integer

theorem Route.shows {result : Except Refusal Literal} (route : Route n result)
    (small : n.natAbs < 2 ^ 96) : ∃ l, result = .ok l ∧ Shows n l := by
  cases route with
  | int8 x h => exact ⟨_, rfl, h ▸ x.toInt_toInt64 ▸ shows_integer x.toInt64⟩
  | int16 x h => exact ⟨_, rfl, h ▸ x.toInt_toInt64 ▸ shows_integer x.toInt64⟩
  | int32 x h => exact ⟨_, rfl, h ▸ x.toInt_toInt64 ▸ shows_integer x.toInt64⟩
  | int64 x h => exact ⟨_, rfl, h ▸ shows_integer x⟩
  | uint8 x h => exact ⟨_, rfl, h ▸ shows_natural (by have := x.toNat_lt; omega)⟩
  | uint16 x h => exact ⟨_, rfl, h ▸ shows_natural (by have := x.toNat_lt; omega)⟩
  | uint32 x h => exact ⟨_, rfl, h ▸ shows_natural (by have := x.toNat_lt; omega)⟩
  | uint64 x h => exact ⟨_, rfl, h ▸ shows_ofUInt64 x⟩
  | usize x h => exact ⟨_, rfl, h ▸ x.toNat_toUInt64 ▸ shows_ofUInt64 x.toUInt64⟩
  | decimal d scale value => exact ⟨_, rfl, shows_decimal scale value⟩
  | digits h =>
      obtain ⟨n, rfl⟩ := Int.eq_ofNat_of_zero_le h
      exact ⟨_, rfl, shows_digits n⟩
  | float x h => exact exists_ofFloat_shows small x h
  | float32 x h => exact exists_ofFloat32_shows small x h
  | jsonInteger x h => exact ⟨_, rfl, h ▸ shows_integer x⟩
  | jsonNatural x h => exact ⟨_, rfl, h ▸ shows_ofUInt64 x⟩
  | jsonFloat x h => exact exists_ofFloat_shows small x h

/-- Whatever conversion takes a whole number, the literal is written as that number, and it is a
    blank and empty only for zero. -/
theorem whole_numbers_agree (n : Int) (small : n.natAbs < 2 ^ 96) {result : Except Refusal Literal}
    (route : Route n result) :
    ∃ l, result = .ok l ∧ l.text = (if n = 0 then "\"\"" else toString n) ∧
      (l.isEmpty = true ↔ n = 0) := by
  obtain ⟨l, hl, shows⟩ := route.shows small
  exact ⟨l, hl, shows.text_eq, shows.isEmpty_iff⟩

/-- The first number beyond the signed range, unsigned and as a single, and the zero with a sign. -/
theorem whole_numbers_agree_of_limits :
    (∃ l, toLiteral (9223372036854775808 : UInt64) = l ∧ l.text = "9223372036854775808") ∧
    (∃ l, ofFloat32 (Float32.ofBits 0x5F000000) = .ok l ∧ l.text = "9223372036854775808") ∧
    ∃ l, ofJson (.float (Float.ofBits 0x8000000000000000)) = .ok l ∧ l.text = "\"\"" ∧
      l.isEmpty = true := by
  have single : Binary.ofFloat32 (Float32.ofBits 0x5F000000) = .finite false (2 ^ 23) 40 := by
    decide +kernel
  have zero : Binary.ofFloat (Float.ofBits 0x8000000000000000) = .finite true 0 (-1074) := by
    decide +kernel
  refine ⟨?_, ?_, ?_⟩
  · obtain ⟨l, hl, text, -⟩ := whole_numbers_agree (2 ^ 63) (by decide)
      (.uint64 9223372036854775808 (by decide))
    exact ⟨l, Except.ok.inj hl, text⟩
  · obtain ⟨l, hl, text, -⟩ := whole_numbers_agree (2 ^ 63) (by decide)
      (.float32 (Float32.ofBits 0x5F000000) (by rw [single, Binary.toRat?]; norm_num))
    exact ⟨l, hl, text⟩
  · obtain ⟨l, hl, text, empty⟩ := whole_numbers_agree 0 (by decide)
      (.jsonFloat (Float.ofBits 0x8000000000000000) (by rw [zero, Binary.toRat?]; norm_num))
    exact ⟨l, hl, text, empty.mpr rfl⟩

end Literal

end Criteria
