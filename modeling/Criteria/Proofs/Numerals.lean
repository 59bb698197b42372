import Criteria.Decimal.Basic
import Criteria.Proofs.Parts

/-! # What a numeral shows

A number can be read back from its numeral: a whole number with its sign, a decimal with its
sign, its mantissa and its scale. Without a point a decimal looks like a whole number.
-/

namespace Criteria

open NatPower

namespace Text

theorem numeral_injective {m n : Nat} (h : numeral m = numeral n) : m = n :=
  calc m = Nat.ofDigitChars 10 (numeral m) 0 := Nat.ofDigitChars_ten_toDigits.symm
    _ = Nat.ofDigitChars 10 (numeral n) 0 := by rw [h]
    _ = n := Nat.ofDigitChars_ten_toDigits

theorem not_mem_numeral {c : Char} (h : c.isDigit = false) (n : Nat) : c ∉ numeral n := by
  intro hc
  rw [isDigit_of_mem_numeral hc] at h
  cases h

theorem signedNumeral_eq (n : Int) :
    signedNumeral n = (if n < 0 then ['-'] else []) ++ numeral n.natAbs := by
  cases n with
  | ofNat n => rfl
  | negSucc n => simp [signedNumeral, Int.natAbs_negSucc]

/-- A minus sign shows before a text that has none. -/
theorem sign_append_inj {p q : Prop} [Decidable p] [Decidable q] {a b : List Char}
    (ha : '-' ∉ a) (hb : '-' ∉ b)
    (h : (if p then ['-'] else []) ++ a = (if q then ['-'] else []) ++ b) : (p ↔ q) ∧ a = b := by
  by_cases hp : p <;> by_cases hq : q <;> simp only [hp, hq, if_true, if_false] at h
  · exact ⟨by simp [hp, hq], List.append_cancel_left h⟩
  · have signed : '-' :: a = b := h
    exact absurd (signed ▸ List.mem_cons_self) hb
  · have signed : a = '-' :: b := h
    exact absurd (signed ▸ List.mem_cons_self) ha
  · exact ⟨by simp [hp, hq], h⟩

theorem signedNumeral_injective {m n : Int} (h : signedNumeral m = signedNumeral n) : m = n := by
  have minus (k : Nat) : '-' ∉ numeral k := not_mem_numeral (by decide) k
  rw [signedNumeral_eq, signedNumeral_eq] at h
  obtain ⟨sign, magnitude⟩ := sign_append_inj (minus _) (minus _) h
  have := numeral_injective magnitude
  omega

theorem isDigit_of_mem_padded {width n : Nat} {c : Char} (h : c ∈ padded width n) :
    c.isDigit = true := by
  rcases List.mem_append.mp h with h | h
  · rw [(List.mem_replicate.mp h).2]
    decide
  · exact isDigit_of_mem_numeral h

theorem ofDigitChars_padded (width n : Nat) : Nat.ofDigitChars 10 (padded width n) 0 = n := by
  rw [padded, List.leftpad, Nat.ofDigitChars_append, Nat.ofDigitChars_replicate_zero, Nat.mul_zero]
  exact Nat.ofDigitChars_ten_toDigits

theorem length_padded {width n : Nat} (hwidth : 0 < width) (h : n < 10 ^ width) :
    (padded width n).length = width := by
  have short : (numeral n).length ≤ width := (Nat.length_toDigits_le_iff (by decide) hwidth).mpr h
  rw [padded, List.length_leftpad]
  omega

end Text

namespace Decimal

/-- The digits of a decimal, with the point and without the sign. -/
def magnitudeChars (d : Decimal) : List Char :=
  if d.scale = 0 then Text.numeral d.mantissa
  else Text.numeral (d.mantissa / 10 ^ d.scale) ++
    '.' :: Text.padded d.scale (d.mantissa % 10 ^ d.scale)

theorem chars_eq (d : Decimal) :
    d.chars = (if d.negative then ['-'] else []) ++ d.magnitudeChars := rfl

theorem magnitudeChars_of_scale_eq_zero {d : Decimal} (h : d.scale = 0) :
    d.magnitudeChars = Text.numeral d.mantissa := if_pos h

theorem magnitudeChars_of_scale_ne_zero {d : Decimal} (h : d.scale ≠ 0) :
    d.magnitudeChars = Text.numeral (d.mantissa / 10 ^ d.scale) ++
      '.' :: Text.padded d.scale (d.mantissa % 10 ^ d.scale) := if_neg h

theorem mem_magnitudeChars {d : Decimal} {c : Char} (h : c ∈ d.magnitudeChars) :
    c.isDigit = true ∨ c = '.' := by
  by_cases hscale : d.scale = 0
  · rw [magnitudeChars_of_scale_eq_zero hscale] at h
    exact .inl (Text.isDigit_of_mem_numeral h)
  · rw [magnitudeChars_of_scale_ne_zero hscale, List.mem_append, List.mem_cons] at h
    rcases h with h | rfl | h
    · exact .inl (Text.isDigit_of_mem_numeral h)
    · exact .inr rfl
    · exact .inl (Text.isDigit_of_mem_padded h)

theorem magnitudeChars_ne_nil (d : Decimal) : d.magnitudeChars ≠ [] := by
  by_cases hscale : d.scale = 0
  · rw [magnitudeChars_of_scale_eq_zero hscale]
    exact Text.numeral_ne_nil _
  · rw [magnitudeChars_of_scale_ne_zero hscale]
    simp

theorem mem_chars {d : Decimal} {c : Char} (h : c ∈ d.chars) :
    c.isDigit = true ∨ c = '-' ∨ c = '.' := by
  rw [chars_eq, List.mem_append] at h
  rcases h with h | h
  · split at h
    · exact .inr (.inl (List.mem_singleton.mp h))
    · cases h
  · exact (mem_magnitudeChars h).imp id .inr

theorem chars_ne_nil (d : Decimal) : d.chars ≠ [] := by
  rw [chars_eq]
  exact fun h => d.magnitudeChars_ne_nil (List.append_eq_nil_iff.mp h).2

theorem minus_not_mem_magnitudeChars (d : Decimal) : '-' ∉ d.magnitudeChars := by
  intro h
  exact absurd (mem_magnitudeChars h) (by decide)

theorem point_mem_magnitudeChars_iff {d : Decimal} : '.' ∈ d.magnitudeChars ↔ d.scale ≠ 0 := by
  constructor
  · intro h hscale
    rw [magnitudeChars_of_scale_eq_zero hscale] at h
    exact Text.not_mem_numeral (by decide) _ h
  · intro hscale
    rw [magnitudeChars_of_scale_ne_zero hscale]
    simp

/-- The places show the scale, and with it the whole part and the places give the mantissa. -/
theorem magnitudeChars_inj {a b : Decimal} (h : a.magnitudeChars = b.magnitudeChars) :
    a.mantissa = b.mantissa ∧ a.scale = b.scale := by
  have point : a.scale ≠ 0 ↔ b.scale ≠ 0 := by
    rw [← point_mem_magnitudeChars_iff, h, point_mem_magnitudeChars_iff]
  by_cases ha : a.scale = 0
  · have hb : b.scale = 0 := by omega
    rw [magnitudeChars_of_scale_eq_zero ha, magnitudeChars_of_scale_eq_zero hb] at h
    exact ⟨Text.numeral_injective h, by rw [ha, hb]⟩
  · have hb : b.scale ≠ 0 := point.mp ha
    rw [magnitudeChars_of_scale_ne_zero ha, magnitudeChars_of_scale_ne_zero hb] at h
    have pointless (n : Nat) : '.' ∉ Text.numeral n := Text.not_mem_numeral (by decide) n
    obtain ⟨whole, places⟩ := Text.eq_of_append_cons (pointless _) (pointless _) h
    have width (d : Decimal) (hd : d.scale ≠ 0) :
        (Text.padded d.scale (d.mantissa % 10 ^ d.scale)).length = d.scale :=
      Text.length_padded (Nat.pos_of_ne_zero hd) (Nat.mod_lt _ (Nat.pow_pos (by decide)))
    have scale : a.scale = b.scale := by rw [← width a ha, places, width b hb]
    have quotient := Text.numeral_injective whole
    have remainder := congrArg (Nat.ofDigitChars 10 · 0) places
    simp only [Text.ofDigitChars_padded] at remainder
    refine ⟨?_, scale⟩
    rw [← Nat.div_add_mod a.mantissa (10 ^ a.scale), quotient, remainder, scale, Nat.div_add_mod]

/-- A decimal shows all there is to it. -/
theorem chars_injective {a b : Decimal} (h : a.chars = b.chars) : a = b := by
  rw [chars_eq, chars_eq] at h
  obtain ⟨sign, magnitude⟩ := Text.sign_append_inj a.minus_not_mem_magnitudeChars
    b.minus_not_mem_magnitudeChars h
  obtain ⟨mantissa, scale⟩ := magnitudeChars_inj magnitude
  obtain ⟨negative, m, s⟩ := a
  obtain ⟨negative', m', s'⟩ := b
  obtain rfl : negative = negative' := Bool.eq_iff_iff.mpr sign
  subst mantissa scale
  rfl

/-- The mantissa with the sign. -/
def signed (d : Decimal) : Int :=
  if d.negative then -d.mantissa else d.mantissa

theorem chars_of_scale_eq_zero {d : Decimal} (hscale : d.scale = 0) (hfilled : d.mantissa ≠ 0) :
    d.chars = Text.signedNumeral d.signed := by
  rw [chars_eq, magnitudeChars_of_scale_eq_zero hscale, Text.signedNumeral_eq, signed]
  cases d.negative with
  | true =>
      have filled : 0 < d.mantissa := Nat.pos_of_ne_zero hfilled
      simp [filled]
  | false =>
      simp

/-- A text without a point is that of a decimal when the decimal has no places. -/
theorem chars_eq_iff_of_pointless {d : Decimal} (hfilled : d.mantissa ≠ 0) {text : List Char}
    (h : '.' ∉ text) : d.chars = text ↔ d.scale = 0 ∧ text = Text.signedNumeral d.signed := by
  constructor
  · rintro rfl
    have hscale : d.scale = 0 := Decidable.byContradiction fun hplaces =>
      h (List.mem_append_right _ (point_mem_magnitudeChars_iff.mpr hplaces))
    exact ⟨hscale, chars_of_scale_eq_zero hscale hfilled⟩
  · rintro ⟨hscale, rfl⟩
    exact chars_of_scale_eq_zero hscale hfilled

end Decimal

end Criteria
