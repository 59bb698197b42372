import Criteria.Binary.Basic
import Mathlib

/-! # Normal doubles

The fields of a stored word determine a double, and the double whose significand has all its bits
is the one that is packed from them.
-/

namespace Criteria.Binary

open Float.Model Float.Model.UnpackedFloat

/-- A significand with the leading bit, and an exponent in the range of a double. -/
structure IsNormal (significand : Nat) (exponent : Int) : Prop where
  le_significand : 2 ^ 52 ≤ significand
  significand_lt : significand < 2 ^ 53
  le_exponent : -1074 ≤ exponent
  exponent_le : exponent ≤ 971

variable {x y : Float} {significand : Nat} {exponent : Int}

theorem IsNormal.pos (h : IsNormal significand exponent) : 0 < significand :=
  Nat.lt_of_lt_of_le (by decide) h.le_significand

theorem IsNormal.log2_eq (h : IsNormal significand exponent) : significand.log2 = 52 :=
  (Nat.log2_eq_iff h.pos.ne').mpr ⟨h.le_significand, h.significand_lt⟩

/-- The word of a normal double above zero. -/
theorem ofBits_double_eq_iff (normal : IsNormal significand exponent) {bits : Nat}
    (width : bits < 2 ^ 64) :
    ofBits .double bits = .finite false significand exponent ↔
      (bits : Int) = (exponent + 1075) * 2 ^ 52 + (significand - 2 ^ 52) := by
  obtain ⟨filled, small, least, most⟩ := normal
  have leading : BinaryFormat.double.leadingBit = 2 ^ 52 := rfl
  have fields : 2 ^ BinaryFormat.double.exponentBits = 2 ^ 11 := rfl
  have exponents : BinaryFormat.double.minExponent = -1074 := rfl
  rw [ofBits]
  simp only [leading, fields, exponents]
  split
  · split <;> simp <;> omega
  split
  · simp; omega
  · simp; omega

theorem ofFloat_eq_iff (normal : IsNormal significand exponent) :
    ofFloat x = .finite false significand exponent ↔
      (x.toBits.toNat : Int) = (exponent + 1075) * 2 ^ 52 + (significand - 2 ^ 52) :=
  ofBits_double_eq_iff normal x.toBits.toNat_lt

theorem eq_of_ofFloat_eq (normal : IsNormal significand exponent)
    (hx : ofFloat x = .finite false significand exponent)
    (hy : ofFloat y = .finite false significand exponent) : x = y := by
  have bits : x.toBits.toNat = y.toBits.toNat := by
    rw [ofFloat_eq_iff normal] at hx hy
    omega
  obtain ⟨⟨xbits, _⟩⟩ := x
  obtain ⟨⟨ybits, _⟩⟩ := y
  obtain rfl : xbits = ybits := UInt64.toNat_inj.mp bits
  rfl

theorem toNat_packComponents (exponent : BitVec 11) (significand : BitVec 52) :
    (packComponents .binary64 .positive exponent significand).toNat =
      exponent.toNat * 2 ^ 52 + significand.toNat := by
  rw [packComponents, BitVec.toNat_append, ← Nat.shiftLeft_add_eq_or_of_lt significand.isLt,
    BitVec.toNat_append, ← Nat.shiftLeft_add_eq_or_of_lt exponent.isLt]
  simp [Sign.toBitVec, Nat.shiftLeft_eq]

/-- The double of a significand and an exponent. -/
def packed (normal : IsNormal significand exponent) : Float :=
  .ofModel (.pack (.finite .positive significand exponent normal.pos))

theorem pack_eq (normal : IsNormal significand exponent) :
    UnpackedFloat.pack .binary64 (.finite .positive significand exponent normal.pos) =
      packComponents .binary64 .positive (BitVec.ofNat 11 (exponent + 1075).toNat)
        (BitVec.ofNat 52 significand) := by
  have biased : (exponent + 1023 + 52).toNat = (exponent + 1075).toNat := by omega
  have finite : ¬ 2 ^ 11 ≤ (exponent + 1075).toNat + 1 := by
    have := normal.exponent_le
    omega
  change (if 2 ^ 11 ≤ (exponent + 1023 + 52).toNat + 1 then _
    else if significand.log2 + 1 = 53 then
      packComponents .binary64 .positive (BitVec.ofNat 11 (exponent + 1023 + 52).toNat)
        (BitVec.ofNat 52 significand)
    else _) = _
  rw [biased, if_neg finite, if_pos (by rw [normal.log2_eq])]

theorem ofFloat_packed (normal : IsNormal significand exponent) :
    ofFloat (packed normal) = .finite false significand exponent := by
  have bits : (packed normal).toBits.toNat =
      (packComponents .binary64 .positive (BitVec.ofNat 11 (exponent + 1075).toNat)
        (BitVec.ofNat 52 significand)).toNat := by
    rw [← pack_eq normal]
    rfl
  obtain ⟨filled, small, least, most⟩ := normal
  rw [ofFloat_eq_iff ⟨filled, small, least, most⟩, bits, toNat_packComponents]
  simp only [BitVec.toNat_ofNat]
  omega

theorem eq_packed (normal : IsNormal significand exponent)
    (h : ofFloat x = .finite false significand exponent) : x = packed normal :=
  eq_of_ofFloat_eq normal h (ofFloat_packed normal)

theorem unpackSign_packComponents (exponent : BitVec 11) (significand : BitVec 52) :
    unpackSign (packComponents .binary64 .positive exponent significand) = 0#1 := by
  have small := exponent.isLt
  have small' := significand.isLt
  apply BitVec.eq_of_toNat_eq
  simp only [unpackSign, BitVec.toNat_cast, BitVec.extractLsb_toNat, toNat_packComponents]
  rw [Nat.shiftRight_eq_div_pow, Nat.div_eq_of_lt (by omega)]
  rfl

theorem unpack_packed (normal : IsNormal significand exponent) :
    (packed normal).toModel.unpack = .finite .positive significand exponent normal.pos := by
  have bits : (packed normal).toModel.toBits.toBitVec =
      packComponents .binary64 .positive (BitVec.ofNat 11 (exponent + 1075).toNat)
        (BitVec.ofNat 52 significand) := pack_eq normal
  obtain ⟨filled, small, least, most⟩ := normal
  have field : (BitVec.ofNat 11 (exponent + 1075).toNat).toNat = (exponent + 1075).toNat := by
    rw [BitVec.toNat_ofNat]
    omega
  have fraction : (1#1 ++ BitVec.ofNat 52 significand).toNat = significand := by
    rw [BitVec.toNat_append, ← Nat.shiftLeft_add_eq_or_of_lt (BitVec.isLt _), BitVec.toNat_ofNat]
    simp only [Nat.shiftLeft_eq, BitVec.toNat_ofNat]
    omega
  have finite : BitVec.ofNat 11 (exponent + 1075).toNat ≠ -1#_ := by
    intro h
    rw [h] at field
    change 2047 = _ at field
    omega
  have full : BitVec.ofNat 11 (exponent + 1075).toNat ≠ 0#_ := by
    intro h
    rw [h] at field
    change 0 = _ at field
    omega
  rw [Float.Model.unpack, bits]
  simp only [UnpackedFloat.unpack, unpackExponent_packComponents, unpackMantissa_packComponents,
    unpackSign_packComponents, if_neg finite, if_neg full, field, fraction]
  congr 1
  simp [Format.exponentBias]
  omega

end Criteria.Binary
