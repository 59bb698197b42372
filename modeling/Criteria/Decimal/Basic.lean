import Criteria.NatPower
import Criteria.Text.Numeral

/-! # Decimal numbers

A decimal keeps the form it was written in: `1.50` and `1.5` are different decimals of the same
value, and zero has a sign. Equality of values is therefore a relation of its own.
-/

namespace Criteria

open NatPower

/-- The number `mantissa / 10 ^ scale`, negated when `negative` is set. -/
structure Decimal where
  negative : Bool
  mantissa : Nat
  scale : Nat
  mantissa_lt : mantissa < 2 ^ (96 : Nat) := by omega
  scale_le : scale ≤ 28 := by omega
  deriving DecidableEq, Repr

namespace Decimal

/-- The decimal with these parts, if they are in range. -/
def ofParts? (negative : Bool) (mantissa scale : Nat) : Option Decimal :=
  if h : mantissa < 2 ^ (96 : Nat) ∧ scale ≤ 28 then some ⟨negative, mantissa, scale, h.1, h.2⟩ else none

def zero (negative : Bool) : Decimal :=
  ⟨negative, 0, 0, by decide, by decide⟩

/-- A whole number of at most 64 bits, with no places after the point. -/
def ofUInt64 (n : UInt64) : Decimal :=
  ⟨false, n.toNat, 0, Nat.lt_trans n.toNat_lt (by decide), by decide⟩

def isZero (d : Decimal) : Bool :=
  d.mantissa == 0

/-- Whether two decimals denote the same number, whatever their scales. Zeros agree whatever
    their signs. -/
def sameValue (a b : Decimal) : Bool :=
  a.mantissa * 10 ^ b.scale == b.mantissa * 10 ^ a.scale &&
    (a.negative == b.negative || a.mantissa == 0)

/-- The written form: a minus sign even before zero, and exactly `scale` places, trailing zeros
    included. There is no point when there are no places. -/
def chars (d : Decimal) : List Char :=
  (if d.negative then ['-'] else []) ++
    if d.scale = 0 then Text.numeral d.mantissa
    else Text.numeral (d.mantissa / 10 ^ d.scale) ++
      '.' :: Text.padded d.scale (d.mantissa % 10 ^ d.scale)

def text (d : Decimal) : String :=
  String.ofList d.chars

end Decimal

end Criteria
