import Criteria.Binary.Basic
import Criteria.Decimal.Basic

/-! # Decimals from binary floating-point numbers

The number `m * 2 ^ e` is carried to `m * 10 ^ -s` by trading each factor of two for factors of
five and ten while the mantissa has room, and halving it where it has none. Then the places
beyond the range of a decimal, those beyond the precision of the float, and trailing zeros go,
one digit at a time. Each step rounds on its own, which decides the last digit of some results.
-/

namespace Criteria.Decimal

open NatPower

structure Scaled where
  mantissa : Nat
  exponent : Int
  deriving DecidableEq, Repr

/-- Turn `count` halvings into powers of ten. One halving is a factor of five over ten; it is
    taken from the mantissa instead when that is even or has no room for the factor. -/
def tradeHalvings : (count : Nat) → Scaled → Scaled
  | 0, n => n
  | count + 1, ⟨m, e⟩ =>
    if m % 2 = 0 ∨ 2 ^ (96 : Nat) ≤ m * 5 then tradeHalvings count ⟨m / 2, e + 1⟩
    else tradeHalvings count ⟨m * 5, e⟩

/-- Turn `count` fifths, left over from powers of two, into powers of ten. While there is room
    the mantissa doubles and a power of ten goes. Without room it is divided by five, and the
    number is too large when twice the powers of ten that are left outnumber the fifths. -/
def tradeFifths : (count : Nat) → Scaled → Option Scaled
  | 0, n => some n
  | count + 1, ⟨m, e⟩ =>
    if m < 2 ^ (95 : Nat) then tradeFifths count ⟨m * 2, e - 1⟩
    else if (count + 1 : Nat) < e * 2 then none
    else tradeFifths count ⟨m / 5, e⟩

/-- Multiply by ten `count` times, if every product is a mantissa. -/
def appendZeros : (count : Nat) → (mantissa : Nat) → Option Nat
  | 0, m => some m
  | count + 1, m => if m * 10 < 2 ^ (96 : Nat) then appendZeros count (m * 10) else none

/-- Drop the last digit; a digit of five or more rounds the rest up. -/
def dropDigit (mantissa : Nat) : Nat :=
  mantissa / 10 + if 5 ≤ mantissa % 10 then 1 else 0

structure Placed where
  mantissa : Nat
  places : Nat
  deriving DecidableEq, Repr

/-- Drop `excess` places and keep `kept`. A mantissa that runs out of digits is zero, and its
    last digit does not round. -/
def dropExcess (kept : Nat) : (excess : Nat) → (mantissa : Nat) → Placed
  | 0, m => ⟨m, kept⟩
  | excess + 1, m => if m / 10 = 0 then ⟨0, 0⟩ else dropExcess kept excess (dropDigit m)

/-- Drop places while the mantissa is at or above the limit. -/
def dropImprecise (limit : Nat) : (places : Nat) → (mantissa : Nat) → Placed
  | 0, m => ⟨m, 0⟩
  | places + 1, m =>
    if limit ≤ m then dropImprecise limit places (dropDigit m) else ⟨m, places + 1⟩

def dropZeros : (places : Nat) → (mantissa : Nat) → Placed
  | 0, m => ⟨m, 0⟩
  | places + 1, m => if m % 10 = 0 then dropZeros places (m / 10) else ⟨m, places + 1⟩

/-- The number `m * 2 ^ e` as a mantissa with a power of ten. -/
def scaledOfBinary? (significand : Nat) : (exponent : Int) → Option Scaled
  | .ofNat e => tradeFifths e ⟨significand, e⟩
  | .negSucc e => some (tradeHalvings (e + 1) ⟨significand, .negSucc e⟩)

/-- Bring a scaled mantissa into the range and precision of a decimal. -/
def placedOfScaled? (limit : Nat) : Scaled → Option Placed
  | ⟨m, .ofNat e⟩ => (appendZeros e m).map (⟨·, 0⟩)
  | ⟨m, .negSucc e⟩ =>
    let places := e + 1
    let inRange := dropExcess (min places 28) (places - 28) m
    let precise := dropImprecise limit inRange.places inRange.mantissa
    some (dropZeros precise.places precise.mantissa)

/-- The decimal of a finite floating-point number that is not too large. Mantissas at or above
    `limit` lose places. The result may be zero for a number that is not. -/
def ofBinary? (limit : Nat) : Binary → Option Decimal
  | .nan => none
  | .infinite _ => none
  | .finite negative significand exponent =>
    if significand = 0 then some (zero negative)
    else do
      let scaled ← scaledOfBinary? significand exponent
      let placed ← placedOfScaled? limit scaled
      ofParts? negative placed.mantissa placed.places

/-- A double has 52 stored bits, and its decimal keeps places below that many. -/
def doubleLimit : Nat := 2 ^ (52 : Nat)

/-- A single-precision number has 24 significant bits, and its decimal keeps places below that
    many. -/
def singleLimit : Nat := 2 ^ (24 : Nat)

end Criteria.Decimal
