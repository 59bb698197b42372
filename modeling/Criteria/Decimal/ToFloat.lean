import Criteria.Binary.Basic
import Criteria.Decimal.Basic

/-! # Doubles from decimals

A decimal with places is the sum of its whole part and its fraction, rounded to as many places
as it has. The steps are floating-point operations, each rounded to the nearest double.
-/

namespace Criteria.Decimal

open NatPower

/-- The nearest whole number to a double that is not negative; a half goes up. -/
def nearestWhole (x : Float) : Float :=
  match Binary.ofFloat x with
  | .finite _ significand exponent => Float.ofNat (Binary.nearestWhole significand exponent)
  | _ => x

/-- Raise a base to a power by repeated squaring, onto the product so far. -/
def powerOnto (product base : Float) (n : Nat) : Float :=
  let product := if n % 2 = 1 then product * base else product
  if n / 2 = 0 then product else powerOnto product (base * base) (n / 2)
termination_by n
decreasing_by omega

def magnitude (d : Decimal) : Float :=
  if d.scale = 0 then Float.ofNat d.mantissa
  else
    let unit : Nat := 10 ^ d.scale
    let whole := Float.ofNat (d.mantissa / unit)
    let fraction := Float.ofNat (d.mantissa % unit) / Float.ofNat unit
    if fraction == 0.0 then whole
    else
      let shift := powerOnto 1.0 10.0 d.scale
      nearestWhole ((whole + fraction) * shift) / shift

/-- The double of a decimal. A zero keeps its sign only when it has places. -/
def toFloat (d : Decimal) : Float :=
  if d.negative && !(d.scale == 0 && d.isZero) then -d.magnitude else d.magnitude

end Criteria.Decimal
