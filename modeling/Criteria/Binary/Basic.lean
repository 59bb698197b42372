import Criteria.NatPower

/-! # Binary floating-point values

A finite floating-point number is a natural significand times a power of two. Reading a stored
word into that form makes conversions exact: they compute with whole numbers and never round
by accident.
-/

namespace Criteria

open NatPower

/-- The widths of the two stored fields of a floating-point format. -/
structure BinaryFormat where
  /-- Width of the fraction below the implicit leading bit. -/
  fractionBits : Nat
  /-- Width of the biased exponent. -/
  exponentBits : Nat

namespace BinaryFormat

def single : BinaryFormat := ⟨23, 8⟩

def double : BinaryFormat := ⟨52, 11⟩

/-- The weight of the implicit leading bit, counted in units of the last place. -/
def leadingBit (format : BinaryFormat) : Nat :=
  2 ^ format.fractionBits

/-- The power of two of the last place of subnormal numbers, the least there is. -/
def minExponent (format : BinaryFormat) : Int :=
  2 - 2 ^ (format.exponentBits - 1) - format.fractionBits

end BinaryFormat

inductive Binary where
  | nan
  | infinite (negative : Bool)
  /-- The number `significand * 2 ^ exponent`, with a sign that zero has too. -/
  | finite (negative : Bool) (significand : Nat) (exponent : Int)
  deriving DecidableEq, Repr

namespace Binary

/-- Read the sign, exponent and fraction fields of a word. The greatest exponent marks
    infinities and NaN; exponent zero marks numbers without the leading bit. -/
def ofBits (format : BinaryFormat) (bits : Nat) : Binary :=
  let fraction := bits % format.leadingBit
  let exponent := bits / format.leadingBit % 2 ^ format.exponentBits
  let negative := bits / format.leadingBit / 2 ^ format.exponentBits % 2 == 1
  if exponent = 2 ^ format.exponentBits - 1 then
    if fraction = 0 then .infinite negative else .nan
  else if exponent = 0 then
    .finite negative fraction format.minExponent
  else
    .finite negative (format.leadingBit + fraction) (format.minExponent + (exponent - 1 : Nat))

def ofFloat (x : Float) : Binary :=
  ofBits .double x.toBits.toNat

def ofFloat32 (x : Float32) : Binary :=
  ofBits .single x.toBits.toNat

def isZero : Binary → Bool
  | .finite _ significand _ => significand == 0
  | _ => false

/-- The whole number nearest to `significand * 2 ^ exponent`; a half goes up. -/
def nearestWhole (significand : Nat) : Int → Nat
  | .ofNat shift => significand * 2 ^ shift
  | .negSucc shift => (significand + 2 ^ shift) / 2 ^ (shift + 1)

end Binary

end Criteria
