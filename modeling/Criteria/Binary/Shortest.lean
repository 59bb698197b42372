import Criteria.Binary.Basic

/-! # Shortest decimal digits

The decimal text of a double has as few digits as still read back as the same double, and of
the decimals with that many digits it is the nearest. Every comparison is between natural
numbers: the double and the ends of the interval that rounds to it are counted in quarters of
its last place, and both sides are brought to one denominator.
-/

namespace Criteria.Binary

open NatPower

/-- A decimal number: `coefficient * 10 ^ exponent`. -/
structure Scientific where
  coefficient : Nat
  exponent : Int
  deriving DecidableEq, Repr

def digitCount (n : Nat) : Nat :=
  (Nat.toDigits 10 n).length

/-- The decimal exponent of the first digit of a positive `significand * 2 ^ exponent`. -/
def firstDigitExponent (significand : Nat) (exponent : Int) : Int :=
  let numerator := significand * 2 ^ exponent.toNat
  let denominator : Nat := 2 ^ (-exponent).toNat
  if denominator ≤ numerator then
    (digitCount (numerator / denominator) : Int) - 1
  else
    -(digitCount ((denominator - 1) / numerator) : Int)

/-- A double beside the multiples of one power of ten. Candidate `c` stands for
    `c * step`, and a quarter of the last place of the double for `quarter`. -/
structure Grid where
  /-- The power of ten between neighbouring candidates. -/
  exponent : Int
  quarter : Nat
  step : Nat

/-- The grid on which `significand * 2 ^ exponent` has `digits` digits. -/
def Grid.ofDigits (significand : Nat) (exponent : Int) (digits : Nat) : Grid :=
  let spacing := firstDigitExponent significand exponent - digits + 1
  let power := exponent - 2
  { exponent := spacing
    quarter := 2 ^ power.toNat * 10 ^ (-spacing).toNat
    step := 10 ^ spacing.toNat * 2 ^ (-power).toNat }

/-- Whether candidate `c` reads back as the double. The interval ends half a last place away,
    a quarter below a power of two, and its ends belong to it when the significand is even. -/
def Grid.readsBack (grid : Grid) (significand : Nat) (exponent : Int) (c : Nat) : Bool :=
  let narrow := significand == BinaryFormat.double.leadingBit
    && BinaryFormat.double.minExponent < exponent
  let low := (4 * significand - if narrow then 1 else 2) * grid.quarter
  let high := (4 * significand + 2) * grid.quarter
  if significand % 2 = 0 then low ≤ c * grid.step && c * grid.step ≤ high
  else low < c * grid.step && c * grid.step < high

def Grid.below (grid : Grid) (significand : Nat) : Nat :=
  4 * significand * grid.quarter / grid.step

/-- The nearer of the two candidates around the double; a tie goes to the even one. -/
def Grid.nearest (grid : Grid) (significand : Nat) : Nat :=
  let below := grid.below significand
  let twice := 8 * significand * grid.quarter
  let middle := (2 * below + 1) * grid.step
  if twice < middle then below
  else if middle < twice then below + 1
  else if below % 2 = 0 then below else below + 1

/-- The candidate of a grid that reads back as the double, if there is one. -/
def Grid.candidate? (grid : Grid) (significand : Nat) (exponent : Int) : Option Nat :=
  let below := grid.below significand
  match grid.readsBack significand exponent below,
      grid.readsBack significand exponent (below + 1) with
  | true, true => some (grid.nearest significand)
  | true, false => some below
  | false, true => some (below + 1)
  | false, false => none

/-- Move trailing zeros of the coefficient into the exponent. -/
def Scientific.trimmed (coefficient : Nat) (exponent : Int) : Scientific :=
  if coefficient ≠ 0 ∧ coefficient % 10 = 0 then trimmed (coefficient / 10) (exponent + 1)
  else ⟨coefficient, exponent⟩
termination_by coefficient
decreasing_by omega

/-- The shortest decimal that reads back as the double `significand * 2 ^ exponent`. Up to
    sixteen digits are tried; the nearest with seventeen always reads back. -/
def shortest (significand : Nat) (exponent : Int) : Scientific :=
  if significand = 0 then ⟨0, 0⟩
  else
    let attempt (digits : Nat) : Option Scientific :=
      let grid := Grid.ofDigits significand exponent digits
      (grid.candidate? significand exponent).map (Scientific.trimmed · grid.exponent)
    let full := Grid.ofDigits significand exponent 17
    ((List.range 16).findSome? fun i => attempt (i + 1)).getD
      (.trimmed (full.nearest significand) full.exponent)

end Criteria.Binary
