import Criteria.Binary.Shortest
import Criteria.Text.Numeral

/-! # Layout of float texts

Where the point stands and how an exponent is written. The digits themselves are always the
shortest ones.
-/

namespace Criteria.Binary

open Text

structure Layout where
  /-- Whether a number whose first digit has this exponent is written without an exponent. -/
  positional : Int → Bool
  /-- Whether an exponent that is not negative carries a plus sign. -/
  plusSign : Bool

/-- One digit before the point always, and a bare exponent: `1e30`, `-2.5e-29`. -/
def Layout.scientific : Layout := ⟨fun _ => false, false⟩

/-- The layout of JSON numbers: positional from `0.00001` to `1000000000000000.0`, and with a
    signed exponent outside. -/
def Layout.json : Layout := ⟨fun first => -5 ≤ first && first ≤ 15, true⟩

/-- Digits around a point, with at least one digit on each side of it. -/
def positionalChars (digits : List Char) : Int → List Char
  | .ofNat first =>
    let fraction := digits.drop (first + 1)
    (digits.take (first + 1)).rightpad (first + 1) '0' ++
      '.' :: if fraction.isEmpty then ['0'] else fraction
  | .negSucc zeros => '0' :: '.' :: List.replicate zeros '0' ++ digits

/-- One digit, the others after a point, and the exponent of the first digit. -/
def scientificChars (plusSign : Bool) (digits : List Char) (first : Int) : List Char :=
  let fraction := digits.drop 1
  digits.take 1 ++ (if fraction.isEmpty then [] else '.' :: fraction) ++
    'e' :: (if plusSign && 0 ≤ first then ['+'] else []) ++ signedNumeral first

def Layout.unsignedChars (layout : Layout) (number : Scientific) : List Char :=
  let digits := numeral number.coefficient
  let first := number.exponent + digits.length - 1
  if layout.positional first then positionalChars digits first
  else scientificChars layout.plusSign digits first

/-- The text of a floating-point value under a layout. A NaN has no sign. -/
def chars (layout : Layout) : Binary → List Char
  | .nan => ['N', 'a', 'N']
  | .infinite negative => (if negative then ['-'] else []) ++ ['i', 'n', 'f']
  | .finite negative significand exponent =>
    (if negative then ['-'] else []) ++ layout.unsignedChars (shortest significand exponent)

end Criteria.Binary
