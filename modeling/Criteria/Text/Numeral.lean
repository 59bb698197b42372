/-! # Base-ten numerals

The canonical numeral of a number: no leading zero, no plus sign, zero as a single digit.
-/

namespace Criteria.Text

def numeral (n : Nat) : List Char :=
  Nat.toDigits 10 n

theorem isDigit_of_mem_numeral {n : Nat} {c : Char} (h : c ∈ numeral n) : c.isDigit :=
  Nat.isDigit_of_mem_toDigits (by decide) (by decide) h

theorem numeral_ne_nil (n : Nat) : numeral n ≠ [] :=
  Nat.toDigits_ne_nil

theorem head?_numeral_ne_zero {n : Nat} (h : 0 < n) : (numeral n).head? ≠ some '0' := by
  have digit : ∀ d < 10, 0 < d → [Nat.digitChar d].head? ≠ some '0' := by decide
  induction n using Nat.strongRecOn with
  | ind n ih =>
      rw [numeral, Nat.toDigits_eq_if (by decide)]
      split
      · exact digit n ‹_› h
      · have filled := numeral_ne_nil (n / 10)
        rw [numeral] at filled
        rw [List.head?_append, List.head?_eq_some_head filled, Option.some_or,
          ← List.head?_eq_some_head filled]
        exact ih (n / 10) (by omega) (by omega)

/-- The digits of the magnitude, after a minus sign when the number is negative. -/
def signedNumeral : Int → List Char
  | .ofNat n => numeral n
  | .negSucc n => '-' :: numeral (n + 1)

theorem mem_signedNumeral {n : Int} {c : Char} (h : c ∈ signedNumeral n) :
    c.isDigit = true ∨ c = '-' := by
  cases n with
  | ofNat n => exact .inl (isDigit_of_mem_numeral h)
  | negSucc n =>
      rcases List.mem_cons.mp h with rfl | h
      · exact .inr rfl
      · exact .inl (isDigit_of_mem_numeral h)

theorem signedNumeral_ne_nil (n : Int) : signedNumeral n ≠ [] := by
  cases n with
  | ofNat n => exact numeral_ne_nil n
  | negSucc n => exact List.cons_ne_nil _ _

/-- Exactly `width` digits for a number below `10 ^ width`, with leading zeros. -/
def padded (width n : Nat) : List Char :=
  (numeral n).leftpad width '0'

/-- Whether a text is made of ASCII digits only and has at least one. -/
def isNumeral (text : List Char) : Bool :=
  !text.isEmpty && text.all Char.isDigit

end Criteria.Text
