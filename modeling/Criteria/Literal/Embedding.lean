import Criteria.Literal.Basic
import Criteria.Text.Quoted

/-! # Literals inside a rule

Lists come first, so that the empty list is `[]`. Every other empty literal is a pair of double
quotes. Strings of digits and placeholders stand as they are, and other strings are quoted.
-/

namespace Criteria.Literal

/-- The character that starts a placeholder. -/
def sigil : Char := ':'

/-- Whether a text names a bound value instead of being one. -/
def isPlaceholder (text : List Char) : Bool :=
  text.head? == some sigil

/-- The form of every empty literal that is not a list. -/
def emptyChars : List Char := ['"', '"']

def stringChars (text : List Char) : List Char :=
  if text = [] ∨ text = ['0'] then emptyChars
  else if Text.isNumeral text || isPlaceholder text then text
  else Text.quoted text

/-- What stands between the elements of a list and the arguments of a call. -/
def separator : List Char := [',', ' ']

mutual
def chars : Literal → List Char
  | .null => emptyChars
  | .boolean value => if value then ['t', 'r', 'u', 'e'] else emptyChars
  | .integer value => if value = 0 then emptyChars else Text.signedNumeral value.toInt
  | .decimal value => if value.isZero then emptyChars else value.chars
  | .string value => stringChars value.toList
  | .list values => '[' :: List.intercalate separator (charsList values) ++ [']']

def charsList : List Literal → List (List Char)
  | [] => []
  | value :: rest => value.chars :: charsList rest
end

def text (value : Literal) : String :=
  String.ofList value.chars

end Criteria.Literal
