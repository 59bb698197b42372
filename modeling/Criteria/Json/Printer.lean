import Criteria.Binary.Layout
import Criteria.Json.Basic

/-! # JSON texts

The compact form: no space anywhere, and only those characters escaped that JSON does not allow
raw in a string.
-/

namespace Criteria.Json

/-- One character of a string. Controls without a letter of their own have four hexadecimal
    digits. -/
def escapeChar (c : Char) : List Char :=
  if c = '"' || c = '\\' then ['\\', c]
  else if c = '\x08' then ['\\', 'b']
  else if c = '\x0c' then ['\\', 'f']
  else if c = '\n' then ['\\', 'n']
  else if c = '\r' then ['\\', 'r']
  else if c = '\t' then ['\\', 't']
  else if c < ' ' then ['\\', 'u'] ++ (Nat.toDigits 16 c.toNat).leftpad 4 '0'
  else [c]

def stringChars (text : String) : List Char :=
  '"' :: text.toList.flatMap escapeChar ++ ['"']

/-- A float in the JSON layout. JSON has no text for infinities and NaN, which are null. -/
def floatChars (x : Float) : List Char :=
  match Binary.ofFloat x with
  | .finite negative significand exponent =>
    Binary.chars .json (.finite negative significand exponent)
  | _ => ['n', 'u', 'l', 'l']

mutual
def chars : Json → List Char
  | .null => ['n', 'u', 'l', 'l']
  | .boolean true => ['t', 'r', 'u', 'e']
  | .boolean false => ['f', 'a', 'l', 's', 'e']
  | .integer n => Text.signedNumeral n.toInt
  | .natural n => Text.numeral n.toNat
  | .float x => floatChars x
  | .string s => stringChars s
  | .array values => '[' :: List.intercalate [','] (charsList values) ++ [']']
  | .object members => '\x7b' :: List.intercalate [','] (charsMembers members) ++ ['\x7d']

def charsList : List Json → List (List Char)
  | [] => []
  | value :: rest => value.chars :: charsList rest

def charsMembers : List (String × Json) → List (List Char)
  | [] => []
  | (name, value) :: rest => (stringChars name ++ ':' :: value.chars) :: charsMembers rest
end

def text (value : Json) : String :=
  String.ofList value.chars

end Criteria.Json
