import Criteria.Literal.Basic
import Criteria.Text.Inspected

/-! # Literals in records

A record names the kind of a literal, so that the integer `1`, the decimal `1` and the string
`1` look different, and shows a decimal in its written form.
-/

namespace Criteria.Literal

mutual
def inspectChars : Literal → List Char
  | .null => "Null".toList
  | .boolean value => "Boolean(".toList ++ (if value then "true" else "false").toList ++ [')']
  | .integer value => "Integer(".toList ++ Text.signedNumeral value.toInt ++ [')']
  | .decimal value => "Decimal(".toList ++ value.chars ++ [')']
  | .string value => "String(".toList ++ Text.inspected value.toList ++ [')']
  | .list values =>
    "List([".toList ++ List.intercalate [',', ' '] (inspectCharsList values) ++ [']', ')']

def inspectCharsList : List Literal → List (List Char)
  | [] => []
  | value :: rest => value.inspectChars :: inspectCharsList rest
end

def inspect (value : Literal) : String :=
  String.ofList value.inspectChars

end Criteria.Literal
