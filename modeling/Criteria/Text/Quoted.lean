/-! # Single-quoted text

The form of a string inside a rule. A backslash stands before each quote and each backslash
of the contents, so the first quote without one closes the literal.
-/

namespace Criteria.Text

/-- A quote or a backslash, the characters that need a backslash before them. -/
def needsBackslash (c : Char) : Bool :=
  c == '\x27' || c == '\\'

def escapeQuotes : List Char → List Char
  | [] => []
  | c :: rest => if needsBackslash c then '\\' :: c :: escapeQuotes rest else c :: escapeQuotes rest

def quoted (text : List Char) : List Char :=
  '\x27' :: escapeQuotes text ++ ['\x27']

end Criteria.Text
