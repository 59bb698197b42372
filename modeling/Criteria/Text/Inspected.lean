import Criteria.Text.Printable

/-! # Inspected text

The double-quoted form of a string in records. It shows every character unambiguously: those
without a glyph of their own appear as their code point in hexadecimal.
-/

namespace Criteria.Text

/-- One character of an inspected text. Four controls have a letter of their own; a single
    quote needs no escape between double quotes. -/
def inspectChar (c : Char) : List Char :=
  if c = '"' || c = '\\' then ['\\', c]
  else if c = '\t' then ['\\', 't']
  else if c = '\r' then ['\\', 'r']
  else if c = '\n' then ['\\', 'n']
  else if c = '\x00' then ['\\', '0']
  else if isPrintable c then [c]
  else ['\\', 'u', '\x7b'] ++ Nat.toDigits 16 c.toNat ++ ['\x7d']

/-- The text between double quotes, every character escaped where it has to be. -/
def inspected (text : List Char) : List Char :=
  '"' :: text.flatMap inspectChar ++ ['"']

end Criteria.Text
