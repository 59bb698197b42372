import Criteria.Connective
import Criteria.Literal.Inspection
import Criteria.Text.Numeral

/-! # Records

What building and merging report while they work.
-/

namespace Criteria

inductive Level where
  | trace
  | debug
  deriving DecidableEq, Repr

def Level.word : Level → String
  | .trace => "TRACE"
  | .debug => "DEBUG"

inductive Record where
  /-- A conjunction or disjunction was made of this many operands. -/
  | built (connective : Connective) (operands : Nat)
  /-- A conjunction or disjunction had no operand. -/
  | rejected (connective : Connective)
  /-- A bound value gave way to one that does not agree with it. -/
  | overwritten (name : String) (old new : Literal)

namespace Record

def level : Record → Level
  | .built _ _ => .trace
  | .rejected _ => .debug
  | .overwritten _ _ _ => .debug

def message : Record → String
  | .built connective operands =>
    "built " ++ connective.word ++ " composite with " ++
      String.ofList (Text.numeral operands) ++ " children"
  | .rejected connective => "rejected " ++ connective.word ++ " composite without children"
  | .overwritten name old new =>
    "parameter '" ++ name ++ "' overwritten: " ++ old.inspect ++ " -> " ++ new.inspect

def text (record : Record) : String :=
  record.level.word ++ " " ++ record.message

/-- The level goes before the first words of the message, and the text goes on as the message. -/
theorem text_eq_foldl {record : Record} {opening : String} (start : String) (rest : List String)
    (hopening : record.level.word ++ " " ++ start = opening)
    (hmessage : record.message = rest.foldl (· ++ ·) start) :
    record.text = rest.foldl (· ++ ·) opening := by
  calc record.text
      = record.level.word ++ " " ++ rest.foldl (· ++ ·) start := by rw [text, hmessage]
    _ = rest.foldl (· ++ ·) (record.level.word ++ " " ++ start) := List.foldl_assoc.symm
    _ = rest.foldl (· ++ ·) opening := by rw [hopening]

end Record

end Criteria
