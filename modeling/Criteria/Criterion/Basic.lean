import Criteria.Bindings.Basic
import Criteria.Comparison
import Criteria.Literal.Embedding

/-! # Criteria

A criterion is a tree of conditions. Its text puts every operand in parentheses, whatever the
operand is, so that no precedence has to be known to read it back.
-/

namespace Criteria

inductive Criterion where
  /-- A condition in the words of the rule language, with values for its placeholders. -/
  | rule (text : String) (bindings : Bindings)
  | call (name : String) (arguments : List Literal)
  /-- Operands under a connective, of which there is at least one. -/
  | joined (connective : Connective) (first : Criterion) (rest : List Criterion)
  | negated (operand : Criterion)

namespace Criterion

/-- The condition that a key compares to a value. A placeholder stays a name: the condition
    binds nothing. -/
def compare (key : String) (comparison : Comparison) (value : Literal) : Criterion :=
  .rule (key ++ " " ++ comparison.token ++ " " ++ value.text) ∅

def operands : Criterion → List Criterion
  | .rule _ _ => []
  | .call _ _ => []
  | .joined _ first rest => first :: rest
  | .negated operand => [operand]

/-- Whether a composite says that it has no operand. It has one by its type and does not look. -/
def saysEmpty (_ : Criterion) : Bool :=
  false

/-- The criterion that some operands form under a connective. There has to be one. -/
def join (connective : Connective) : List Criterion → Build Criterion
  | [] => do
    Logged.note (.rejected connective)
    throw (.emptyComposite connective)
  | first :: rest => do
    Logged.note (.built connective (rest.length + 1))
    return .joined connective first rest

/-- What stands between two operands: the parentheses around them and the connective. -/
def joint (connective : Connective) : List Char :=
  [')', ' '] ++ connective.word.toList ++ [' ', '(']

mutual
def chars : Criterion → List Char
  | .rule text _ => text.toList
  | .call name arguments =>
    name.toList ++ '(' :: List.intercalate Literal.separator (Literal.charsList arguments) ++ [')']
  | .joined connective first rest =>
    '(' :: first.chars ++ charsRest connective rest ++ [')']
  | .negated operand => ['N', 'O', 'T', ' ', '('] ++ operand.chars ++ [')']

/-- The operands after the first, each with the joint before it. -/
def charsRest (connective : Connective) : List Criterion → List Char
  | [] => []
  | operand :: rest => joint connective ++ operand.chars ++ charsRest connective rest
end

def text (criterion : Criterion) : String :=
  String.ofList criterion.chars

mutual
/-- Whether two criteria have the same shape, the same texts, and bindings and arguments that
    agree. -/
def agrees : Criterion → Criterion → Bool
  | .rule text bindings, .rule text' bindings' => text == text' && bindings.agrees bindings'
  | .call name arguments, .call name' arguments' =>
    name == name' && Literal.agreesList arguments arguments'
  | .joined connective first rest, .joined connective' first' rest' =>
    connective == connective' && first.agrees first' && agreesList rest rest'
  | .negated operand, .negated operand' => operand.agrees operand'
  | _, _ => false

def agreesList : List Criterion → List Criterion → Bool
  | [], [] => true
  | a :: as, b :: bs => a.agrees b && agreesList as bs
  | _, _ => false
end

end Criterion

end Criteria
