import Criteria.Criterion.Basic

/-! # Drafts

A draft says how to make a criterion. Making it checks what a criterion promises by its type,
that there is something to join, and reports each checked composite. Parts are made before what
they are parts of, from left to right, and the first refusal ends the work.
-/

namespace Criteria

inductive Draft where
  /-- A criterion that is there already. -/
  | given (criterion : Criterion)
  /-- A condition one of whose values has no literal form. -/
  | refused (cause : Refusal)
  | compare (key : String) (comparison : Comparison) (value : Literal)
  | call (name : String) (arguments : List Literal)
  /-- A condition in the words of the rule language. Its entries are bound in their order. -/
  | rule (text : String) (entries : List (String × Literal))
  /-- Any number of operands, which are checked and reported. -/
  | all (connective : Connective) (operands : List Draft)
  /-- Two operands, of which there is nothing to check or report. -/
  | pair (connective : Connective) (left right : Draft)
  | negated (operand : Draft)

namespace Draft

mutual
def build : Draft → Build Criterion
  | .given criterion => return criterion
  | .refused cause => throw cause
  | .compare key comparison value => return .compare key comparison value
  | .call name arguments => return .call name arguments
  | .rule text entries => do
    let bindings ← Bindings.ofList entries
    return .rule text bindings
  | .all connective operands => do
    let operands ← buildList operands
    Criterion.join connective operands
  | .pair connective left right => do
    let left ← left.build
    let right ← right.build
    return .joined connective left [right]
  | .negated operand => do
    let operand ← operand.build
    return .negated operand

def buildList : List Draft → Build (List Criterion)
  | [] => return []
  | draft :: rest => do
    let first ← draft.build
    let others ← buildList rest
    return first :: others
end

/-- The draft that a value gives, or its refusal. -/
def ofExcept {α : Type} (value : Except Refusal α) (draft : α → Draft) : Draft :=
  match value with
  | .ok value => draft value
  | .error cause => .refused cause

def equals (key : String) (value : Literal) : Draft :=
  .compare key .equal value

def notEquals (key : String) (value : Literal) : Draft :=
  .compare key .notEqual value

def is (key : String) (value : Literal) : Draft :=
  .compare key .is value

def isNot (key : String) (value : Literal) : Draft :=
  .negated (is key value)

def lessThan (key : String) (value : Literal) : Draft :=
  .compare key .lessThan value

def lessThanEqual (key : String) (value : Literal) : Draft :=
  .compare key .lessThanEqual value

def moreThan (key : String) (value : Literal) : Draft :=
  .compare key .greaterThan value

def moreThanEqual (key : String) (value : Literal) : Draft :=
  .compare key .greaterThanEqual value

def isIn (key : String) (value : Literal) : Draft :=
  .compare key .isIn value

def notIn (key : String) (value : Literal) : Draft :=
  .negated (isIn key value)

instance : AndOp Draft := ⟨.pair .and⟩

instance : OrOp Draft := ⟨.pair .or⟩

end Draft

end Criteria
