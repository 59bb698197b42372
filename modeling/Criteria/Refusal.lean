import Criteria.Binary.Layout
import Criteria.Connective
import Criteria.Text.Inspected

/-! # Refusals

Why a criterion or a literal cannot be made. A cause is a value; its wording is in one place.
-/

namespace Criteria

/-- Why a value has no literal form. -/
inductive Unsupported where
  /-- A float that is not a number, too large, or so small that it would become zero. -/
  | float (value : Float)
  | object
  /-- A cause in the words of whoever refuses. -/
  | described (cause : String)

/-- The cause in words. A float appears with its shortest digits. -/
def Unsupported.text : Unsupported → String
  | .float value =>
    "float " ++ String.ofList (Binary.chars .scientific (Binary.ofFloat value)) ++
      " has no decimal representation"
  | .object => "objects cannot be embedded in a rule"
  | .described cause => cause

inductive Refusal where
  /-- A conjunction or disjunction needs at least one operand. -/
  | emptyComposite (connective : Connective)
  | unsupported (cause : Unsupported)

namespace Refusal

def message : Refusal → String
  | .emptyComposite connective =>
    connective.word ++ " composite requires at least one child specification"
  | .unsupported cause => "value has no literal representation: " ++ cause.text

/-- The form for a developer, which shows the cause as data. -/
def inspect : Refusal → String
  | .emptyComposite .and => "EmptyComposite(And)"
  | .emptyComposite .or => "EmptyComposite(Or)"
  | .unsupported cause =>
    "UnsupportedValue(" ++ String.ofList (Text.inspected cause.text.toList) ++ ")"

end Refusal

end Criteria
