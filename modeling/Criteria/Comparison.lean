/-! # Comparison operators -/

namespace Criteria

inductive Comparison where
  | equal
  | notEqual
  | is
  | lessThan
  | lessThanEqual
  | greaterThan
  | greaterThanEqual
  | isIn
  deriving DecidableEq, Repr

def Comparison.token : Comparison → String
  | .equal => "="
  | .notEqual => "!="
  | .is => "is"
  | .lessThan => "<"
  | .lessThanEqual => "<="
  | .greaterThan => ">"
  | .greaterThanEqual => ">="
  | .isIn => "in"

end Criteria
