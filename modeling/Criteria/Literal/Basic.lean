import Criteria.Decimal.Basic

/-! # Literals

A literal is a value that can stand in a rule or be bound to a placeholder. Two literals agree
when they are of one kind and have one value; the written form of a decimal does not matter for
that.
-/

namespace Criteria

inductive Literal where
  | null
  | boolean (value : Bool)
  | integer (value : Int64)
  | decimal (value : Decimal)
  | string (value : String)
  | list (values : List Literal)

namespace Literal

/-- Whether a literal counts as empty: null, false, zero, the empty string, the string `0` and
    the empty list do. -/
def isEmpty : Literal → Bool
  | .null => true
  | .boolean value => !value
  | .integer value => value == 0
  | .decimal value => value.isZero
  | .string value => value == "" || value == "0"
  | .list values => values.isEmpty

def asString? : Literal → Option String
  | .string value => some value
  | _ => none

mutual
/-- Whether two literals are of one kind and have one value. -/
def agrees : Literal → Literal → Bool
  | .null, .null => true
  | .boolean a, .boolean b => a == b
  | .integer a, .integer b => a == b
  | .decimal a, .decimal b => a.sameValue b
  | .string a, .string b => a == b
  | .list as, .list bs => agreesList as bs
  | _, _ => false

def agreesList : List Literal → List Literal → Bool
  | [], [] => true
  | a :: as, b :: bs => a.agrees b && agreesList as bs
  | _, _ => false
end

end Literal

end Criteria
