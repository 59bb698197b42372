import Criteria.Decimal.ToFloat
import Criteria.Json.Printer
import Criteria.Literal.Basic

/-! # Literals as JSON

Every literal is a JSON value of its kind. A decimal becomes a float, which may lose digits and
always loses its written form.
-/

namespace Criteria.Literal

mutual
def toJson : Literal → Json
  | .null => .null
  | .boolean value => .boolean value
  | .integer value => .integer value
  | .decimal value => .float value.toFloat
  | .string value => .string value
  | .list values => .array (toJsonList values)

def toJsonList : List Literal → List Json
  | [] => []
  | value :: rest => value.toJson :: toJsonList rest
end

end Criteria.Literal
