import Criteria.Bindings.Basic
import Criteria.Literal.Json

/-! # Bindings as JSON -/

namespace Criteria.Bindings

/-- One object, whose members are the entries in their order. -/
def toJson (bindings : Bindings) : Json :=
  .object (bindings.toList.map fun (name, value) => (name, value.toJson))

end Criteria.Bindings
