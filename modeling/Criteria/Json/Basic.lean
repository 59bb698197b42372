/-! # JSON values

Numbers keep the way they are stored: a whole number is not the same value as a float that
happens to be integral. The members of an object keep their order.
-/

namespace Criteria

inductive Json where
  | null
  | boolean (value : Bool)
  /-- A whole number of the signed 64-bit range. -/
  | integer (value : Int64)
  /-- A whole number of the unsigned 64-bit range. -/
  | natural (value : UInt64)
  | float (value : Float)
  | string (value : String)
  | array (values : List Json)
  | object (members : List (String × Json))

end Criteria
