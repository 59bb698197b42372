import Criteria.Decimal.OfBinary
import Criteria.Json.Basic
import Criteria.Literal.Basic
import Criteria.Refusal

/-! # Literals from other values

Whole numbers, strings and lists always have a literal form. Floats and JSON values may be
refused: a float by its size, an object wherever it stands.
-/

namespace Criteria

open NatPower

class ToLiteral (α : Type) where
  toLiteral : α → Literal

export ToLiteral (toLiteral)

namespace Literal

/-- Whole numbers above the signed range become decimals without places. -/
def ofUInt64 (n : UInt64) : Literal :=
  if n.toNat < 2 ^ (63 : Nat) then .integer (Int64.ofNat n.toNat) else .decimal (.ofUInt64 n)

instance : ToLiteral Literal := ⟨id⟩
instance : ToLiteral Bool := ⟨.boolean⟩
instance : ToLiteral String := ⟨.string⟩
instance : ToLiteral Decimal := ⟨.decimal⟩
instance : ToLiteral Int8 := ⟨fun n => .integer n.toInt64⟩
instance : ToLiteral Int16 := ⟨fun n => .integer n.toInt64⟩
instance : ToLiteral Int32 := ⟨fun n => .integer n.toInt64⟩
instance : ToLiteral Int64 := ⟨.integer⟩
instance : ToLiteral UInt8 := ⟨fun n => .integer (Int64.ofNat n.toNat)⟩
instance : ToLiteral UInt16 := ⟨fun n => .integer (Int64.ofNat n.toNat)⟩
instance : ToLiteral UInt32 := ⟨fun n => .integer (Int64.ofNat n.toNat)⟩
instance : ToLiteral UInt64 := ⟨ofUInt64⟩
instance : ToLiteral USize := ⟨fun n => ofUInt64 n.toUInt64⟩

/-- A value that is absent is null. -/
instance {α : Type} [ToLiteral α] : ToLiteral (Option α) where
  toLiteral
    | none => .null
    | some value => toLiteral value

instance {α : Type} [ToLiteral α] : ToLiteral (List α) where
  toLiteral values := .list (values.map toLiteral)

instance {α : Type} [ToLiteral α] : ToLiteral (Array α) where
  toLiteral values := toLiteral values.toList

/-- The decimal literal of a floating-point value, unless the value has no decimal or one that
    is zero without being zero itself. -/
def ofBinary? (limit : Nat) (x : Binary) : Option Literal :=
  match Decimal.ofBinary? limit x with
  | some d => if d.isZero && !x.isZero then none else some (.decimal d)
  | none => none

def ofFloat (x : Float) : Except Refusal Literal :=
  match ofBinary? Decimal.doubleLimit (Binary.ofFloat x) with
  | some value => .ok value
  | none => .error (.unsupported (.float x))

/-- A single-precision number has a decimal of its own, and is refused under the double of the
    same value. -/
def ofFloat32 (x : Float32) : Except Refusal Literal :=
  match ofBinary? Decimal.singleLimit (Binary.ofFloat32 x) with
  | some value => .ok value
  | none => .error (.unsupported (.float x.toFloat))

mutual
/-- The literal of a JSON value. The first part that has none, from left to right, refuses the
    whole. -/
def ofJson : Json → Except Refusal Literal
  | .null => .ok .null
  | .boolean value => .ok (.boolean value)
  | .integer value => .ok (.integer value)
  | .natural value => .ok (ofUInt64 value)
  | .float value => ofFloat value
  | .string value => .ok (.string value)
  | .array values => do return .list (← ofJsonList values)
  | .object _ => .error (.unsupported .object)

def ofJsonList : List Json → Except Refusal (List Literal)
  | [] => return []
  | value :: rest => do
    let first ← ofJson value
    let others ← ofJsonList rest
    return first :: others
end

end Literal

end Criteria
