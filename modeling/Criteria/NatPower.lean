/-! # Powers of whole numbers

The core library and Mathlib both have powers of whole numbers, which are the same. Where this
namespace is open they are the core library's, whatever else is imported.
-/

namespace Criteria.NatPower

attribute [scoped instance (high)] instPowNat

end Criteria.NatPower
