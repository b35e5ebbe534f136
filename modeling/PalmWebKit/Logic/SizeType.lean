import Mathlib

/-!
# Sizes of a platform

The range of `size_t`, and the size of the largest object.
-/

namespace PalmWebKit

/-- The width of `size_t`. -/
inductive SizeType
  | bits32
  | bits64
  deriving DecidableEq, Repr

namespace SizeType

/-- `numeric_limits<size_t>::max()` -/
def max : SizeType → Nat
  | .bits32 => 0xFFFFFFFF
  | .bits64 => 0xFFFFFFFFFFFFFFFF

/-- The size of the largest object: pointers into one have a difference. -/
def largestObject : SizeType → Nat
  | .bits32 => 0x7FFFFFFF
  | .bits64 => 0x7FFFFFFFFFFFFFFF

theorem largestObject_le_max (size : SizeType) : size.largestObject ≤ size.max := by
  cases size <;> decide

end SizeType

end PalmWebKit
