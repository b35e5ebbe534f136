import Mathlib

/-!
# Network byte order

Numbers as bytes, the most significant byte first: how they are written by
shifting a number down and read by shifting a number up.
-/

namespace PalmWebKit
namespace NetworkOrder

/-- The lowest bytes of a number, the most significant one first. -/
def bytes : Nat → Nat → List UInt8
  | 0, _ => []
  | count + 1, number => bytes count (number >>> 8) ++ [UInt8.ofNat (number &&& 0xFF)]

/-- The number that bytes stand for behind the number read so far. -/
def valueFrom : Nat → List UInt8 → Nat
  | number, [] => number
  | number, byte :: rest => valueFrom (number * 256 + byte.toNat) rest

/-- The number that bytes stand for. -/
def value (encoded : List UInt8) : Nat := valueFrom 0 encoded

variable {number : Nat} {first second : List UInt8}

@[simp] theorem length_bytes (count number : Nat) : (bytes count number).length = count := by
  induction count generalizing number with
  | zero => rfl
  | succ count ih => rw [bytes, List.length_append, ih, List.length_singleton]

theorem valueFrom_append :
    valueFrom number (first ++ second) = valueFrom (valueFrom number first) second := by
  induction first generalizing number with
  | nil => rfl
  | cons byte first ih => rw [List.cons_append, valueFrom, valueFrom, ih]

theorem toNat_lowByte (number : Nat) : (UInt8.ofNat (number &&& 0xFF)).toNat = number % 256 := by
  have low : number &&& 0xFF = number % 256 := Nat.and_two_pow_sub_one_eq_mod number 8
  rw [low]
  exact Nat.mod_eq_of_lt (Nat.mod_lt number (by decide))

/-- Reading gives back the number written, up to the bytes there are. -/
theorem value_bytes (count number : Nat) : value (bytes count number) = number % 256 ^ count := by
  induction count generalizing number with
  | zero => simp [value, bytes, valueFrom, Nat.mod_one]
  | succ count ih =>
    have shifted : number >>> 8 = number / 256 := Nat.shiftRight_eq_div_pow number 8
    have high := ih (number >>> 8)
    rw [value] at high
    rw [value, bytes, valueFrom_append, high, valueFrom, valueFrom, toNat_lowByte,
      shifted, Nat.pow_succ', Nat.mod_mul]
    ring

theorem value_bytes_of_lt {count : Nat} (fits : number < 256 ^ count) :
    value (bytes count number) = number := by
  rw [value_bytes, Nat.mod_eq_of_lt fits]

/-- A byte below a shifted number. -/
theorem shiftLeft_or_byte (number : Nat) (byte : UInt8) :
    number <<< 8 ||| byte.toNat = number * 256 + byte.toNat := by
  have sum : 2 ^ 8 * number + byte.toNat = 2 ^ 8 * number ||| byte.toNat :=
    Nat.two_pow_add_eq_or_of_lt byte.toNat_lt number
  rw [Nat.shiftLeft_eq, Nat.mul_comm number, ← sum]

end NetworkOrder
end PalmWebKit
