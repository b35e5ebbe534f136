import PalmWebKit.Decimal.Alignment

/-!
# Rounding to integers

`floor` and `ceiling` look at the first digit that they drop and at no other
one, and take every number with few digits for one that is not zero.
-/

namespace PalmWebKit
namespace Decimal

/-- The digits behind the decimal point. -/
def dropCount (number : Decimal) : Nat := (-number.exponent).toNat

/-- The integer away from zero that `floor` and `ceiling` compute. -/
def roundedUp (coefficient dropped : Nat) : Nat :=
  if coefficient < 10 ^ (dropped - 1) then 1
  else coefficient / 10 ^ dropped + if coefficient / 10 ^ (dropped - 1) % 10 = 0 then 0 else 1

/-- The number is an integer with all its digits, or no zero, and either it is
less than a tenth, or the first digit behind the point tells whether any other is there. -/
def RoundsExactly (number : Decimal) : Prop :=
  0 ≤ number.exponent ∨ number.coefficient ≠ 0 ∧ (number.coefficient < 10 ^ (number.dropCount - 1) ∨
      number.coefficient % 10 ^ number.dropCount = 0 ∨
      number.coefficient / 10 ^ (number.dropCount - 1) % 10 ≠ 0)

variable {number : Decimal}

theorem magnitude_eq_div (fraction : number.exponent < 0) :
    number.magnitude = (number.coefficient : ℚ) / (10 ^ number.dropCount : Nat) := by
  have exponent : number.exponent = -(number.dropCount : Int) := by
    rw [dropCount]
    omega
  rw [magnitude, exponent, zpow_neg, zpow_natCast, div_eq_mul_inv]
  push_cast
  rfl

theorem ceil_div {dividend divisor : Nat} (positive : 0 < divisor) : ⌈(dividend : ℚ) / divisor⌉ =
      (dividend / divisor + if dividend % divisor = 0 then 0 else 1 : Nat) := by
  have divided := Nat.div_add_mod' dividend divisor
  have less := Nat.mod_lt dividend positive
  have positiveRat : (0 : ℚ) < divisor := Nat.cast_pos.2 positive
  rw [Int.ceil_eq_iff, lt_div_iff₀ positiveRat, div_le_iff₀ positiveRat, Int.cast_natCast]
  generalize dividend / divisor = quotient at *
  generalize dividend % divisor = rest at *
  have dividedRat : (dividend : ℚ) = quotient * divisor + rest := by exact_mod_cast divided.symm
  have lessRat : (rest : ℚ) + 1 ≤ divisor := by exact_mod_cast less
  rw [dividedRat]
  split_ifs with exact_
  · rw [exact_, Nat.cast_zero, Nat.add_zero]
    constructor <;> linarith
  · have some_ : (1 : ℚ) ≤ rest := by exact_mod_cast Nat.one_le_iff_ne_zero.2 exact_
    push_cast
    constructor <;> linarith

/-- The number away from zero is the right one on the condition only. -/
theorem ceil_eq_roundedUp_iff (fraction : number.exponent < 0) :
    (⌈number.magnitude⌉ = roundedUp number.coefficient number.dropCount) ↔
      number.RoundsExactly := by
  have power : 10 ^ number.dropCount = 10 ^ (number.dropCount - 1) * 10 := by
    have digits : number.dropCount = (number.dropCount - 1).succ := by
      rw [dropCount]
      omega
    rw [← Nat.pow_succ, ← digits]
  rw [RoundsExactly, or_iff_right fraction.not_ge, magnitude_eq_div fraction,
    ceil_div (Nat.pow_pos (by decide)), roundedUp, Nat.cast_inj, power, Nat.mod_mul]
  have positive : 0 < 10 ^ (number.dropCount - 1) := Nat.pow_pos (by decide)
  generalize 10 ^ (number.dropCount - 1) = unit at positive
  generalize number.coefficient = coefficient
  by_cases few : coefficient < unit
  · rw [Nat.div_eq_of_lt (by omega), Nat.div_eq_of_lt few, Nat.mod_eq_of_lt few, Nat.zero_mod,
      Nat.mul_zero, Nat.add_zero, if_pos few, Nat.zero_add]
    by_cases isZero : coefficient = 0 <;> simp [isZero, few]
  · have nonzero : coefficient ≠ 0 := by omega
    rw [if_neg few]
    by_cases first : coefficient / unit % 10 = 0
    · by_cases rest : coefficient % unit = 0 <;> simp [first, rest, few, nonzero]
    · simp [first, few, nonzero, positive.ne']

/-! ## The two functions -/

theorem encode_integer (sign : Sign) {coefficient : Nat} (small : coefficient ≤ MaxCoefficient) :
    ∃ result : FiniteDecimal, encode sign 0 coefficient = result ∧
      result.1.value = sign.factor * coefficient := by
  have low : ExponentMin ≤ 0 := by decide
  have high : 0 ≤ ExponentMax := by decide
  refine ⟨⟨_, rfl, small, low, high⟩, encode_small sign low high small, ?_⟩
  rw [value, magnitude, zpow_zero, mul_one]

/-- The result for a fraction. -/
theorem roundAway_fraction (away : Sign) (x : FiniteDecimal) (fraction : x.1.exponent < 0) :
    ∃ result : FiniteDecimal, roundAway away x = some result.1 ∧
      result.1.value = x.1.sign.factor * (if x.1.sign = away then
        roundedUp x.1.coefficient x.1.dropCount else x.1.coefficient / 10 ^ x.1.dropCount : Nat) := by
  have some_ : 0 < x.1.dropCount := by
    rw [dropCount]
    omega
  have few : digitCount x.1.coefficient < x.1.dropCount ↔
      x.1.coefficient < 10 ^ (x.1.dropCount - 1) := by
    rw [← digitCount_le_iff]
    omega
  have shorter : x.1.coefficient / 10 ^ x.1.dropCount =
      x.1.coefficient / 10 ^ (x.1.dropCount - 1) / 10 := by
    rw [Nat.div_div_eq_div_mul, ← Nat.pow_succ, Nat.succ_eq_add_one, Nat.sub_add_cancel some_]
  have small : x.1.coefficient / 10 ^ (x.1.dropCount - 1) ≤ MaxCoefficient :=
    (Nat.div_le_self _ _).trans x.2.coefficient_le
  have smaller : x.1.coefficient < 10 ^ (x.1.dropCount - 1) →
      x.1.coefficient / 10 ^ (x.1.dropCount - 1) = 0 := Nat.div_eq_of_lt
  rw [roundAway, x.2.finite, countDigits_eq (x.2.coefficient_le.trans_lt (by decide))]
  simp only [Bool.not_true, Bool.false_eq_true, if_false, if_neg fraction.not_ge,
    Option.bind_eq_bind, Option.bind_some, ← dropCount.eq_1, few, roundedUp, scaleDown_eq, shorter]
  generalize x.1.coefficient / 10 ^ (x.1.dropCount - 1) = digits at small smaller
  rw [MaxCoefficient] at small
  by_cases isAway : x.1.sign = away
  · simp only [isAway, if_true, true_and]
    by_cases isFew : x.1.coefficient < 10 ^ (x.1.dropCount - 1)
    · obtain ⟨result, isResult, isValue⟩ := encode_integer away (by decide : 1 ≤ MaxCoefficient)
      rw [if_pos isFew, if_pos isFew]
      refine ⟨result, ?_, isValue⟩
      rw [← isResult]
      cases away <;> rfl
    · rw [if_neg isFew, if_neg isFew]
      by_cases isZero : digits % 10 = 0
      · obtain ⟨result, isResult, isValue⟩ :=
          @encode_integer away (digits / 10) (by rw [MaxCoefficient]; omega)
        rw [if_neg (by omega), if_pos isZero, Option.bind_some]
        exact ⟨result, congrArg some isResult, isValue⟩
      · obtain ⟨result, isResult, isValue⟩ :=
          @encode_integer away (digits / 10 + 1) (by rw [MaxCoefficient]; omega)
        rw [if_pos (by omega), if_neg isZero, word_eq (by omega), Option.bind_some,
          Nat.add_div_right _ (by decide)]
        exact ⟨result, congrArg some isResult, isValue⟩
  · simp only [isAway, if_false, false_and, Option.bind_some]
    split_ifs with isFew
    · refine ⟨⟨zero .positive, rfl, Nat.zero_le _, by decide, by decide⟩, rfl, ?_⟩
      rw [smaller isFew, Nat.zero_div, Nat.cast_zero, mul_zero, value, magnitude]
      exact (mul_eq_zero_of_right _ (zero_mul _))
    · obtain ⟨result, isResult, isValue⟩ :=
        @encode_integer x.1.sign (digits / 10) (by rw [MaxCoefficient]; omega)
      exact ⟨result, congrArg some isResult, isValue⟩

theorem floor_magnitude (fraction : number.exponent < 0) :
    ⌊number.magnitude⌋ = (number.coefficient / 10 ^ number.dropCount : Nat) := by
  rw [magnitude_eq_div fraction, Rat.floor_natCast_div_natCast, Int.natCast_div]

theorem integer_of_exponent (whole : 0 ≤ number.exponent) :
    ∃ integer : Int, number.value = integer := by
  obtain ⟨exponent, isExponent⟩ := Int.eq_ofNat_of_zero_le whole
  cases sign : number.sign
  · refine ⟨number.coefficient * 10 ^ exponent, ?_⟩
    rw [value, magnitude, isExponent, sign, Sign.factor, zpow_natCast]
    push_cast
    ring
  · refine ⟨-(number.coefficient * 10 ^ exponent), ?_⟩
    rw [value, magnitude, isExponent, sign, Sign.factor, zpow_natCast]
    push_cast
    ring

end Decimal
end PalmWebKit
