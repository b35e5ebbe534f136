import PalmWebKit.Decimal.Approximation
import PalmWebKit.Decimal.Sums

/-!
# Sums, differences and products

The operators lose less than one unit of the last digit of the result, and
nothing of a result that fits where no operand has lost a digit before.
-/

namespace PalmWebKit
namespace Decimal

/-- Some coefficient and exponent denote the rational. -/
def Fits (exact_ : ℚ) : Prop := ∃ number : FiniteDecimal, number.1.value = exact_

/-- The operands are brought to one exponent without a loss. -/
def KeepsDigits (x y : FiniteDecimal) : Prop :=
  ∃ aligned, alignOperands x y = some aligned ∧
    x.1.magnitude = aligned.lhsCoefficient * 10 ^ aligned.exponent ∧
    y.1.magnitude = aligned.rhsCoefficient * 10 ^ aligned.exponent

/-- No operation overflows; a finite result is off by less than one unit of its
last digit, and on the condition a result that fits is exact. -/
def Computes (result : Option Decimal) (exact_ : ℚ) (keeps : Prop) : Prop :=
  ∃ number, result = some number ∧
    (number.isFinite = true → |number.value - exact_| < 10 ^ number.exponent) ∧
    (keeps → Fits exact_ → number.isFinite = true ∧ number.value = exact_)

/-- What fits and has many digits at an exponent has zeros at its end. -/
theorem fits_scale {sign : Sign} {mantissa : ℚ} {exponent : Int} {dropped : Nat}
    (large : 10 ^ 17 * 10 ^ dropped ≤ mantissa)
    (fits : Fits (sign.factor * (mantissa * 10 ^ exponent))) :
    exponent + dropped ≤ ExponentMax ∧ ∃ kept : Nat, mantissa = kept * 10 ^ dropped := by
  obtain ⟨number, isNumber⟩ := fits
  have unit := power_pos exponent
  have same : number.1.magnitude = mantissa * 10 ^ exponent := by
    have sizes := congrArg abs isNumber
    rwa [value, abs_mul, abs_mul, abs_factor, abs_factor, one_mul, one_mul,
      abs_of_nonneg (magnitude_nonneg _), abs_of_nonneg] at sizes
    exact mul_nonneg (le_trans (by positivity) large) unit.le
  have below : (number.1.coefficient : ℚ) < 10 ^ 18 := by
    exact_mod_cast number.2.coefficient_le.trans_lt (by decide : MaxCoefficient < 10 ^ 18)
  have within : exponent + dropped ≤ number.1.exponent := by
    by_contra less
    have power : (10 : ℚ) ^ number.1.exponent * 10 ≤ 10 ^ dropped * 10 ^ exponent := by
      rw [← zpow_add_one₀ (by norm_num), mul_comm, ← zpow_natCast, ← zpow_add₀ (by norm_num)]
      exact power_le (not_le.1 less)
    have positive := power_pos number.1.exponent
    have lower := mul_le_mul_of_nonneg_right large unit.le
    rw [← same, magnitude] at lower
    have upper := mul_lt_mul_of_pos_right below positive
    linarith
  refine ⟨within.trans number.2.exponent_le,
    number.1.coefficient * 10 ^ (number.1.exponent - (exponent + dropped)).toNat, ?_⟩
  have exponents : number.1.exponent =
      ((number.1.exponent - (exponent + dropped)).toNat + dropped : Nat) + exponent := by
    omega
  rw [magnitude, congrArg (fun exponent : Int => (10 : ℚ) ^ exponent) exponents,
    zpow_add₀ (by norm_num), zpow_natCast, ← mul_assoc] at same
  rw [← mul_right_cancel₀ unit.ne' same, pow_add]
  push_cast
  ring

/-- The constructor keeps an integer that fits. -/
theorem encode_exact {sign : Sign} {exponent : Int} {coefficient : Nat}
    (low : ExponentMin ≤ exponent) (high : exponent ≤ ExponentMax)
    (fits : Fits (sign.factor * (coefficient * 10 ^ exponent))) :
    (encode sign exponent coefficient).isFinite = true ∧
      (encode sign exponent coefficient).value = sign.factor * (coefficient * 10 ^ exponent) := by
  obtain ⟨dropped, isEncoded, -, least⟩ := encode_spec sign coefficient low high
  have ⟨within, kept, isKept⟩ : exponent + dropped ≤ ExponentMax ∧
      ∃ kept : Nat, (coefficient : ℚ) = kept * 10 ^ dropped := by
    rcases least with rfl | large
    · exact ⟨by simpa using high, coefficient, by simp⟩
    · exact fits_scale (by exact_mod_cast large) fits
  have isCoefficient : coefficient = kept * 10 ^ dropped := by exact_mod_cast isKept
  rw [isEncoded, if_neg within.not_gt]
  refine ⟨by rw [isFinite]; split <;> rfl, ?_⟩
  rw [value, magnitude, isKept, isCoefficient, Nat.mul_div_cancel _ (Nat.pow_pos (by decide)),
    zpow_add₀ (by norm_num), zpow_natCast]
  dsimp only
  ring

theorem computes_of_encode {sign : Sign} {exponent : Int} {coefficient : Nat} {rest exact_ : ℚ}
    {keeps : Prop} (isExact : exact_ = sign.factor * ((coefficient + rest) * 10 ^ exponent))
    (small : coefficient < 10 ^ 20) (near : |rest| < 1)
    (notTiny : exponent ≤ ExponentMax ∨ 1 ≤ coefficient + rest)
    (kept : keeps → Fits exact_ → rest = 0 ∧ ExponentMin ≤ exponent ∧ exponent ≤ ExponentMax) :
    Computes (some (encode sign exponent coefficient)) exact_ keeps := by
  refine ⟨_, rfl, fun finite => ?_, fun isKept fits => ?_⟩
  · have approximates := encode_approximates sign small near notTiny
    rwa [Approximates, if_pos finite, ← isExact] at approximates
  · obtain ⟨rfl, low, high⟩ := kept isKept fits
    rw [add_zero] at isExact
    rw [isExact] at fits ⊢
    exact encode_exact low high fits

/-! ## The operators -/

theorem eq_zero_of_integer {rest : ℚ} {coefficient kept : Nat} (near : |rest| < 1)
    (integer : coefficient + rest = kept) : rest = 0 := by
  have isInt : rest = ((kept - coefficient : Int) : ℚ) := by
    push_cast
    linarith
  rw [isInt, ← Int.cast_abs, ← Int.cast_one, Int.cast_lt, Int.abs_lt_one_iff] at near
  rw [isInt, near, Int.cast_zero]

variable (x y : FiniteDecimal)

theorem add_computes :
    Computes (add x y) (x.1.value + y.1.value) (x.1.sign = y.1.sign ∨ KeepsDigits x y) := by
  obtain ⟨aligned, lhsRest, rhsRest, sign, coefficient, aligns, spec, isSum, sum⟩ := add_spec x y
  obtain ⟨lhsLow, lhsHigh⟩ := spec.lhsRest_mem
  obtain ⟨rhsLow, rhsHigh⟩ := spec.rhsRest_mem
  have square : sign.factor * sign.factor = 1 := by cases sign <;> norm_num [Sign.factor]
  have isExact : x.1.value + y.1.value = sign.factor * ((coefficient + sign.factor *
      (x.1.sign.factor * lhsRest + y.1.sign.factor * rhsRest)) * 10 ^ aligned.exponent) := by
    have factored : ∀ rest unit : ℚ, sign.factor * ((coefficient + sign.factor * rest) * unit) =
        (sign.factor * coefficient + sign.factor * sign.factor * rest) * unit := by
      intro rest unit
      ring
    rw [factored, square, sum, value, value, spec.lhs_eq, spec.rhs_eq]
    ring
  have small : coefficient < 10 ^ 20 := by
    have lhsLe := spec.lhs_le
    have rhsLe := spec.rhs_le
    have sizes := congrArg abs sum
    have triangle := abs_add_le (x.1.sign.factor * aligned.lhsCoefficient)
      (y.1.sign.factor * aligned.rhsCoefficient)
    rw [← sizes] at triangle
    simp only [abs_mul, abs_factor, one_mul, Nat.abs_cast] at triangle
    have bound : coefficient ≤ aligned.lhsCoefficient + aligned.rhsCoefficient := by
      exact_mod_cast triangle
    rw [MaxCoefficient] at lhsLe rhsLe
    omega
  have near : |sign.factor * (x.1.sign.factor * lhsRest + y.1.sign.factor * rhsRest)| < 1 := by
    rw [abs_mul, abs_factor, one_mul]
    rcases spec.rests with ⟨isZero, isZero'⟩ | ⟨isZero, -, -⟩ | ⟨isZero, -, -⟩
    · rw [isZero, isZero', mul_zero, mul_zero, add_zero, abs_zero]
      exact one_pos
    · rwa [isZero, mul_zero, zero_add, abs_mul, abs_factor, one_mul, abs_of_nonneg rhsLow]
    · rwa [isZero, mul_zero, add_zero, abs_mul, abs_factor, one_mul, abs_of_nonneg lhsLow]
  rw [isSum]
  refine computes_of_encode isExact small near (.inl spec.exponent_le) fun keeps fits =>
    ⟨?_, spec.le_exponent, spec.exponent_le⟩
  rcases keeps with same | ⟨other, alsoAligns, lhsExact, rhsExact⟩
  · rcases spec.rests with ⟨isZero, isZero'⟩ | large
    · rw [isZero, isZero', mul_zero, mul_zero, add_zero, mul_zero]
    -- an operand with all its digits leaves no room for a digit behind them
    · have largeRat : (10 ^ 17 : ℚ) ≤ aligned.lhsCoefficient + aligned.rhsCoefficient := by
        rcases large with ⟨-, large, -⟩ | ⟨-, large, -⟩
        · exact_mod_cast large.trans (Nat.le_add_right _ _)
        · exact_mod_cast large.trans (Nat.le_add_left _ _)
      have sameSign : sign.factor * x.1.sign.factor = 1 ∧
          (coefficient : ℚ) = aligned.lhsCoefficient + aligned.rhsCoefficient := by
        have := (Nat.cast_nonneg coefficient : (0 : ℚ) ≤ coefficient)
        rw [← same] at sum
        generalize x.1.sign = left at sum ⊢
        cases sign <;> cases left <;> simp only [Sign.factor] at sum ⊢ <;>
          constructor <;> linarith
      have restEq : sign.factor * (x.1.sign.factor * lhsRest + y.1.sign.factor * rhsRest) =
          lhsRest + rhsRest := by
        rw [← same, ← mul_add, ← mul_assoc, sameSign.1, one_mul]
      rw [isExact] at fits
      obtain ⟨-, kept, isKept⟩ := @fits_scale sign _ aligned.exponent 0
        (by rw [restEq, sameSign.2]; norm_num; linarith) fits
      rw [pow_zero, mul_one] at isKept
      exact eq_zero_of_integer near isKept
  · cases aligns.symm.trans alsoAligns
    have unit := (power_pos aligned.exponent).ne'
    have lhsZero := mul_right_cancel₀ unit (spec.lhs_eq.symm.trans lhsExact)
    have rhsZero := mul_right_cancel₀ unit (spec.rhs_eq.symm.trans rhsExact)
    rw [add_eq_left.1 lhsZero, add_eq_left.1 rhsZero, mul_zero, mul_zero, add_zero, mul_zero]

theorem sub_computes :
    Computes (sub x y) (x.1.value - y.1.value) (x.1.sign ≠ y.1.sign ∨ KeepsDigits x y) := by
  have negated : y.negate.1 = { y.1 with sign := y.1.sign.invert } := negate_eq y
  have aligns : alignOperands x y.negate.1 = alignOperands x y := by
    rw [negated]
    rfl
  have magnitude : y.negate.1.magnitude = y.1.magnitude := by
    rw [negated]
    rfl
  have sum := add_computes x y.negate
  rw [KeepsDigits, aligns, magnitude] at sum
  rw [sub_eq_add, sub_eq_add_neg, ← negate_value]
  obtain ⟨number, isNumber, near, exact_⟩ := sum
  refine ⟨number, isNumber, near, fun keeps => exact_ (keeps.imp_left fun ne => ?_)⟩
  rw [negated]
  revert ne
  cases x.1.sign <;> cases y.1.sign <;> simp [Sign.invert]

theorem mul_computes : Computes (mul x y) (x.1.value * y.1.value)
      (ExponentMin ≤ x.1.exponent + y.1.exponent ∧
        x.1.exponent + y.1.exponent ≤ ExponentMax) := by
  have xLe := x.2.coefficient_le
  have yLe := y.2.coefficient_le
  have product := (Nat.mul_le_mul xLe yLe).trans_lt
    (by decide : MaxCoefficient * MaxCoefficient < 2 ^ 64 * 10 ^ 63)
  have isExact : x.1.value * y.1.value = (resultSign x y).factor *
      ((x.1.coefficient * y.1.coefficient : Nat) * 10 ^ (x.1.exponent + y.1.exponent)) := by
    rw [value, value, magnitude, magnitude, factor_resultSign, zpow_add₀ (by norm_num)]
    push_cast
    ring
  obtain ⟨dropped, isDropped, isWord, least⟩ := @dropHigh_spec 63
    ⟨x.1.coefficient * y.1.coefficient % 2 ^ 64, x.1.coefficient * y.1.coefficient / 2 ^ 64⟩
    (x.1.exponent + y.1.exponent)
    ⟨Nat.mod_lt _ (Nat.pow_pos (by decide)), by
      dsimp only
      have : MaxCoefficient * MaxCoefficient < 2 ^ 64 * 2 ^ 64 := by decide
      exact Nat.div_lt_of_lt_mul ((Nat.mul_le_mul xLe yLe).trans_lt this)⟩
    (by rw [UInt128.number, Nat.div_add_mod']; exact product)
  rw [UInt128.number, Nat.div_add_mod'] at isDropped isWord least
  rw [mul, handle_finite]
  simp only [UInt128.multiply_eq (xLe.trans_lt (by decide)) (yLe.trans_lt (by decide)),
    isDropped, Option.bind_eq_bind, Option.bind_some]
  have divided := Nat.div_add_mod' (x.1.coefficient * y.1.coefficient) (10 ^ dropped)
  have restLt := Nat.mod_lt (x.1.coefficient * y.1.coefficient)
    (Nat.pow_pos (by decide) : 0 < 10 ^ dropped)
  have large : dropped = 0 ∨ 10 ^ 17 * 10 ^ dropped ≤ x.1.coefficient * y.1.coefficient := by
    refine least.imp_right fun word_ => ?_
    rcases dropped with - | dropped
    · exact (by decide : 10 ^ 17 * 10 ^ 0 ≤ 2 ^ 64).trans (by simpa using word_)
    · rw [Nat.add_sub_cancel, Nat.le_div_iff_mul_le (Nat.pow_pos (by decide))] at word_
      refine le_trans ?_ word_
      rw [@Nat.pow_succ' 10 dropped, ← Nat.mul_assoc]
      exact Nat.mul_le_mul_right _ (by decide)
  have keptPos : dropped = 0 ∨ 1 ≤ x.1.coefficient * y.1.coefficient / 10 ^ dropped := by
    refine large.imp_right fun large => ?_
    rw [Nat.le_div_iff_mul_le (Nat.pow_pos (by decide))]
    exact (Nat.mul_le_mul_right _ (by decide)).trans large
  have exactRest : 10 ^ dropped ∣ x.1.coefficient * y.1.coefficient →
      x.1.coefficient * y.1.coefficient % 10 ^ dropped = 0 := Nat.mod_eq_zero_of_dvd
  generalize x.1.coefficient * y.1.coefficient = whole at *
  generalize whole / 10 ^ dropped = kept at *
  generalize whole % 10 ^ dropped = rest at *
  have unit : (0 : ℚ) < 10 ^ dropped := by positivity
  have restRat : (rest : ℚ) / 10 ^ dropped < 1 := by
    rw [div_lt_one unit]
    exact_mod_cast restLt
  have restNonneg : 0 ≤ (rest : ℚ) / 10 ^ dropped := by positivity
  have isMantissa : x.1.value * y.1.value = (resultSign x y).factor *
      ((kept + rest / 10 ^ dropped) * 10 ^ (x.1.exponent + y.1.exponent + dropped)) := by
    rw [isExact, zpow_add₀ (by norm_num) _ (dropped : Int), zpow_natCast, ← divided]
    push_cast
    field_simp
  by_cases infinite : ExponentMax < x.1.exponent + y.1.exponent + dropped ∧ kept = 0
  · have none_ : dropped = 0 := keptPos.resolve_right (by omega)
    refine ⟨_, rfl, fun finite => ?_, fun keeps => ?_⟩
    · rw [encode_of_gt _ _ infinite.1] at finite
      exact absurd finite (by simp [infinity, special, isFinite])
    · have := infinite.1
      rw [none_, Nat.cast_zero, add_zero] at this
      exact absurd keeps.2 this.not_ge
  · refine computes_of_encode isMantissa (by omega)
      (by rw [abs_of_nonneg restNonneg]; exact restRat) ?_ fun keeps fits => ?_
    · rcases Nat.eq_zero_or_pos kept with isZero | some_
      · exact .inl (not_lt.1 fun above => infinite ⟨above, isZero⟩)
      · have : (1 : ℚ) ≤ kept := by exact_mod_cast some_
        exact .inr (by linarith)
    · rcases large with rfl | large
      · rw [Nat.pow_zero] at restLt
        rw [Nat.lt_one_iff.1 restLt, Nat.cast_zero, zero_div, Nat.cast_zero, add_zero]
        exact ⟨rfl, keeps⟩
      · rw [isExact] at fits
        obtain ⟨within, quotient, isQuotient⟩ := fits_scale (by exact_mod_cast large) fits
        have isZero : rest = 0 := exactRest ⟨quotient, by
          rw [Nat.mul_comm]
          exact_mod_cast isQuotient⟩
        rw [isZero, Nat.cast_zero, zero_div]
        have := keeps.1
        exact ⟨rfl, by omega, within⟩

end Decimal
end PalmWebKit
