import PalmWebKit.Decimal.Alignment

/-!
# Sums and differences

The exact integer behind `operator+` and `operator-`, and what it says about
the rationals.
-/

namespace PalmWebKit
namespace Decimal

/-- The unary `operator-`. -/
def negate (number : Decimal) : Decimal :=
  if number.formatClass = .nan then number else { number with sign := number.sign.invert }

theorem negate_eq (x : FiniteDecimal) : x.1.negate = { x.1 with sign := x.1.sign.invert } := by
  apply if_neg
  rw [x.2.isClass]
  split <;> decide

theorem factor_invert (sign : Sign) : sign.invert.factor = -sign.factor := by
  cases sign
  · rfl
  · exact (neg_neg 1).symm

def FiniteDecimal.negate (x : FiniteDecimal) : FiniteDecimal :=
  ⟨x.1.negate, by
    rw [negate_eq]
    exact ⟨x.2.isClass, x.2.coefficient_le, x.2.le_exponent, x.2.exponent_le⟩⟩

theorem negate_value (x : FiniteDecimal) : x.1.negate.value = -x.1.value := by
  rw [negate_eq, value, factor_invert, value, neg_mul]
  rfl

/-- A difference is the sum with the negated operand. -/
theorem sub_eq_add (x y : FiniteDecimal) : sub x y = add x y.negate := by
  rw [sub, add, handle_finite, handle_finite]
  have negated : y.negate.1 = { y.1 with sign := y.1.sign.invert } := negate_eq y
  have same : alignOperands x y.negate.1 = alignOperands x y := by
    rw [negated]
    rfl
  rw [same]
  simp only [negated]
  cases x.1.sign <;> cases y.1.sign <;> simp [Sign.invert]

theorem int64_eq {number : Int} (low : -2 ^ 63 ≤ number) (high : number < 2 ^ 63) :
    int64 number = some number := if_pos ⟨low, high⟩

theorem ofResult_spec (lhsSign : Sign) (exponent result : Int) :
    ∃ sign, ofResult lhsSign exponent result = encode sign exponent result.natAbs ∧
      sign.factor * result.natAbs = lhsSign.factor * result := by
  rw [ofResult]
  split_ifs with positive
  · obtain ⟨count, rfl⟩ := Int.eq_ofNat_of_zero_le positive
    exact ⟨lhsSign, rfl, rfl⟩
  · obtain ⟨count, rfl⟩ := Int.exists_eq_neg_ofNat (le_of_lt (not_le.1 positive))
    refine ⟨lhsSign.invert, by simp, ?_⟩
    rw [factor_invert]
    simp

/-- The result of `operator+` before its digits are cut off. -/
theorem add_spec (x y : FiniteDecimal) : ∃ aligned lhsRest rhsRest sign coefficient,
      alignOperands x y = some aligned ∧
      Aligned x.1.magnitude y.1.magnitude aligned lhsRest rhsRest ∧
      add x y = some (encode sign aligned.exponent coefficient) ∧
      sign.factor * (coefficient : ℚ) = x.1.sign.factor * aligned.lhsCoefficient +
        y.1.sign.factor * aligned.rhsCoefficient := by
  obtain ⟨aligned, lhsRest, rhsRest, aligns, spec⟩ := alignOperands_spec x y
  have lhsLe := spec.lhs_le
  have rhsLe := spec.rhs_le
  rw [MaxCoefficient] at lhsLe rhsLe
  generalize isResult : (if x.1.sign = y.1.sign then
    (aligned.lhsCoefficient + aligned.rhsCoefficient : Int)
    else aligned.lhsCoefficient - aligned.rhsCoefficient) = result
  have isWord : int64 result = some result := by
    apply int64_eq
    · split_ifs at isResult <;> omega
    · split_ifs at isResult <;> omega
  have signed : x.1.sign.factor * (result : ℚ) = x.1.sign.factor * aligned.lhsCoefficient +
      y.1.sign.factor * aligned.rhsCoefficient := by
    rw [← isResult]
    cases x.1.sign <;> cases y.1.sign <;> simp [Sign.factor] <;> ring
  rw [add, handle_finite]
  dsimp only
  simp only [aligns, Option.bind_eq_bind, Option.bind_some, isResult, isWord]
  split_ifs with isZero
  · refine ⟨aligned, lhsRest, rhsRest, .positive, 0, rfl, spec, rfl, ?_⟩
    rw [← signed, isZero.2.2, Nat.cast_zero, Int.cast_zero, mul_zero, mul_zero]
  · obtain ⟨sign, isEncoded, exact_⟩ := ofResult_spec x.1.sign aligned.exponent result
    exact ⟨aligned, lhsRest, rhsRest, sign, _, rfl, spec, congrArg some isEncoded,
      exact_.trans signed⟩

end Decimal
end PalmWebKit
