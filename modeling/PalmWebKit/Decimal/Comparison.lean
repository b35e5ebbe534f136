import PalmWebKit.Decimal.Sums

/-!
# Comparisons

The six operators compare by a difference whose operands may lose digits; its
sign is that of the exact difference all the same.
-/

namespace PalmWebKit
namespace Decimal

/-- The integer behind a sum has the sign of the exact sum. -/
theorem Aligned.sum_sign {lhs rhs lhsRest rhsRest : ℚ} {aligned : AlignedOperands}
    (spec : Aligned lhs rhs aligned lhsRest rhsRest) (left right : Sign) :
    (left.factor * lhs + right.factor * rhs = 0 ↔
      left.factor * aligned.lhsCoefficient + right.factor * aligned.rhsCoefficient = 0) ∧
    (left.factor * lhs + right.factor * rhs < 0 ↔
      left.factor * aligned.lhsCoefficient + right.factor * aligned.rhsCoefficient < 0) := by
  have unit := power_pos aligned.exponent
  have exact_ : left.factor * lhs + right.factor * rhs =
      (left.factor * (aligned.lhsCoefficient + lhsRest) +
        right.factor * (aligned.rhsCoefficient + rhsRest)) * 10 ^ aligned.exponent := by
    rw [spec.lhs_eq, spec.rhs_eq]
    ring
  have isZero : ∀ sum : ℚ, sum * 10 ^ aligned.exponent = 0 ↔ sum = 0 :=
    fun sum => mul_eq_zero_iff_right unit.ne'
  have isNegative : ∀ sum : ℚ, sum * 10 ^ aligned.exponent < 0 ↔ sum < 0 :=
    fun sum => by rw [mul_neg_iff]; simp [unit, unit.not_gt]
  rw [exact_, isZero, isNegative]
  obtain ⟨lhsLow, lhsHigh⟩ := spec.lhsRest_mem
  obtain ⟨rhsLow, rhsHigh⟩ := spec.rhsRest_mem
  rcases spec.rests with ⟨rfl, rfl⟩ | ⟨rfl, large, small⟩ | ⟨rfl, large, small⟩
  · simp only [add_zero, and_self]
  -- one operand is larger than the other by more than what is left out
  all_goals
    have largeRat := (Nat.cast_le (α := ℚ)).2 large
    have smallRat := (Nat.cast_le (α := ℚ)).2 (Nat.succ_le_of_lt small)
    push_cast at largeRat smallRat
    cases left <;> cases right <;> simp only [Sign.factor] <;>
      refine ⟨⟨fun sum => ?_, fun sum => ?_⟩, ⟨fun sum => ?_, fun sum => ?_⟩⟩ <;> linarith

/-- The class and the sign of what the constructor builds. -/
theorem encode_class (sign : Sign) {exponent : Int} (coefficient : Nat)
    (low : ExponentMin ≤ exponent) (high : exponent ≤ ExponentMax) :
    (encode sign exponent coefficient).sign = sign ∧
      if coefficient = 0 then (encode sign exponent coefficient).formatClass = .zero
      else (encode sign exponent coefficient).formatClass = .normal ∨
        (encode sign exponent coefficient).formatClass = .infinity := by
  obtain ⟨dropped, isEncoded, -, least⟩ := encode_spec sign coefficient low high
  rw [isEncoded]
  split_ifs with above isZero isZero
  · rcases least with rfl | large
    · exact absurd above (by simpa using high)
    · rw [isZero, Nat.le_zero, mul_eq_zero] at large
      exact absurd large (by simp)
  · exact ⟨rfl, .inr rfl⟩
  · exact ⟨rfl, rfl⟩
  · exact ⟨rfl, .inl rfl⟩

/-- `compareTo` finds the order of the rationals. -/
theorem compareTo_spec (x y : FiniteDecimal) :
    ∃ result, compareTo x y = some result ∧ result.formatClass ≠ .nan ∧
      (result.isZero = true ↔ x.1.value = y.1.value) ∧
      (result.isZero = false → (result.sign = .negative ↔ x.1.value < y.1.value)) := by
  obtain ⟨aligned, lhsRest, rhsRest, sign, coefficient, -, spec, isSum, sum⟩ := add_spec x y.negate
  have signs := spec.sum_sign x.1.sign y.negate.1.sign
  have difference : x.1.sign.factor * x.1.magnitude + y.negate.1.sign.factor *
      y.negate.1.magnitude = x.1.value - y.1.value := by
    rw [sub_eq_add_neg, ← negate_value y]
    rfl
  rw [difference, ← sum, sub_eq_zero, sub_neg] at signs
  obtain ⟨isSign, isClass⟩ := encode_class sign coefficient spec.le_exponent spec.exponent_le
  generalize isResult : encode sign aligned.exponent coefficient = result at *
  rw [compareTo, sub_eq_add, isSum, Option.bind_eq_bind, Option.bind_some]
  split_ifs at isClass with none_
  · subst none_
    rw [isClass]
    rw [Nat.cast_zero, mul_zero] at signs
    exact ⟨_, rfl, by decide, iff_of_true rfl (signs.1.2 rfl), nofun⟩
  · have different : x.1.value ≠ y.1.value := by
      rw [Ne, signs.1, mul_eq_zero, Nat.cast_eq_zero, not_or]
      exact ⟨by cases sign <;> decide, none_⟩
    have order : sign = .negative ↔ x.1.value < y.1.value := by
      have positive : (0 : ℚ) < coefficient := Nat.cast_pos.2 (Nat.pos_of_ne_zero none_)
      rw [signs.2]
      cases sign
      · exact iff_of_false nofun (by simp [Sign.factor])
      · exact iff_of_true rfl (by simpa [Sign.factor] using positive)
    rcases isClass with isClass | isClass
    · rw [isClass]
      exact ⟨result, rfl, by rw [isClass]; decide,
        iff_of_false (by rw [isZero, isClass]; decide) different, fun _ => isSign ▸ order⟩
    · rw [isClass, isSign]
      cases sign
      · rw [if_neg (by decide), ofInt32, encode_small _ (by decide) (by decide) (by decide)]
        exact ⟨_, rfl, by decide, iff_of_false (by decide) different, fun _ => order⟩
      · rw [if_pos rfl, ofInt32, encode_small _ (by decide) (by decide) (by decide)]
        exact ⟨_, rfl, by decide, iff_of_false (by decide) different, fun _ => order⟩

/-- The operators on any two finite numbers compare the rationals. -/
def ComparesExactly (x y : FiniteDecimal) : Prop :=
  eq x y = some (decide (x.1.value = y.1.value)) ∧
  ne x y = some (decide (x.1.value ≠ y.1.value)) ∧
  lt x y = some (decide (x.1.value < y.1.value)) ∧
  le x y = some (decide (x.1.value ≤ y.1.value)) ∧
  gt x y = some (decide (x.1.value > y.1.value)) ∧
  ge x y = some (decide (x.1.value ≥ y.1.value))

theorem comparesExactly (x y : FiniteDecimal) : ComparesExactly x y := by
  obtain ⟨result, compares, isNumber, isZero, order⟩ := compareTo_spec x y
  have sameValue : x.1 = y.1 → x.1.value = y.1.value := congrArg value
  simp only [ComparesExactly, eq, ne, lt, le, gt, ge, compares, Option.bind_eq_bind,
    Option.bind_some]
  rcases lt_trichotomy x.1.value y.1.value with less | same | greater
  · have different : x.1 ≠ y.1 := fun same => less.ne (sameValue same)
    have notZero : result.isZero = false := by simpa using isZero.not.2 less.ne
    have isSign := (order notZero).2 less
    simp [different, isNumber, notZero, isSign, less, less.le, less.ne, less.not_gt]
  · have isZero := isZero.2 same
    simp [isZero, same, isNumber]
  · have different : x.1 ≠ y.1 := fun same => greater.ne' (sameValue same)
    have notZero : result.isZero = false := by simpa using isZero.not.2 greater.ne'
    have isSign : result.sign = .positive := by
      have := (order notZero).not.2 greater.not_gt
      cases isSign : result.sign
      · rfl
      · exact absurd isSign this
    simp [different, isNumber, notZero, isSign, greater, greater.le, greater.ne', greater.not_gt]

end Decimal
end PalmWebKit
