import PalmWebKit.Decimal.Decimal

/-!
# The rationals of decimal numbers

What finite numbers denote, which numbers the constructor builds, and how two
numbers are brought to one exponent.
-/

namespace PalmWebKit
namespace Decimal

def Sign.factor : Sign → ℚ
  | positive => 1
  | negative => -1

/-- What a finite number denotes, without its sign. -/
def magnitude (number : Decimal) : ℚ := number.coefficient * 10 ^ number.exponent

/-- What a finite number denotes. -/
def value (number : Decimal) : ℚ := number.sign.factor * number.magnitude

/-- A finite number as the constructors build it. -/
structure IsNumber (number : Decimal) : Prop where
  isClass : number.formatClass = if number.coefficient = 0 then .zero else .normal
  coefficient_le : number.coefficient ≤ MaxCoefficient
  le_exponent : ExponentMin ≤ number.exponent
  exponent_le : number.exponent ≤ ExponentMax

/-- The finite numbers. -/
abbrev FiniteDecimal := {number : Decimal // number.IsNumber}

theorem IsNumber.finite {number : Decimal} (isNumber : number.IsNumber) : number.isFinite = true := by
  rw [isFinite, isNumber.isClass]
  split <;> rfl

variable (x y : FiniteDecimal)

theorem handle_finite : handle x y = .bothFinite := by
  rw [handle, x.2.finite, y.2.finite]
  rfl

theorem isZero_iff (x : FiniteDecimal) : x.1.isZero = true ↔ x.1.coefficient = 0 := by
  rw [isZero, x.2.isClass]
  split <;> simp [*]

theorem magnitude_nonneg (number : Decimal) : 0 ≤ number.magnitude := by
  unfold magnitude
  positivity

theorem power_pos (exponent : Int) : (0 : ℚ) < 10 ^ exponent := by positivity

/-! ## The constructor -/

theorem dropDigits_spec (coefficient : Nat) (exponent : Int) :
    ∃ dropped : Nat, dropDigits coefficient exponent =
        (coefficient / 10 ^ dropped, exponent + dropped) ∧
      coefficient / 10 ^ dropped ≤ MaxCoefficient ∧
      (dropped = 0 ∨ MaxCoefficient < coefficient / 10 ^ (dropped - 1)) := by
  fun_induction dropDigits coefficient exponent with
  | case1 coefficient exponent large ih =>
    obtain ⟨dropped, isDropped, small, least⟩ := ih
    rw [Nat.div_div_eq_div_mul, ← Nat.pow_succ'] at isDropped small
    refine ⟨dropped + 1, ?_, small, .inr ?_⟩
    · rw [isDropped, Nat.cast_succ, Int.add_assoc, Int.add_comm 1]
    · rw [Nat.add_sub_cancel]
      rcases dropped with - | dropped
      · rwa [Nat.pow_zero, Nat.div_one]
      · rw [Nat.div_div_eq_div_mul, ← Nat.pow_succ'] at least
        exact least.resolve_left (Nat.succ_ne_zero _)
  | case2 coefficient exponent small =>
    refine ⟨0, ?_, ?_, .inl rfl⟩
    · rw [Nat.pow_zero, Nat.div_one, Nat.cast_zero, Int.add_zero]
    · rw [Nat.pow_zero, Nat.div_one]
      exact Nat.le_of_not_lt small

variable {exponent : Int}

/-- Digits are dropped until the rest is a coefficient, and no more of them. -/
theorem encode_spec (sign : Sign) (coefficient : Nat) (low : ExponentMin ≤ exponent)
    (high : exponent ≤ ExponentMax) : ∃ dropped : Nat, encode sign exponent coefficient =
        (if ExponentMax < exponent + dropped then infinity sign
        else ⟨coefficient / 10 ^ dropped, exponent + dropped,
          if coefficient = 0 then .zero else .normal, sign⟩) ∧
      coefficient / 10 ^ dropped ≤ MaxCoefficient ∧
      (dropped = 0 ∨ 10 ^ 17 * 10 ^ dropped ≤ coefficient) := by
  obtain ⟨dropped, isDropped, small, least⟩ := dropDigits_spec coefficient exponent
  refine ⟨dropped, ?_, small, least.imp_right fun large => ?_⟩
  · have above : ¬ exponent + dropped < ExponentMin := by omega
    simp only [encode, if_pos (And.intro low high), isDropped, if_neg above]
  · rcases dropped with - | dropped
    · rw [Nat.zero_sub, Nat.pow_zero, Nat.div_one] at large
      exact (by decide : 10 ^ 17 * 10 ^ 0 ≤ MaxCoefficient).trans (le_of_lt large)
    · rw [Nat.add_sub_cancel, ← Nat.succ_le_iff,
        Nat.le_div_iff_mul_le (Nat.pow_pos (by decide))] at large
      have full : MaxCoefficient.succ = 10 ^ 17 * 10 := by decide
      rw [full] at large
      rwa [@Nat.pow_succ' 10 dropped, ← Nat.mul_assoc]

variable {coefficient : Nat}

theorem encode_small (sign : Sign) (low : ExponentMin ≤ exponent) (high : exponent ≤ ExponentMax)
    (small : coefficient ≤ MaxCoefficient) : encode sign exponent coefficient =
      ⟨coefficient, exponent, if coefficient = 0 then .zero else .normal, sign⟩ := by
  have keeps : dropDigits coefficient exponent = (coefficient, exponent) := by
    rw [dropDigits, if_neg small.not_gt]
  simp only [encode, if_pos (And.intro low high), keeps, if_neg high.not_gt, if_neg low.not_gt]

/-- A finite result keeps the sign and loses less than one unit of its last digit. -/
theorem encode_value {sign : Sign} (low : ExponentMin ≤ exponent) (high : exponent ≤ ExponentMax)
    (finite : (encode sign exponent coefficient).isFinite = true) : ∃ (dropped rest : Nat),
      (encode sign exponent coefficient).sign = sign ∧
      (encode sign exponent coefficient).exponent = exponent + dropped ∧
      coefficient = (encode sign exponent coefficient).coefficient * 10 ^ dropped + rest ∧
      rest < 10 ^ dropped ∧ (dropped = 0 ∨ 10 ^ 17 * 10 ^ dropped ≤ coefficient) := by
  obtain ⟨dropped, isEncoded, -, least⟩ := encode_spec sign coefficient low high
  rw [isEncoded] at finite ⊢
  split_ifs at finite ⊢
  · cases finite
  all_goals exact ⟨dropped, coefficient % 10 ^ dropped, rfl, rfl, (Nat.div_add_mod' _ _).symm,
    Nat.mod_lt _ (Nat.pow_pos (by decide)), least⟩

/-! ## Operands of one exponent -/

theorem digitCount_spec (nonzero : coefficient ≠ 0) (small : coefficient ≤ MaxCoefficient) :
    1 ≤ digitCount coefficient ∧ digitCount coefficient ≤ 18 ∧
      10 ^ (digitCount coefficient - 1) ≤ coefficient ∧
      coefficient < 10 ^ digitCount coefficient := by
  have positive : 1 ≤ digitCount coefficient :=
    lt_digitCount_iff.2 (Nat.one_le_iff_ne_zero.2 nonzero)
  exact ⟨positive, digitCount_le_iff.2 (small.trans_lt (by decide)),
    lt_digitCount_iff.1 (by omega), digitCount_le_iff.1 le_rfl⟩

/-- What the alignment does to an operand with a larger exponent and to the
other one; beyond the precision the first fills all the digits. -/
theorem scaleUp_aligned {coefficient other shift overflow : Nat} (nonzero : coefficient ≠ 0)
    (small : coefficient ≤ MaxCoefficient) (otherSmall : other ≤ MaxCoefficient)
    (some_ : 0 < shift) (isOverflow : overflow = digitCount coefficient + shift - Precision) :
    overflow ≤ shift ∧
      scaleUp coefficient (shift - overflow) = some (coefficient * 10 ^ (shift - overflow)) ∧
      coefficient * 10 ^ (shift - overflow) ≤ MaxCoefficient ∧
      (overflow = 0 ∨ 10 ^ 17 ≤ coefficient * 10 ^ (shift - overflow) ∧
        other < 10 ^ 17 * 10 ^ overflow) := by
  obtain ⟨positive, digits, lower, upper⟩ := digitCount_spec nonzero small
  rw [Precision] at isOverflow
  have scaled : coefficient * 10 ^ (shift - overflow) < 10 ^ 18 := by
    calc coefficient * 10 ^ (shift - overflow)
        < 10 ^ digitCount coefficient * 10 ^ (shift - overflow) :=
          Nat.mul_lt_mul_of_pos_right upper (Nat.pow_pos (by decide))
      _ = 10 ^ (digitCount coefficient + (shift - overflow)) := (Nat.pow_add _ _ _).symm
      _ ≤ 10 ^ 18 := Nat.pow_le_pow_right (by decide) (by omega)
  refine ⟨by omega, scaleUp_eq (by omega) (scaled.trans (by decide)),
    Nat.le_of_lt_succ (scaled.trans_le (by decide)), ?_⟩
  rcases Nat.eq_zero_or_pos overflow with none_ | drops
  · exact .inl none_
  · refine .inr ⟨?_, ?_⟩
    · calc 10 ^ 17 = 10 ^ (digitCount coefficient - 1) * 10 ^ (shift - overflow) := by
            rw [← Nat.pow_add]
            congr 1
            omega
        _ ≤ _ := Nat.mul_le_mul_right _ lower
    · calc other < 10 ^ 17 * 10 ^ 1 := otherSmall.trans_lt (by decide)
        _ ≤ _ := Nat.mul_le_mul_left _ (Nat.pow_le_pow_right (by decide) drops)

/-- Two magnitudes at one exponent: what the coefficients leave out is less than
one each, and only the operand with fewer digits leaves something out. -/
structure Aligned (lhs rhs : ℚ) (aligned : AlignedOperands) (lhsRest rhsRest : ℚ) : Prop where
  lhs_eq : lhs = (aligned.lhsCoefficient + lhsRest) * 10 ^ aligned.exponent
  rhs_eq : rhs = (aligned.rhsCoefficient + rhsRest) * 10 ^ aligned.exponent
  lhs_le : aligned.lhsCoefficient ≤ MaxCoefficient
  rhs_le : aligned.rhsCoefficient ≤ MaxCoefficient
  lhsRest_mem : 0 ≤ lhsRest ∧ lhsRest < 1
  rhsRest_mem : 0 ≤ rhsRest ∧ rhsRest < 1
  rests : lhsRest = 0 ∧ rhsRest = 0 ∨
    lhsRest = 0 ∧ 10 ^ 17 ≤ aligned.lhsCoefficient ∧ aligned.rhsCoefficient < 10 ^ 17 ∨
    rhsRest = 0 ∧ 10 ^ 17 ≤ aligned.rhsCoefficient ∧ aligned.lhsCoefficient < 10 ^ 17
  le_exponent : ExponentMin ≤ aligned.exponent
  exponent_le : aligned.exponent ≤ ExponentMax

theorem Aligned.swap {lhs rhs lhsRest rhsRest : ℚ} {left right : Nat}
    (aligned : Aligned lhs rhs ⟨left, right, exponent⟩ lhsRest rhsRest) :
    Aligned rhs lhs ⟨right, left, exponent⟩ rhsRest lhsRest :=
  ⟨aligned.rhs_eq, aligned.lhs_eq, aligned.rhs_le, aligned.lhs_le, aligned.rhsRest_mem,
    aligned.lhsRest_mem, aligned.rests.imp And.symm Or.symm, aligned.le_exponent,
    aligned.exponent_le⟩

theorem aligned_of_exact {left right : Nat} (leftLe : left ≤ MaxCoefficient)
    (rightLe : right ≤ MaxCoefficient) (low : ExponentMin ≤ exponent)
    (high : exponent ≤ ExponentMax) :
    Aligned (left * 10 ^ exponent) (right * 10 ^ exponent) ⟨left, right, exponent⟩ 0 0 :=
  ⟨by rw [add_zero], by rw [add_zero], leftLe, rightLe, ⟨le_rfl, one_pos⟩, ⟨le_rfl, one_pos⟩,
    .inl ⟨rfl, rfl⟩, low, high⟩

theorem aligned_of_lt (less : y.1.exponent < x.1.exponent)
    (nonzero : x.1.coefficient ≠ 0) : ∃ overflow left rest,
      overflow = digitCount x.1.coefficient + (x.1.exponent - y.1.exponent).toNat - Precision ∧
      scaleUp x.1.coefficient ((x.1.exponent - y.1.exponent).toNat - overflow) = some left ∧
      Aligned x.1.magnitude y.1.magnitude
        ⟨left, y.1.coefficient / 10 ^ overflow, y.1.exponent + overflow⟩ 0 rest := by
  have xHigh := x.2.exponent_le
  have yLow := y.2.le_exponent
  obtain ⟨within, scales, leftLe, fills⟩ := @scaleUp_aligned _ y.1.coefficient
    (x.1.exponent - y.1.exponent).toNat _ nonzero x.2.coefficient_le y.2.coefficient_le (by omega)
    rfl
  generalize digitCount x.1.coefficient + (x.1.exponent - y.1.exponent).toNat - Precision =
    overflow at *
  have power : (0 : ℚ) < 10 ^ overflow := by positivity
  refine ⟨overflow, _, ((y.1.coefficient % 10 ^ overflow : Nat) : ℚ) / 10 ^ overflow, rfl, scales,
    ?_, ?_, leftLe, (Nat.div_le_self _ _).trans y.2.coefficient_le, ⟨le_rfl, one_pos⟩,
    ⟨by positivity, ?_⟩, ?_, ?_, ?_⟩
  · have exponents : x.1.exponent =
        ((x.1.exponent - y.1.exponent).toNat - overflow : Nat) + (y.1.exponent + overflow) := by
      omega
    rw [magnitude, congrArg (fun exponent : Int => (10 : ℚ) ^ exponent) exponents,
      zpow_add₀ (by decide), zpow_natCast]
    push_cast
    ring
  · rw [magnitude, zpow_add₀ (by decide), zpow_natCast]
    nth_rewrite 1 [← Nat.div_add_mod' y.1.coefficient (10 ^ overflow)]
    push_cast
    field_simp
  · rw [div_lt_one power]
    exact_mod_cast Nat.mod_lt _ (Nat.pow_pos (by decide))
  · rcases fills with rfl | ⟨full, less⟩
    · rw [Nat.pow_zero, Nat.mod_one, Nat.cast_zero, zero_div]
      exact .inl ⟨rfl, rfl⟩
    · exact .inr (.inl ⟨rfl, full, (Nat.div_lt_iff_lt_mul (Nat.pow_pos (by decide))).2 less⟩)
  · dsimp only
    omega
  · dsimp only
    omega

/-- What `alignOperands` does to any two finite numbers. -/
theorem alignOperands_spec : ∃ aligned lhsRest rhsRest, alignOperands x y = some aligned ∧
      Aligned x.1.magnitude y.1.magnitude aligned lhsRest rhsRest := by
  have digits := fun z : FiniteDecimal =>
    countDigits_eq (z.2.coefficient_le.trans_lt (by decide : MaxCoefficient < 2 ^ 64))
  have noDigits : ∀ z : FiniteDecimal, digitCount z.1.coefficient = 0 ↔ z.1.coefficient = 0 := by
    intro z
    rw [← Nat.le_zero, digitCount_le_iff, Nat.pow_zero, Nat.lt_one_iff]
  have isZero : ∀ z : FiniteDecimal, z.1.coefficient = 0 → ∀ exponent : Int,
      z.1.magnitude = (0 : Nat) * 10 ^ exponent := by
    intro z isZero exponent
    rw [magnitude, isZero, Nat.cast_zero, zero_mul, zero_mul]
  rw [alignOperands]
  split_ifs with less more
  · rw [digits, Option.bind_eq_bind, Option.bind_some]
    split_ifs with none_
    · rw [noDigits] at none_
      rw [none_, isZero x none_ y.1.exponent]
      exact ⟨_, 0, 0, rfl, aligned_of_exact (Nat.zero_le _) y.2.coefficient_le y.2.le_exponent
        y.2.exponent_le⟩
    · obtain ⟨overflow, left, rest, rfl, scales, aligned⟩ :=
        aligned_of_lt x y less (none_ ∘ (noDigits x).2)
      dsimp only
      rw [scales, scaleDown_eq]
      exact ⟨_, 0, rest, rfl, aligned⟩
  · rw [digits, Option.bind_eq_bind, Option.bind_some]
    split_ifs with none_
    · rw [noDigits] at none_
      rw [none_, isZero y none_ x.1.exponent]
      exact ⟨_, 0, 0, rfl, aligned_of_exact x.2.coefficient_le (Nat.zero_le _) x.2.le_exponent
        x.2.exponent_le⟩
    · obtain ⟨overflow, right, rest, rfl, scales, aligned⟩ :=
        aligned_of_lt y x more (none_ ∘ (noDigits y).2)
      dsimp only
      rw [scales, scaleDown_eq]
      exact ⟨_, rest, 0, rfl, aligned.swap⟩
  · have same : y.1.exponent = x.1.exponent := le_antisymm (not_lt.1 more) (not_lt.1 less)
    refine ⟨_, 0, 0, rfl, ?_⟩
    rw [magnitude, magnitude, same]
    exact aligned_of_exact x.2.coefficient_le y.2.coefficient_le x.2.le_exponent x.2.exponent_le

end Decimal
end PalmWebKit
