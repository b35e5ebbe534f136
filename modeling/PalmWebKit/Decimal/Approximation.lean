import PalmWebKit.Decimal.Alignment

/-!
# The accuracy of results

The constructor loses less than one unit of the last digit that it keeps, also
of a rational next to the integer that it is given.
-/

namespace PalmWebKit
namespace Decimal

/-- A finite result is off by less than one unit of its last digit; an infinite
one stands for a rational beyond the exponents. -/
def Approximates (result : Decimal) (exact_ : ℚ) : Prop :=
  if result.isFinite = true then |result.value - exact_| < 10 ^ result.exponent
  else 10 ^ (ExponentMax + 1) ≤ |exact_|

theorem abs_factor (sign : Sign) : |sign.factor| = 1 := by
  cases sign <;> norm_num [Sign.factor]

theorem abs_value_sub {number : Decimal} {sign : Sign} (same : number.sign = sign) (exact_ : ℚ) :
    |number.value - sign.factor * exact_| = |number.magnitude - exact_| := by
  rw [value, same, ← mul_sub, abs_mul, abs_factor, one_mul]

theorem factor_resultSign (x y : Decimal) :
    (resultSign x y).factor = x.sign.factor * y.sign.factor := by
  rw [resultSign]
  cases x.sign <;> cases y.sign <;> simp [Sign.factor]

theorem encode_of_lt (sign : Sign) {exponent : Int} (coefficient : Nat)
    (below : exponent < ExponentMin) : encode sign exponent coefficient = zero sign := by
  have notHigh : ¬ ExponentMax < exponent := not_lt.2 (below.le.trans (by decide))
  simp only [encode, if_neg (fun range : _ ∧ _ => below.not_ge range.1), if_neg notHigh,
    if_pos below]

theorem encode_of_gt (sign : Sign) {exponent : Int} (coefficient : Nat)
    (above : ExponentMax < exponent) : encode sign exponent coefficient = infinity sign := by
  simp only [encode, if_neg (fun range : _ ∧ _ => above.not_ge range.2), if_pos above]

theorem power_le {low high : Int} (le : low ≤ high) : (10 : ℚ) ^ low ≤ 10 ^ high :=
  zpow_le_zpow_right₀ (by norm_num) le

/-- The constructor approximates everything within one unit of what it is given. -/
theorem encode_approximates (sign : Sign) {exponent : Int} {coefficient : Nat} {rest : ℚ}
    (small : coefficient < 10 ^ 20) (near : |rest| < 1)
    (notTiny : exponent ≤ ExponentMax ∨ 1 ≤ coefficient + rest) :
    Approximates (encode sign exponent coefficient)
      (sign.factor * ((coefficient + rest) * 10 ^ exponent)) := by
  obtain ⟨restLow, restHigh⟩ := abs_lt.1 near
  have unit := power_pos exponent
  rw [Approximates]
  rcases lt_or_ge exponent ExponentMin with below | low
  · have finite : (zero sign).isFinite = true := rfl
    rw [encode_of_lt sign coefficient below, if_pos finite, @abs_value_sub (zero sign) sign rfl]
    have noMagnitude : (zero sign).magnitude = 0 := zero_mul _
    have smallRat : (coefficient : ℚ) < 10 ^ 20 := by exact_mod_cast small
    have tiny : (10 : ℚ) ^ exponent ≤ 10 ^ (-21 : Int) := power_le (below.le.trans (by decide))
    rw [noMagnitude, zero_sub, abs_neg, abs_mul, abs_of_pos unit]
    have less : |(coefficient : ℚ) + rest| < 10 ^ 21 := by
      rw [abs_lt]
      constructor <;> linarith [(Nat.cast_nonneg coefficient : (0 : ℚ) ≤ coefficient)]
    calc |(coefficient : ℚ) + rest| * 10 ^ exponent
        ≤ |(coefficient : ℚ) + rest| * 10 ^ (-21 : Int) :=
          mul_le_mul_of_nonneg_left tiny (abs_nonneg _)
      _ < 10 ^ 21 * 10 ^ (-21 : Int) := mul_lt_mul_of_pos_right less (by norm_num)
      _ = 10 ^ (zero sign).exponent := by norm_num [zero, special]
  · rcases lt_or_ge ExponentMax exponent with above | high
    · rw [encode_of_gt sign coefficient above, if_neg (by simp [infinity, special, isFinite]),
        abs_mul, abs_factor, one_mul, abs_mul, abs_of_pos unit]
      have large := notTiny.resolve_left above.not_ge
      rw [abs_of_nonneg (by linarith)]
      calc (10 : ℚ) ^ (ExponentMax + 1) ≤ 10 ^ exponent := power_le above
        _ ≤ (coefficient + rest) * 10 ^ exponent := le_mul_of_one_le_left unit.le large
    · split_ifs with finite
      · obtain ⟨dropped, lost, isSign, isExponent, isCoefficient, lostLt, -⟩ :=
          encode_value low high finite
        rw [abs_value_sub isSign, magnitude, isExponent, zpow_add₀ (by norm_num), zpow_natCast]
        have lostRat : (lost : ℚ) + 1 ≤ 10 ^ dropped := by exact_mod_cast lostLt
        have coefficientRat := congrArg (Nat.cast : Nat → ℚ) isCoefficient
        push_cast at coefficientRat
        generalize (encode sign exponent coefficient).coefficient = kept at *
        rw [(by rw [coefficientRat]; ring : (kept : ℚ) * (10 ^ exponent * 10 ^ dropped) -
          (coefficient + rest) * 10 ^ exponent = -(lost + rest) * 10 ^ exponent), abs_mul,
          abs_of_pos unit, mul_comm]
        refine mul_lt_mul_of_pos_left ?_ unit
        rw [abs_neg, abs_lt]
        constructor <;> linarith [(Nat.cast_nonneg lost : (0 : ℚ) ≤ lost)]
      · obtain ⟨dropped, isEncoded, -, least⟩ := encode_spec sign coefficient low high
        rw [isEncoded] at finite
        split_ifs at finite with above isZero
        · have large : 10 ^ 17 * 10 ^ dropped ≤ coefficient := by
            refine least.resolve_left ?_
            rintro rfl
            omega
          have largeRat : (10 ^ 17 : ℚ) * 10 ^ dropped ≤ coefficient := by exact_mod_cast large
          have one : (1 : ℚ) ≤ 10 ^ dropped := one_le_pow₀ (by norm_num)
          rw [abs_mul, abs_factor, one_mul, abs_mul, abs_of_pos unit, abs_of_nonneg (by linarith)]
          calc (10 : ℚ) ^ (ExponentMax + 1) ≤ 10 ^ (exponent + dropped) := power_le above
            _ = 10 ^ dropped * 10 ^ exponent := by
                rw [zpow_add₀ (by norm_num), zpow_natCast, mul_comm]
            _ ≤ (coefficient + rest) * 10 ^ exponent :=
                mul_le_mul_of_nonneg_right (by linarith) unit.le
        · exact absurd rfl finite
        · exact absurd rfl finite

end Decimal
end PalmWebKit
