import PalmWebKit.Decimal.Approximation

/-!
# Division

The long division of `operator/`. Its inner loop multiplies the result by ten
for every zero of the quotient, however many digits the result has.
-/

namespace PalmWebKit
namespace Decimal

/-- The inner loop of `operator/`: remainder, result and exponent. -/
def scaleLoop (divisor : Nat) : Nat → Nat → Nat → Int → Option (Nat × Nat × Int)
  | 0, _, _, _ => none
  | turns + 1, remainder, result, resultExponent =>
    if remainder < divisor then do
      scaleLoop divisor turns (← word (remainder * 10)) (← word (result * 10)) (resultExponent - 1)
    else some (remainder, result, resultExponent)

/-- The outer loop of `operator/`. -/
def divideLoop (divisor turns : Nat) : Nat → Nat → Nat → Int → Option (Nat × Nat × Int)
  | 0, _, _, _ => none
  | rounds + 1, remainder, result, resultExponent =>
    if result < MaxCoefficient / 100 then do
      let (remainder, result, resultExponent) ←
        scaleLoop divisor turns remainder result resultExponent
      let result ← word (result + remainder / divisor)
      if remainder % divisor = 0 then some (0, result, resultExponent)
      else divideLoop divisor turns rounds (remainder % divisor) result resultExponent
    else some (remainder, result, resultExponent)

/-- `operator/`, whose loops are given some number of turns. -/
def divide (turns : Nat) (lhs rhs : Decimal) : Option Decimal :=
  match handle lhs rhs with
  | .bothFinite =>
    if rhs.isZero then some (if lhs.isZero then nan else infinity (resultSign lhs rhs))
    else if lhs.isZero then some (encode (resultSign lhs rhs) (lhs.exponent - rhs.exponent) 0)
    else do
      let (remainder, result, resultExponent) ← divideLoop rhs.coefficient turns turns
        lhs.coefficient 0 (lhs.exponent - rhs.exponent)
      let result ← (if rhs.coefficient / 2 < remainder then word (result + 1) else some result)
      some (encode (resultSign lhs rhs) resultExponent result)
  | .bothInfinity => some nan
  | .eitherNaN value => some value
  | .lhsIsInfinity => some (infinity (resultSign lhs rhs))
  | .rhsIsInfinity => some (zero (resultSign lhs rhs))

/-! ## The digits of a quotient -/

/-- The quotient of two coefficients with some digits behind the point. -/
def quotient (dividend divisor digits : Nat) : Nat := dividend * 10 ^ digits / divisor

/-- The quotient has more digits, and so far it is a number below the precision
with any number of zeros behind it: the long division goes on. -/
def GoesOn (dividend divisor digits : Nat) : Prop :=
  ¬ divisor ∣ dividend * 10 ^ digits ∧ ∃ first ≤ digits,
    quotient dividend divisor first < MaxCoefficient / 100 ∧
      quotient dividend divisor digits = quotient dividend divisor first * 10 ^ (digits - first)

/-- The long division multiplies a result by ten that is too large. -/
def Overflows (dividend divisor : Nat) : Prop :=
  ∃ digits, GoesOn dividend divisor digits ∧ 2 ^ 64 ≤ quotient dividend divisor digits * 10

section Digits

variable {dividend divisor : Nat}

theorem quotient_succ_div (digits : Nat) :
    quotient dividend divisor (digits + 1) / 10 = quotient dividend divisor digits := by
  rw [quotient, quotient, Nat.div_div_eq_div_mul, Nat.pow_succ, ← Nat.mul_assoc,
    Nat.mul_div_mul_right _ _ (by decide)]

theorem GoesOn.pred {digits : Nat} (goesOn : GoesOn dividend divisor (digits + 1)) :
    GoesOn dividend divisor digits := by
  obtain ⟨inexact, first, firstLe, small, zeros⟩ := goesOn
  have back := @quotient_succ_div dividend divisor digits
  refine ⟨fun exact_ => inexact ?_, ?_⟩
  · rw [Nat.pow_succ, ← Nat.mul_assoc]
    exact exact_.mul_right 10
  · rcases Nat.lt_or_ge digits first with beyond | within
    · rw [(by omega : first = digits + 1)] at small
      exact ⟨digits, le_rfl, by omega, by simp⟩
    · refine ⟨first, within, small, ?_⟩
      rw [Nat.succ_sub within, Nat.pow_succ, ← Nat.mul_assoc] at zeros
      rw [← back, zeros, Nat.mul_div_cancel _ (by decide)]

theorem GoesOn.of_le {digits fewer : Nat} (goesOn : GoesOn dividend divisor digits)
    (less : fewer ≤ digits) : GoesOn dividend divisor fewer := by
  induction less with
  | refl => exact goesOn
  | step _ ih => exact ih goesOn.pred

/-- Behind a digit that is not zero the result is below the precision. -/
theorem GoesOn.quotient_lt {digits : Nat} (goesOn : GoesOn dividend divisor digits)
    (lastDigit : digits = 0 ∨
      quotient dividend divisor digits ≠ quotient dividend divisor (digits - 1) * 10) :
    quotient dividend divisor digits < MaxCoefficient / 100 := by
  obtain ⟨-, first, firstLe, small, zeros⟩ := goesOn
  rcases Nat.eq_or_lt_of_le firstLe with rfl | less
  · exact small
  · obtain ⟨digits, rfl⟩ := Nat.exists_eq_add_of_lt (Nat.zero_lt_of_lt less)
    rw [Nat.zero_add] at *
    refine absurd (lastDigit.resolve_left (Nat.succ_ne_zero _)) (not_not.2 ?_)
    rw [Nat.succ_sub (Nat.le_of_lt_succ less), Nat.pow_succ, ← Nat.mul_assoc] at zeros
    rw [Nat.add_sub_cancel, ← quotient_succ_div digits, zeros, Nat.mul_div_cancel _ (by decide)]

theorem GoesOn.succ {digits : Nat} (goesOn : GoesOn dividend divisor digits)
    (inexact : ¬ divisor ∣ dividend * 10 ^ (digits + 1))
    (zero_ : quotient dividend divisor (digits + 1) = quotient dividend divisor digits * 10) :
    GoesOn dividend divisor (digits + 1) := by
  obtain ⟨-, first, firstLe, small, zeros⟩ := goesOn
  refine ⟨inexact, first, Nat.le_succ_of_le firstLe, small, ?_⟩
  rw [zero_, zeros, Nat.succ_sub firstLe, Nat.pow_succ, Nat.mul_assoc]

/-- While nothing overflows, the long division ends. -/
theorem GoesOn.digits_lt {digits : Nat} (goesOn : GoesOn dividend divisor digits)
    (fits : ¬ Overflows dividend divisor) (nonzero : dividend ≠ 0) (positive : 0 < divisor)
    (small : divisor ≤ MaxCoefficient) : digits < 38 := by
  by_contra many
  refine fits ⟨37, goesOn.of_le (by omega), ?_⟩
  have large : 10 ^ 19 ≤ quotient dividend divisor 37 := by
    rw [quotient, Nat.le_div_iff_mul_le positive]
    calc 10 ^ 19 * divisor ≤ 10 ^ 19 * 10 ^ 18 := Nat.mul_le_mul_left _ (small.trans (by decide))
      _ = 1 * 10 ^ 37 := by decide
      _ ≤ dividend * 10 ^ 37 := Nat.mul_le_mul_right _ (Nat.one_le_iff_ne_zero.2 nonzero)
  omega

/-- The results of the long division can be rounded up. -/
theorem quotient_small {digits : Nat} (start : digits = 0 ∨ GoesOn dividend divisor (digits - 1))
    (fits : ¬ Overflows dividend divisor) (small : dividend ≤ MaxCoefficient) :
    quotient dividend divisor digits + 1 < 2 ^ 64 := by
  rcases digits with - | digits
  · rw [quotient, Nat.pow_zero, Nat.mul_one]
    have := (Nat.div_le_self dividend divisor).trans small
    rw [MaxCoefficient] at this
    omega
  · have goesOn := start.resolve_left (Nat.succ_ne_zero _)
    rw [Nat.add_sub_cancel] at goesOn
    have back := @quotient_succ_div dividend divisor digits
    have word_ : quotient dividend divisor digits * 10 < 2 ^ 64 :=
      not_le.1 fun large => fits ⟨digits, goesOn, large⟩
    obtain ⟨-, first, firstLe, below, zeros⟩ := goesOn
    rw [MaxCoefficient] at below
    -- a result as large as a word ends with a zero
    rcases Nat.eq_zero_or_pos (digits - first) with same | more
    · rw [same, Nat.pow_zero, Nat.mul_one] at zeros
      omega
    · obtain ⟨count, isCount⟩ := Nat.exists_eq_add_of_lt more
      rw [isCount, Nat.zero_add, Nat.pow_succ, ← Nat.mul_assoc] at zeros
      omega

/-! ## The loops -/

/-- Result and remainder behind some digits. -/
def IsDivided (dividend divisor digits remainder result : Nat) : Prop :=
  result * divisor + remainder = dividend * 10 ^ digits

variable {digits remainder result : Nat}

variable (divided : IsDivided dividend divisor digits remainder result)
include divided

theorem IsDivided.eq (less : remainder < divisor) :
    result = quotient dividend divisor digits ∧ remainder = dividend * 10 ^ digits % divisor := by
  have positive := Nat.zero_lt_of_lt less
  rw [quotient, ← divided, Nat.mul_comm, Nat.mul_add_div positive, Nat.div_eq_of_lt less,
    Nat.mul_add_mod, Nat.mod_eq_of_lt less]
  exact ⟨rfl, rfl⟩

theorem IsDivided.scale :
    IsDivided dividend divisor (digits + 1) (remainder * 10) (result * 10) := by
  rw [IsDivided, Nat.pow_succ, ← Nat.mul_assoc, ← divided]
  ring

theorem IsDivided.divide :
    IsDivided dividend divisor digits (remainder % divisor) (result + remainder / divisor) := by
  rw [IsDivided, Nat.add_mul, Nat.add_assoc, Nat.div_add_mod']
  exact divided

omit divided

theorem word_some {number result : Nat} (isWord : word number = some result) :
    number < 2 ^ 64 ∧ result = number := by
  rw [word] at isWord
  split_ifs at isWord with small
  exact ⟨small, (Option.some_inj.1 isWord).symm⟩

theorem IsDivided.dvd_iff (divided : IsDivided dividend divisor digits remainder result)
    (less : remainder < divisor) : divisor ∣ dividend * 10 ^ digits ↔ remainder = 0 := by
  rw [Nat.dvd_iff_mod_eq_zero, (divided.eq less).2]

/-- A zero of the quotient does not end the long division. -/
theorem GoesOn.scale (goesOn : GoesOn dividend divisor digits)
    (divided : IsDivided dividend divisor digits remainder result)
    (less : remainder * 10 < divisor) : GoesOn dividend divisor (digits + 1) := by
  have lessNow : remainder < divisor := by omega
  have inexact := goesOn.1
  rw [divided.dvd_iff lessNow] at inexact
  apply goesOn.succ
  · rw [divided.scale.dvd_iff less]
    omega
  · rw [← (divided.scale.eq less).1, (divided.eq lessNow).1]

variable {exponent : Int}

/-- What the inner loop has done where it ends. -/
theorem scaleLoop_some {turns digits remainder result : Nat} {after : Nat × Nat × Int}
    (divided : IsDivided dividend divisor digits remainder result)
    (goesOn : remainder < divisor → GoesOn dividend divisor digits)
    (ends : scaleLoop divisor turns remainder result exponent = some after) :
    ∃ count : Nat, IsDivided dividend divisor (digits + count) after.1 after.2.1 ∧
      divisor ≤ after.1 ∧ after.2.2 = exponent - count ∧
      (∀ other < count, quotient dividend divisor (digits + other) * 10 < 2 ^ 64) ∧
      (count = 0 ∧ divisor ≤ remainder ∧ after.2.1 = result ∨
        0 < count ∧ GoesOn dividend divisor (digits + count - 1) ∧
        after.2.1 = quotient dividend divisor (digits + count - 1) * 10) := by
  induction turns generalizing digits remainder result exponent with
  | zero => cases ends
  | succ turns ih =>
    rw [scaleLoop] at ends
    split_ifs at ends with less
    · obtain ⟨_, isRemainder, ends⟩ := Option.bind_eq_some_iff.1 ends
      obtain ⟨_, isResult, ends⟩ := Option.bind_eq_some_iff.1 ends
      obtain ⟨-, rfl⟩ := word_some isRemainder
      obtain ⟨small, rfl⟩ := word_some isResult
      obtain ⟨count, counted, within, isExponent, words, last⟩ :=
        ih divided.scale (fun less' => (goesOn less).scale divided less') ends
      rw [Nat.add_assoc, Nat.add_comm 1] at counted last
      refine ⟨count + 1, counted, within, ?_, fun other less => ?_, .inr ?_⟩
      · rw [isExponent]
        push_cast
        ring
      · rcases other with - | other
        · rwa [Nat.add_zero, ← (divided.eq ‹_›).1]
        · rw [Nat.add_comm other, ← Nat.add_assoc]
          exact words other (Nat.lt_of_succ_lt_succ less)
      · rcases last with ⟨rfl, -, isLast⟩ | ⟨-, last⟩
        · exact ⟨Nat.one_pos, goesOn less, by rw [isLast, (divided.eq less).1]; rfl⟩
        · exact ⟨Nat.succ_pos _, last⟩
    · cases ends
      exact ⟨0, divided, not_lt.1 less, by simp, nofun, .inl ⟨rfl, not_lt.1 less, rfl⟩⟩

theorem scaleLoop_total {turns digits remainder result : Nat} {exponent : Int}
    (divided : IsDivided dividend divisor digits remainder result)
    (goesOn : remainder < divisor → GoesOn dividend divisor digits)
    (start : digits = 0 ∨ GoesOn dividend divisor (digits - 1))
    (fits : ¬ Overflows dividend divisor) (nonzero : dividend ≠ 0) (positive : 0 < divisor)
    (small : divisor ≤ MaxCoefficient) (enough : 40 ≤ digits + turns) :
    ∃ after, scaleLoop divisor turns remainder result exponent = some after := by
  induction turns generalizing digits remainder result exponent with
  | zero =>
    have := (start.resolve_left (by omega)).digits_lt fits nonzero positive small
    omega
  | succ turns ih =>
    rw [scaleLoop]
    split_ifs with less
    · have word_ : result * 10 < 2 ^ 64 := by
        rw [(divided.eq less).1]
        exact not_le.1 fun large => fits ⟨digits, goesOn less, large⟩
      rw [MaxCoefficient] at small
      rw [word_eq word_, word_eq (by omega)]
      exact ih divided.scale (fun less' => (goesOn less).scale divided less')
        (.inr (goesOn less)) (by omega)
    · exact ⟨_, rfl⟩

/-- Where the outer loop begins a round. -/
structure AtRound (dividend divisor digits remainder result : Nat) : Prop where
  divided : IsDivided dividend divisor digits remainder result
  inexact : remainder ≠ 0
  start : digits = 0 ∨ GoesOn dividend divisor (digits - 1)
  entry : digits = 0 ∧ result = 0 ∨ remainder < divisor ∧ 1 ≤ result ∧ (digits = 0 ∨
    quotient dividend divisor digits ≠ quotient dividend divisor (digits - 1) * 10)

theorem AtRound.goesOn (round : AtRound dividend divisor digits remainder result)
    (below : result < MaxCoefficient / 100) (less : remainder < divisor) :
    GoesOn dividend divisor digits := by
  refine ⟨(round.divided.dvd_iff less).not.2 round.inexact, digits, le_rfl, ?_, by simp⟩
  rwa [← (round.divided.eq less).1]

/-- A round ends with a digit that is not zero. -/
theorem AtRound.next {turns digits remainder result : Nat} {after : Nat × Nat × Int}
    (round : AtRound dividend divisor digits remainder result) (positive : 0 < divisor)
    (below : result < MaxCoefficient / 100)
    (ends : scaleLoop divisor turns remainder result exponent = some after) :
    ∃ count : Nat, after.2.2 = exponent - count ∧ (count = 0 → divisor ≤ remainder) ∧
      (∀ other < count, quotient dividend divisor (digits + other) * 10 < 2 ^ 64) ∧
      (digits + count = 0 ∨ GoesOn dividend divisor (digits + count - 1)) ∧
      after.2.1 + after.1 / divisor = quotient dividend divisor (digits + count) ∧
      after.1 % divisor = dividend * 10 ^ (digits + count) % divisor ∧
      1 ≤ quotient dividend divisor (digits + count) ∧
      (after.1 % divisor ≠ 0 → AtRound dividend divisor (digits + count) (after.1 % divisor)
        (after.2.1 + after.1 / divisor)) := by
  obtain ⟨count, counted, within, isExponent, words, last⟩ :=
    scaleLoop_some round.divided (round.goesOn below) ends
  have less := Nat.mod_lt after.1 positive
  have eqs := counted.divide.eq less
  have digit : 1 ≤ after.1 / divisor := (Nat.one_le_div_iff positive).2 within
  have start : digits + count = 0 ∨ GoesOn dividend divisor (digits + count - 1) := by
    rcases last with ⟨rfl, -, -⟩ | last
    · exact round.start
    · exact .inr last.2.1
  refine ⟨count, isExponent, ?_, words, start, eqs.1, eqs.2, by omega,
    fun inexact => ⟨counted.divide, inexact, start, .inr ⟨less, by omega, ?_⟩⟩⟩
  · rintro rfl
    exact (last.resolve_right fun more => absurd more.1 (lt_irrefl 0)).2.1
  · rcases last with ⟨rfl, large, -⟩ | last
    · exact .inl (round.entry.resolve_right fun other => absurd other.1 large.not_gt).1
    · exact .inr (by omega)

theorem divideLoop_none {turns rounds digits remainder result overflow : Nat}
    (round : AtRound dividend divisor digits remainder result) (positive : 0 < divisor)
    (goesOn : GoesOn dividend divisor overflow)
    (large : 2 ^ 64 ≤ quotient dividend divisor overflow * 10) (ahead : digits ≤ overflow) :
    divideLoop divisor turns rounds remainder result exponent = none := by
  induction rounds generalizing digits remainder result exponent with
  | zero => rfl
  | succ rounds ih =>
    have below : result < MaxCoefficient / 100 := by
      rcases round.entry with start | ⟨less, -, lastDigit⟩
      · rw [start.2]
        decide
      · rw [(round.divided.eq less).1]
        exact (goesOn.of_le ahead).quotient_lt lastDigit
    rw [divideLoop, if_pos below]
    rcases ends : scaleLoop divisor turns remainder result exponent with - | after
    · rfl
    · obtain ⟨count, -, -, words, -, -, isRest, -, next⟩ := round.next positive below ends
      have further : digits + count ≤ overflow := by
        by_contra passed
        have := words (overflow - digits) (by omega)
        rw [Nat.add_sub_cancel' ahead] at this
        omega
      have inexact : after.1 % divisor ≠ 0 := by
        rw [isRest, Ne, ← Nat.dvd_iff_mod_eq_zero]
        exact (goesOn.of_le further).1
      simp only [Option.bind_eq_bind, Option.bind_some, if_neg inexact]
      rcases isWord : word (after.2.1 + after.1 / divisor) with - | sum
      · rfl
      · rw [Option.bind_some, (word_some isWord).2]
        exact ih (next inexact) further

theorem divideLoop_total {turns rounds digits remainder result : Nat} {exponent : Int}
    (round : AtRound dividend divisor digits remainder result) (nonzero : dividend ≠ 0)
    (positive : 0 < divisor) (dividendLe : dividend ≤ MaxCoefficient)
    (divisorLe : divisor ≤ MaxCoefficient) (fits : ¬ Overflows dividend divisor)
    (manyTurns : 40 ≤ turns) (manyRounds : (if remainder < divisor then 40 else 41) ≤ digits + rounds) :
    ∃ last : Nat, divideLoop divisor turns rounds remainder result exponent =
        some (dividend * 10 ^ last % divisor, quotient dividend divisor last,
          exponent + digits - last) ∧
      quotient dividend divisor last + 1 < 2 ^ 64 ∧ 1 ≤ quotient dividend divisor last := by
  induction rounds generalizing digits remainder result exponent with
  | zero =>
    rcases round.start with rfl | goesOn
    · split_ifs at manyRounds
      all_goals omega
    · have := goesOn.digits_lt fits nonzero positive divisorLe
      split_ifs at manyRounds
      all_goals omega
  | succ rounds ih =>
    rw [divideLoop]
    split_ifs with below
    · obtain ⟨after, ends⟩ := @scaleLoop_total dividend divisor turns digits remainder result
        exponent round.divided (round.goesOn below) round.start fits nonzero positive divisorLe
        (by omega)
      obtain ⟨count, isExponent, some_, words, start, isQuotient, isRest, digit, next⟩ :=
        round.next positive below ends
      have small := quotient_small start fits dividendLe
      rw [ends]
      simp only [Option.bind_eq_bind, Option.bind_some]
      rw [isQuotient, word_eq (by omega), Option.bind_some]
      split_ifs with exact_
      · refine ⟨digits + count, ?_, small, digit⟩
        rw [← isRest, exact_, isExponent]
        push_cast
        rw [← sub_sub, add_sub_cancel_right]
      · have atNext := next exact_
        rw [isQuotient] at atNext
        obtain ⟨last, isLast, bounds⟩ := @ih (digits + count) (after.1 % divisor) _ after.2.2 atNext (by
          rw [if_pos (Nat.mod_lt _ positive)]
          split_ifs at manyRounds with less
          · have := some_.mt (not_le.2 less)
            omega
          · omega)
        refine ⟨last, ?_, bounds⟩
        rw [isLast, isExponent]
        push_cast
        ring_nf
    · rcases round.entry with start | ⟨less, digit, -⟩
      · rw [start.2] at below
        exact absurd (by decide) below
      · obtain ⟨isQuotient, isRest⟩ := round.divided.eq less
        refine ⟨digits, ?_, ?_, ?_⟩
        · rw [← isRest, ← isQuotient, add_sub_cancel_right]
        · exact quotient_small round.start fits dividendLe
        · rwa [← isQuotient]

end Digits

/-! ## The operator -/

/-- The loops end without an overflow, and the result is as close as its last digit. -/
def Divides (x y : FiniteDecimal) : Prop :=
  ∃ turns result, divide turns x y = some result ∧ Approximates result (x.1.value / y.1.value)

theorem value_div_value (x y : FiniteDecimal) : x.1.value / y.1.value = (resultSign x y).factor *
      ((x.1.coefficient : ℚ) / y.1.coefficient * 10 ^ (x.1.exponent - y.1.exponent)) := by
  have inverse : (y.1.sign.factor)⁻¹ = y.1.sign.factor := by
    cases y.1.sign <;> norm_num [Sign.factor]
  rw [value, value, magnitude, magnitude, factor_resultSign, zpow_sub₀ (by norm_num)]
  simp only [div_eq_mul_inv, mul_inv, inverse]
  ring

/-- The quotient is the result of the long division and less than one more. -/
theorem div_eq_quotient {dividend divisor : Nat} (positive : 0 < divisor) (digits : Nat)
    (exponent : Int) :
    (dividend : ℚ) / divisor * 10 ^ exponent = (quotient dividend divisor digits +
      ((dividend * 10 ^ digits % divisor : Nat) : ℚ) / divisor) * 10 ^ (exponent - digits) := by
  have divided := congrArg (Nat.cast : Nat → ℚ) (Nat.div_add_mod (dividend * 10 ^ digits) divisor)
  have positiveRat : (divisor : ℚ) ≠ 0 := Nat.cast_ne_zero.2 positive.ne'
  rw [zpow_sub₀ (by norm_num), zpow_natCast, ← quotient] at *
  generalize (dividend * 10 ^ digits % divisor) = rest at *
  push_cast at divided
  field_simp
  rw [← divided]

theorem atRound_start {dividend divisor : Nat} (nonzero : dividend ≠ 0) :
    AtRound dividend divisor 0 dividend 0 :=
  ⟨by rw [IsDivided, Nat.zero_mul, Nat.zero_add, Nat.pow_zero, Nat.mul_one], nonzero, .inl rfl,
    .inl ⟨rfl, rfl⟩⟩

theorem not_isZero {x : FiniteDecimal} (nonzero : x.1.coefficient ≠ 0) : x.1.isZero = false := by
  simpa using (isZero_iff x).not.2 nonzero

theorem not_divides {x y : FiniteDecimal} (nonzero : y.1.coefficient ≠ 0)
    (overflows : Overflows x.1.coefficient y.1.coefficient) : ¬ Divides x y := by
  obtain ⟨overflow, goesOn, large⟩ := overflows
  have dividend : x.1.coefficient ≠ 0 := by
    intro isZero
    exact goesOn.1 (by rw [isZero, Nat.zero_mul]; exact Nat.dvd_zero _)
  rintro ⟨turns, result, isResult, -⟩
  simp only [divide, handle_finite, not_isZero nonzero, not_isZero dividend, Bool.false_eq_true,
    if_false, divideLoop_none (atRound_start dividend) (Nat.pos_of_ne_zero nonzero) goesOn large
      (Nat.zero_le _)] at isResult
  cases isResult

theorem divides_of_fits {x y : FiniteDecimal} (dividend : x.1.coefficient ≠ 0)
    (nonzero : y.1.coefficient ≠ 0) (fits : ¬ Overflows x.1.coefficient y.1.coefficient) :
    Divides x y := by
  have positive := Nat.pos_of_ne_zero nonzero
  obtain ⟨last, isLast, small, digit⟩ := @divideLoop_total _ _ 64 64 0 _ 0
    (x.1.exponent - y.1.exponent) (atRound_start dividend) dividend positive x.2.coefficient_le
    y.2.coefficient_le fits (by decide) (by split_ifs <;> decide)
  rw [Divides, value_div_value, div_eq_quotient positive last]
  refine ⟨64, ?_⟩
  simp only [divide, handle_finite, not_isZero nonzero, not_isZero dividend, Bool.false_eq_true,
    if_false, isLast, Option.bind_eq_bind, Option.bind_some, Nat.cast_zero, add_zero]
  have rest := Nat.mod_lt (x.1.coefficient * 10 ^ last) positive
  have positiveRat : (0 : ℚ) < y.1.coefficient := Nat.cast_pos.2 positive
  have digitRat : (1 : ℚ) ≤ quotient x.1.coefficient y.1.coefficient last := by
    exact_mod_cast digit
  have isUp : ∀ up : y.1.coefficient / 2 < x.1.coefficient * 10 ^ last % y.1.coefficient,
      0 < x.1.coefficient * 10 ^ last % y.1.coefficient := fun up => Nat.zero_lt_of_lt up
  generalize x.1.coefficient * 10 ^ last % y.1.coefficient = remainder at *
  generalize quotient x.1.coefficient y.1.coefficient last = result at *
  have restLt : (remainder : ℚ) / y.1.coefficient < 1 := by
    rw [div_lt_one positiveRat]
    exact_mod_cast rest
  have restLe : 0 ≤ (remainder : ℚ) / y.1.coefficient := by positivity
  split_ifs with up
  · have some_ := div_pos (Nat.cast_pos.2 (isUp up)) positiveRat
    have near := @encode_approximates (resultSign x y) (x.1.exponent - y.1.exponent - last)
      (result + 1) ((remainder : ℚ) / y.1.coefficient - 1) (by omega)
      (by rw [abs_lt]; constructor <;> linarith) (.inr (by push_cast; linarith))
    rw [Nat.cast_succ, add_add_sub_cancel] at near
    rw [word_eq small]
    exact ⟨_, rfl, near⟩
  · exact ⟨_, rfl, encode_approximates _ (by omega) (by rw [abs_lt]; constructor <;> linarith)
      (.inr (by linarith))⟩

theorem zero_divides_iff {x y : FiniteDecimal} (isZero : x.1.coefficient = 0)
    (nonzero : y.1.coefficient ≠ 0) :
    Divides x y ↔ ¬ ExponentMax < x.1.exponent - y.1.exponent := by
  rw [Divides, value_div_value]
  simp only [divide, handle_finite, not_isZero nonzero, (isZero_iff x).2 isZero,
    Bool.false_eq_true, if_false, if_true, isZero, Nat.cast_zero, zero_div, zero_mul, mul_zero]
  constructor
  · rintro ⟨-, result, isResult, near⟩ above
    have infinite : ¬ (infinity (resultSign x y)).isFinite = true := by
      simp [infinity, special, isFinite]
    rw [← Option.some_inj.1 isResult, encode_of_gt _ _ above, Approximates, if_neg infinite,
      abs_zero] at near
    exact (power_pos _).not_ge near
  · intro within
    have near := @encode_approximates (resultSign x y) (x.1.exponent - y.1.exponent) 0 0
      (by decide) (by norm_num) (.inl (not_lt.1 within))
    rw [Nat.cast_zero, add_zero, zero_mul, mul_zero] at near
    exact ⟨0, _, rfl, near⟩

/-- The coefficient of a number with exponent 0. -/
def ofCoefficient (coefficient : Nat) (small : coefficient ≤ MaxCoefficient) : FiniteDecimal :=
  ⟨⟨coefficient, 0, if coefficient = 0 then .zero else .normal, .positive⟩, rfl, small,
    Int.neg_nonpos_of_nonneg (by decide), Int.natCast_nonneg _⟩

end Decimal
end PalmWebKit
