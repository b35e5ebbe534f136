import PalmWebKit.JavaScript.LexerNumbers

/-!
# Short integers

The loop of the short integers computes the number that the digits denote.  It
has no zero with a sign, so `-0` is the one literal that it reads as another
number than `parseDouble` does.
-/

namespace PalmWebKit
namespace JavaScript

open List WString Json

variable {Number : Type}

/-- The natural number that decimal digits denote. -/
def decimal (digits : WString) : Nat :=
  digits.foldl (fun value unit => value * 10 + (unit.toNat - 48)) 0

/-- `"-"` or nothing. -/
def signText (negative : Bool) : WString :=
  if negative then [45] else []

/-- Integers are converted to the number nearest to them, and zero has a sign.
`integer` is that number for a sign and an absolute value. -/
structure ReadsIntegers (numbers : Numbers Number) (integer : Bool → Nat → Number) : Prop where
  parseDouble_eq : ∀ negative digits, IsInt digits →
    numbers.parseDouble (signText negative ++ digits) = integer negative (decimal digits)
  ofInt_eq : ∀ value : Int, value.natAbs < 2 ^ 31 →
    numbers.ofInt value = integer (decide (value < 0)) value.natAbs
  zeros_differ : integer true 0 ≠ integer false 0

/-! ## The value of the digits -/

variable {digits : WString}

variable (allDigits : ∀ unit ∈ digits, isASCIIDigit unit = true)
include allDigits

theorem foldl_decimal_lt (start : Nat) :
    digits.foldl (fun value unit => value * 10 + (unit.toNat - 48)) start <
      (start + 1) * 10 ^ digits.length := by
  induction digits generalizing start with
  | nil => simp
  | cons unit digits ih =>
    have isDigit := allDigits unit ((.head _) ..)
    simp only [isASCIIDigit, Bool.and_eq_true, decide_eq_true_eq, UInt16.le_iff_toNat_le,
      UInt16.reduceToNat] at isDigit
    have step := ih
      (fun other isIn => allDigits other (.tail _ isIn))
      (start * 10 + (unit.toNat - 48))
    refine Nat.lt_of_lt_of_le step ?_
    rw [length_cons, Nat.pow_succ, Nat.mul_comm (10 ^ digits.length), ← Nat.mul_assoc]
    exact Nat.mul_le_mul_right _ (by omega)

theorem decimal_lt :
    decimal digits < 10 ^ digits.length := by
  simpa [decimal] using foldl_decimal_lt allDigits 0

/-- The loop subtracts `'0'` last. -/
theorem foldl_intValue (start : Nat) :
    digits.foldl (fun (result : Int) unit => result * 10 + (unit.toNat : Int) - 48) start =
      (digits.foldl (fun value unit => value * 10 + (unit.toNat - 48)) start : Nat) := by
  induction digits generalizing start with
  | nil => rfl
  | cons unit digits ih =>
    have isDigit := allDigits unit ((.head _) ..)
    simp only [isASCIIDigit, Bool.and_eq_true, decide_eq_true_eq, UInt16.le_iff_toNat_le,
      UInt16.reduceToNat] at isDigit
    have isStep : (start : Int) * 10 + (unit.toNat : Int) - 48 =
        ((start * 10 + (unit.toNat - 48) : Nat) : Int) := by
      omega
    rw [foldl_cons, isStep]
    exact ih (fun other isIn => allDigits other (.tail _ isIn)) _

omit allDigits

variable {int : WString}

theorem allDigits_of_isInt (isInt : IsInt int) : ∀ unit ∈ int, isASCIIDigit unit = true := by
  rcases isInt with rfl | ⟨unit, others, rfl, low, high, allDigits⟩
  · intro unit isIn
    rw [mem_singleton.1 isIn]
    decide
  · intro other isIn
    rcases mem_cons.1 isIn with rfl | isIn
    · have lower : (48 : UChar) ≤ other := UInt16.le_trans (by decide) low
      simp only [isASCIIDigit, lower, high, decide_true, Bool.and_self]
    · exact allDigits other isIn

theorem intValue_eq (isInt : IsInt int) (negative : Bool) : intValue (signText negative ++ int) =
      if negative then -(decimal int : Int) else decimal int := by
  have allDigits := allDigits_of_isInt isInt
  have isValue := foldl_intValue allDigits 0
  cases negative with
  | true =>
    simp only [signText, if_true, singleton_append, intValue]
    rw [if_pos (by decide)]
    exact congrArg _ isValue
  | false =>
    cases int with
    | nil => rfl
    | cons unit int =>
      have noDash : unit ≠ dash := by
        rintro rfl
        exact absurd (allDigits dash ((.head _) ..)) (by decide)
      simp only [signText, Bool.false_eq_true, if_false, nil_append, intValue, if_neg noDash]
      exact isValue

theorem le_foldl_decimal (digits : WString) (start : Nat) :
    start ≤ digits.foldl (fun value unit => value * 10 + (unit.toNat - 48)) start := by
  induction digits generalizing start with
  | nil => exact Nat.le_refl _
  | cons unit digits ih =>
    have step : start ≤ start * 10 + (unit.toNat - 48) := by omega
    exact Nat.le_trans step (ih _)

/-- Only `0` itself denotes zero. -/
theorem decimal_eq_zero_iff (isInt : IsInt int) : decimal int = 0 ↔ int = [48] := by
  constructor
  · rcases isInt with rfl | ⟨unit, others, rfl, low, high, allDigits⟩
    · exact fun _ => rfl
    · intro isZero
      have atLeast := le_foldl_decimal others (0 * 10 + (unit.toNat - 48))
      rw [decimal, foldl_cons] at isZero
      simp only [UInt16.le_iff_toNat_le, UInt16.reduceToNat] at low
      omega
  · rintro rfl
    decide

/-! ## The one literal that is read as another number -/

section Conversion

variable {numbers : Numbers Number} {integer : Bool → Nat → Number}

/-- A short integer is the number that it denotes, but without the sign of zero. -/
theorem ofInt_intValue (reads : ReadsIntegers numbers integer) {int : WString} (isInt : IsInt int)
    (short : int.length < 10) (negative : Bool) :
    numbers.ofInt (intValue (signText negative ++ int)) =
      integer (negative && decide (decimal int ≠ 0)) (decimal int) := by
  have bound : decimal int < 2 ^ 31 := by
    have isLess := decimal_lt (allDigits_of_isInt isInt)
    have power : 10 ^ int.length ≤ 10 ^ 9 := Nat.pow_le_pow_right (by omega) (by omega)
    omega
  rw [intValue_eq isInt]
  cases negative with
  | true =>
    rw [if_pos rfl, reads.ofInt_eq _ (by omega)]
    have isNegative : decide (-(decimal int : Int) < 0) = (true && decide (decimal int ≠ 0)) := by
      exact decide_eq_decide.2 (by omega)
    rw [isNegative, Int.natAbs_neg, Int.natAbs_natCast]
  | false =>
    rw [reads.ofInt_eq _ (by omega)]
    have isPositive : decide ((decimal int : Int) < 0) = false := decide_eq_false (by omega)
    rfl

theorem eq_minusZero_iff {int : WString} (isInt : IsInt int) {negative : Bool} :
    signText negative ++ int = [45, 48] ↔ negative = true ∧ decimal int = 0 := by
  rw [decimal_eq_zero_iff isInt]
  cases negative with
  | true => simp [signText]
  | false =>
    refine iff_of_false ?_ (by simp)
    rintro rfl
    exact absurd (allDigits_of_isInt isInt 45 (by simp)) (by decide)

/-- In front of another character every number but `-0` is read as it is at the
end of the text. -/
theorem codeNumber_eq_iff (reads : ReadsIntegers numbers integer) {literal : WString}
    (isNumber : IsNumber literal) :
    codeNumber numbers false literal = numbers.parseDouble literal ↔ literal ≠ [45, 48] := by
  have ofOther : ∀ unit ∈ literal, isNumberSign unit = false →
      (codeNumber numbers false literal = numbers.parseDouble literal ↔ literal ≠ [45, 48]) := by
    intro unit isIn other
    refine iff_of_true (codeNumber_eq_parseDouble isIn other) ?_
    rintro rfl
    simp only [mem_cons, not_mem_nil, or_false] at isIn
    rcases isIn with rfl | rfl <;> exact absurd other (by decide)
  obtain ⟨sign, int, fraction, exponent, rfl, isSign, isInt, isFraction, isExponent⟩ := isNumber
  rcases isFraction with rfl | ⟨digits, rfl, -⟩
  · rcases isExponent with rfl | ⟨expSign, digits, rfl | rfl, -⟩
    · obtain ⟨negative, rfl⟩ : ∃ negative, sign = signText negative := by
        rcases isSign with rfl | rfl
        · exact ⟨false, rfl⟩
        · exact ⟨true, rfl⟩
      rw [append_nil, append_nil]
      have isShort := isShortInteger_of_isInt isSign isInt
      by_cases short : (signText negative ++ int).length < 10
      · rw [decide_eq_true short] at isShort
        have isShortInt : int.length < 10 := by
          rw [length_append] at short
          omega
        refine Iff.trans ?_ (not_congr (eq_minusZero_iff isInt)).symm
        rw [codeNumber, isShort, ofInt_intValue reads isInt isShortInt,
          reads.parseDouble_eq _ _ isInt]
        cases negative with
        | false => simp
        | true =>
          by_cases isZero : decimal int = 0
          · simpa [isZero] using reads.zeros_differ.symm
          · simp [isZero]
      · rw [decide_eq_false short] at isShort
        refine iff_of_true (by rw [codeNumber, isShort, if_neg (by decide)]) ?_
        intro isLiteral
        rw [isLiteral] at short
        exact short (by decide)
    · exact ofOther 101 (by simp) (by decide)
    · exact ofOther 69 (by simp) (by decide)
  · exact ofOther 46 (by simp) (by decide)

end Conversion

end JavaScript
end PalmWebKit
