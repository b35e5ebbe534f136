import Mathlib

/-!
# The words of a decimal number

The arithmetic on `uint64_t` below `Decimal`, and its 128 bit products. An
operation whose exact result is no word is a fault, `none`.
-/

namespace PalmWebKit
namespace Decimal

/-- The exact result of an operation on `uint64_t`. -/
def word (number : Nat) : Option Nat := if number < 2 ^ 64 then some number else none

theorem word_eq {number : Nat} (small : number < 2 ^ 64) : word number = some number := if_pos small

/-! ## Digits -/

/-- The loop of `countDigits`, for some number of turns. -/
def countDigitsLoop (x : Nat) : Nat → Nat → Nat → Option Nat
  | 0, _, _ => none
  | turns + 1, powerOfTen, numberOfDigits =>
    if x < powerOfTen then some numberOfDigits
    else if (2 ^ 64 - 1) / 10 ≤ powerOfTen then some (numberOfDigits + 1)
    else do countDigitsLoop x turns (← word (powerOfTen * 10)) (numberOfDigits + 1)

def countDigits (x : Nat) : Option Nat := countDigitsLoop x 20 1 0

/-- The number of decimal digits; zero has none. -/
def digitCount (x : Nat) : Nat := (Nat.digits 10 x).length

theorem digitCount_le_iff {x count : Nat} : digitCount x ≤ count ↔ x < 10 ^ count :=
  Nat.digits_length_le_iff (by decide) x

theorem lt_digitCount_iff {x count : Nat} : count < digitCount x ↔ 10 ^ count ≤ x := by
  rw [← not_le, digitCount_le_iff, not_lt]

theorem countDigitsLoop_eq {x count turns : Nat}
    (small : x < 2 ^ 64) (all : count + turns = 20) (some_ : 0 < turns)
    (below : count ≤ digitCount x) :
    countDigitsLoop x turns (10 ^ count) count = some (digitCount x) := by
  induction turns generalizing count with
  | zero => exact absurd some_ (lt_irrefl 0)
  | succ turns ih =>
    rw [countDigitsLoop]
    split_ifs with ends last
    · rw [le_antisymm below (digitCount_le_iff.2 ends)]
    · have top : 19 ≤ count := by
        by_contra less
        exact absurd last (not_le.2 ((Nat.pow_le_pow_right (by decide)
          (by omega : count ≤ 18)).trans_lt (by decide)))
      have long : digitCount x ≤ 20 := digitCount_le_iff.2 (small.trans (by decide))
      have more := lt_digitCount_iff.2 (not_lt.1 ends)
      congr 1
      omega
    · have power : 10 ^ count * 10 < 2 ^ 64 := by omega
      have more := lt_digitCount_iff.2 (not_lt.1 ends)
      have notLast : turns ≠ 0 := by
        rintro rfl
        rw [(by omega : count = 19)] at last
        exact last (by decide)
      rw [word_eq power]
      exact ih (by omega) (Nat.pos_of_ne_zero notLast) more

theorem countDigits_eq {x : Nat} (small : x < 2 ^ 64) : countDigits x = some (digitCount x) :=
  countDigitsLoop_eq small rfl (by decide) (Nat.zero_le _)

/-- `scaleDown`. -/
def scaleDown : Nat → Nat → Nat
  | x, 0 => x
  | x, n + 1 => if x = 0 then x else scaleDown (x / 10) n

theorem scaleDown_eq (x n : Nat) : scaleDown x n = x / 10 ^ n := by
  induction n generalizing x with
  | zero => rw [scaleDown, Nat.pow_zero, Nat.div_one]
  | succ n ih =>
    rw [scaleDown]
    split_ifs with isZero
    · rw [isZero, Nat.zero_div]
    · rw [ih, Nat.div_div_eq_div_mul, ← Nat.pow_succ']

/-- The loop of `scaleUp`, for some number of turns. -/
def scaleUpLoop (x : Nat) : Nat → Nat → Nat → Nat → Option Nat
  | 0, _, _, _ => none
  | turns + 1, n, y, z => do
    let y ← (if n % 2 = 1 then word (y * z) else some y)
    if n / 2 = 0 then word (x * y) else scaleUpLoop x turns (n / 2) y (← word (z * z))

def scaleUp (x n : Nat) : Option Nat := scaleUpLoop x 32 n 1 10

theorem scaleUpLoop_eq {x turns n y z : Nat}
    (enough : n < 2 ^ turns) (some_ : 0 < turns) (positive : 0 < y) (base : 0 < z)
    (power : y * z ^ n < 2 ^ 64) (product : x * (y * z ^ n) < 2 ^ 64) :
    scaleUpLoop x turns n y z = some (x * (y * z ^ n)) := by
  induction turns generalizing n y z with
  | zero => exact absurd some_ (lt_irrefl 0)
  | succ turns ih =>
    have parity : (if n % 2 = 1 then word (y * z) else some y) = some (y * z ^ (n % 2)) := by
      split_ifs with odd
      · rw [odd, Nat.pow_one]
        refine word_eq (lt_of_le_of_lt (Nat.mul_le_mul_left y ?_) power)
        exact Nat.le_self_pow (by omega) z
      · rw [(by omega : n % 2 = 0), Nat.pow_zero, Nat.mul_one]
    have same : y * z ^ (n % 2) * (z * z) ^ (n / 2) = y * z ^ n := by
      rw [← Nat.pow_two, ← Nat.pow_mul, Nat.mul_assoc, ← Nat.pow_add, Nat.mod_add_div]
    rw [scaleUpLoop, parity, Option.bind_eq_bind, Option.bind_some]
    split_ifs with last
    · rw [last, Nat.pow_zero, Nat.mul_one] at same
      rw [same]
      exact word_eq product
    · have square : z * z < 2 ^ 64 := by
        refine lt_of_le_of_lt ?_ power
        calc z * z = z ^ 2 := (Nat.pow_two z).symm
          _ ≤ z ^ n := Nat.pow_le_pow_right base (by omega)
          _ ≤ y * z ^ n := Nat.le_mul_of_pos_left _ positive
      rw [word_eq square, Option.bind_some, ← same]
      have half : n / 2 < 2 ^ turns := by
        rw [Nat.pow_succ] at enough
        omega
      have left : 0 < turns := by
        rcases Nat.eq_zero_or_pos turns with isZero | positive
        · rw [isZero] at half
          omega
        · exact positive
      apply ih half left (Nat.mul_pos positive (Nat.pow_pos base)) (Nat.mul_pos base base)
      · rwa [same]
      · rwa [same]

theorem scaleUp_eq {x n : Nat} (power : n < 18) (product : x * 10 ^ n < 2 ^ 64) :
    scaleUp x n = some (x * 10 ^ n) := by
  have small : 1 * 10 ^ n < 2 ^ 64 := by
    rw [Nat.one_mul]
    exact (Nat.pow_le_pow_right (by decide) (Nat.le_of_lt power)).trans_lt (by decide)
  rw [scaleUp, scaleUpLoop_eq (power.trans (by decide)) (by decide) (by decide) (by decide) small
    (by rwa [Nat.one_mul]), Nat.one_mul]

/-! ## Products of 128 bits -/

/-- `UInt128`. -/
structure UInt128 where
  low : Nat
  high : Nat
  deriving DecidableEq, Repr

/-- The number that a `UInt128` stands for. -/
def UInt128.number (work : UInt128) : Nat := work.high * 2 ^ 64 + work.low

def highUInt32 (x : Nat) : Nat := x / 2 ^ 32

def lowUInt32 (x : Nat) : Nat := x % 2 ^ 32

def multiplyHigh (u v : Nat) : Option Nat := do
  let lowProduct ← word (lowUInt32 u * lowUInt32 v)
  let partialProduct ← word (highUInt32 u * lowUInt32 v + highUInt32 lowProduct)
  let crossProduct ← word (lowUInt32 u * highUInt32 v + lowUInt32 partialProduct)
  word (highUInt32 u * highUInt32 v + highUInt32 partialProduct + highUInt32 crossProduct)

/-- `UInt128::multiply`; the low half is meant to wrap around. -/
def UInt128.multiply (u v : Nat) : Option UInt128 := do
  some ⟨u * v % 2 ^ 64, ← multiplyHigh u v⟩

theorem multiplyHigh_eq {u v : Nat} (left : u < 2 ^ 64) (right : v < 2 ^ 64) :
    multiplyHigh u v = some (u * v / 2 ^ 64) := by
  have parts : ∀ x < 2 ^ 64, ∃ high low, high ≤ 2 ^ 32 - 1 ∧ low ≤ 2 ^ 32 - 1 ∧
      highUInt32 x = high ∧ lowUInt32 x = low ∧ x = high * 2 ^ 32 + low := by
    intro x small
    exact ⟨x / 2 ^ 32, x % 2 ^ 32, by omega, by omega, rfl, rfl, by omega⟩
  obtain ⟨a, b, aLe, bLe, aEq, bEq, rfl⟩ := parts u left
  obtain ⟨c, d, cLe, dLe, cEq, dEq, rfl⟩ := parts v right
  rw [multiplyHigh, aEq, bEq, cEq, dEq, (by ring : (a * 2 ^ 32 + b) * (c * 2 ^ 32 + d) =
      a * c * 2 ^ 64 + (a * d + b * c) * 2 ^ 32 + b * d)]
  have ac := Nat.mul_le_mul aLe cLe
  have ad := Nat.mul_le_mul aLe dLe
  have bc := Nat.mul_le_mul bLe cLe
  have bd := Nat.mul_le_mul bLe dLe
  simp only [Nat.reducePow, Nat.reduceSub, Nat.reduceMul] at ac ad bc bd
  simp only [highUInt32, lowUInt32, Option.bind_eq_bind]
  rw [word_eq (by omega), Option.bind_some, word_eq (by omega), Option.bind_some,
    word_eq (by omega), Option.bind_some, word_eq (by omega)]
  congr 1
  omega

theorem UInt128.multiply_eq {u v : Nat} (left : u < 2 ^ 64) (right : v < 2 ^ 64) :
    UInt128.multiply u v = some ⟨u * v % 2 ^ 64, u * v / 2 ^ 64⟩ := by
  rw [UInt128.multiply, multiplyHigh_eq left right]
  rfl

/-- The loop of `UInt128::operator/=` over the 32 bit parts, the high ones first. -/
def divideParts (divisor : Nat) : List Nat → Nat → List Nat
  | [], _ => []
  | dividend :: parts, remainder =>
    let work := remainder * 2 ^ 32 + dividend
    work / divisor % 2 ^ 32 :: divideParts divisor parts (work % divisor % 2 ^ 32)

/-- The number of some 32 bit parts behind another one. -/
def appendParts (number : Nat) (parts : List Nat) : Nat :=
  parts.foldl (fun high part => high * 2 ^ 32 + part) number

theorem appendParts_divideParts {divisor quotient remainder : Nat} {parts : List Nat}
    (fits : divisor < 2 ^ 32) (less : remainder < divisor) (small : ∀ part ∈ parts, part < 2 ^ 32) :
    appendParts quotient (divideParts divisor parts remainder) =
      appendParts (quotient * divisor + remainder) parts / divisor := by
  have positive : 0 < divisor := Nat.zero_lt_of_lt less
  induction parts generalizing quotient remainder with
  | nil =>
    rw [divideParts, appendParts, appendParts, List.foldl_nil, List.foldl_nil, Nat.mul_comm,
      Nat.mul_add_div positive, Nat.div_eq_of_lt less, Nat.add_zero]
  | cons dividend parts ih =>
    have dividendLt := small dividend (.head _)
    have digit : (remainder * 2 ^ 32 + dividend) / divisor < 2 ^ 32 := by
      rw [Nat.div_lt_iff_lt_mul positive]
      have := Nat.mul_le_mul_right (2 ^ 32) (Nat.succ_le_of_lt less)
      rw [Nat.succ_mul] at this
      omega
    have rest := Nat.mod_lt (remainder * 2 ^ 32 + dividend) positive
    rw [divideParts, appendParts, List.foldl_cons, Nat.mod_eq_of_lt digit,
      Nat.mod_eq_of_lt (rest.trans fits)]
    refine (ih rest fun part member => small part (.tail _ member)).trans ?_
    rw [appendParts, appendParts, List.foldl_cons, Nat.add_mul, Nat.add_assoc, Nat.mul_comm (_ /
      divisor), Nat.div_add_mod, Nat.add_mul, Nat.add_assoc, Nat.mul_right_comm]

/-- `UInt128::operator/=`. -/
def UInt128.divide (work : UInt128) (divisor : Nat) : UInt128 :=
  if work.high = 0 then ⟨work.low / divisor, 0⟩
  else
    match divideParts divisor [highUInt32 work.high, lowUInt32 work.high, highUInt32 work.low,
      lowUInt32 work.low] 0 with
    | [third, second, first, zeroth] => ⟨first * 2 ^ 32 + zeroth, third * 2 ^ 32 + second⟩
    | _ => work

/-- Both halves are words. -/
def UInt128.IsWords (work : UInt128) : Prop := work.low < 2 ^ 64 ∧ work.high < 2 ^ 64

theorem UInt128.divide_spec {work : UInt128} {divisor : Nat}
    (words : work.IsWords) (positive : 0 < divisor) (fits : divisor < 2 ^ 32) :
    (work.divide divisor).number = work.number / divisor ∧ (work.divide divisor).IsWords := by
  obtain ⟨low, high⟩ := words
  have lower := Nat.div_le_self work.low divisor
  rw [UInt128.divide, UInt128.number, UInt128.number]
  split_ifs with isZero
  · simp only [isZero, Nat.zero_mul, Nat.zero_add, true_and]
    exact ⟨lower.trans_lt low, Nat.pow_pos (by decide)⟩
  · have whole := @appendParts_divideParts divisor 0 0 [highUInt32 work.high,
      lowUInt32 work.high, highUInt32 work.low, lowUInt32 work.low] fits positive (by
        intro part member
        simp only [highUInt32, lowUInt32, List.mem_cons, List.not_mem_nil, or_false] at member
        omega)
    have number : appendParts (0 * divisor + 0) [highUInt32 work.high, lowUInt32 work.high,
        highUInt32 work.low, lowUInt32 work.low] = work.high * 2 ^ 64 + work.low := by
      simp only [appendParts, List.foldl_cons, List.foldl_nil, highUInt32, lowUInt32]
      omega
    obtain ⟨third, second, first, zeroth, parts, small⟩ : ∃ third second first zeroth,
        divideParts divisor [highUInt32 work.high, lowUInt32 work.high, highUInt32 work.low,
          lowUInt32 work.low] 0 = [third, second, first, zeroth] ∧
        third < 2 ^ 32 ∧ second < 2 ^ 32 ∧ first < 2 ^ 32 ∧ zeroth < 2 ^ 32 := by
      simp only [divideParts]
      have less : ∀ number, number % 2 ^ 32 < 2 ^ 32 :=
        fun number => Nat.mod_lt number (Nat.pow_pos (by decide))
      exact ⟨_, _, _, _, rfl, less _, less _, less _, less _⟩
    rw [number, parts] at whole
    rw [parts, ← whole]
    simp only [appendParts, List.foldl_cons, List.foldl_nil, Nat.zero_mul, Nat.zero_add,
      UInt128.IsWords]
    omega

/-- The loop of `operator*` that divides by ten while there is a high half. -/
def dropHigh : Nat → UInt128 → Int → Option (Nat × Int)
  | 0, _, _ => none
  | turns + 1, work, exponent =>
    if work.high = 0 then some (work.low, exponent)
    else dropHigh turns (work.divide 10) (exponent + 1)

/-- Digits are dropped until the number is a word, and no more of them. -/
theorem dropHigh_spec {turns : Nat} {work : UInt128} (exponent : Int)
    (words : work.IsWords) (small : work.number < 2 ^ 64 * 10 ^ turns) :
    ∃ dropped : Nat, dropHigh (turns + 1) work exponent =
        some (work.number / 10 ^ dropped, exponent + dropped) ∧
      work.number / 10 ^ dropped < 2 ^ 64 ∧
      (dropped = 0 ∨ 2 ^ 64 ≤ work.number / 10 ^ (dropped - 1)) := by
  have stops : ∀ turns exponent (work : UInt128), work.IsWords → work.high = 0 →
      ∃ dropped : Nat, dropHigh (turns + 1) work exponent =
          some (work.number / 10 ^ dropped, exponent + dropped) ∧
        work.number / 10 ^ dropped < 2 ^ 64 ∧
        (dropped = 0 ∨ 2 ^ 64 ≤ work.number / 10 ^ (dropped - 1)) := by
    intro turns exponent work words isZero
    have isLow : work.number = work.low := by
      rw [UInt128.number, isZero, Nat.zero_mul, Nat.zero_add]
    refine ⟨0, ?_, ?_, .inl rfl⟩
    · rw [dropHigh, if_pos isZero, isLow, Nat.pow_zero, Nat.div_one, Nat.cast_zero, Int.add_zero]
    · rw [isLow, Nat.pow_zero, Nat.div_one]
      exact words.1
  induction turns generalizing work exponent with
  | zero =>
    apply stops 0 exponent work words
    rw [UInt128.number] at small
    omega
  | succ turns ih =>
    by_cases isZero : work.high = 0
    · exact stops _ exponent work words isZero
    · obtain ⟨divided, dividedWords⟩ := UInt128.divide_spec words (by decide : 0 < 10) (by decide)
      have less : (work.divide 10).number < 2 ^ 64 * 10 ^ turns := by
        rw [divided]
        refine Nat.div_lt_of_lt_mul (small.trans_eq ?_)
        rw [Nat.pow_succ 10, Nat.mul_comm 10, Nat.mul_assoc]
      obtain ⟨dropped, isDropped, isWord, least⟩ := ih (exponent + 1) dividedWords less
      rw [divided, Nat.div_div_eq_div_mul, ← Nat.pow_succ'] at isDropped isWord
      refine ⟨dropped + 1, ?_, isWord, .inr ?_⟩
      · rw [dropHigh, if_neg isZero, isDropped, Nat.cast_succ, Int.add_assoc, Int.add_comm 1]
      · rcases least with rfl | least
        · rw [UInt128.number, Nat.add_sub_cancel, Nat.pow_zero, Nat.div_one]
          omega
        · rw [divided, Nat.div_div_eq_div_mul, ← Nat.pow_succ'] at least
          rw [Nat.add_sub_cancel]
          rcases dropped with - | dropped
          · exact least.trans (Nat.div_le_div_left (Nat.pow_le_pow_right (by decide)
              (Nat.zero_le _)) (Nat.pow_pos (by decide)))
          · exact least

end Decimal
end PalmWebKit
