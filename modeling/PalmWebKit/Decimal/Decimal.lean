import PalmWebKit.Decimal.Words

/-!
# Decimal numbers

`Decimal` with its operators on `uint64_t` coefficients and exponents between
-1023 and 1023. An operation on words that overflows is `none`.
-/

namespace PalmWebKit

/-- The sign of a `Decimal`. -/
inductive Decimal.Sign
  | positive
  | negative
  deriving DecidableEq, Repr

/-- `EncodedData::FormatClass`. -/
inductive Decimal.FormatClass
  | infinity
  | normal
  | nan
  | zero
  deriving DecidableEq, Repr

/-- `Decimal`, with the fields of its `EncodedData`. -/
structure Decimal where
  coefficient : Nat
  exponent : Int
  formatClass : Decimal.FormatClass
  sign : Decimal.Sign
  deriving DecidableEq, Repr

namespace Decimal

/-- `invertSign`. -/
def Sign.invert : Sign → Sign
  | positive => negative
  | negative => positive

/-! ## Constructors -/

def ExponentMax : Int := 1023

def ExponentMin : Int := -1023

def Precision : Nat := 18

def MaxCoefficient : Nat := 999999999999999999

/-- The constructor of `EncodedData` from a sign and a class. -/
def special (sign : Sign) (formatClass : FormatClass) : Decimal := ⟨0, 0, formatClass, sign⟩

def infinity (sign : Sign) : Decimal := special sign .infinity

def nan : Decimal := special .positive .nan

def zero (sign : Sign) : Decimal := special sign .zero

/-- The loop of the constructor of `EncodedData`. -/
def dropDigits (coefficient : Nat) (exponent : Int) : Nat × Int :=
  if MaxCoefficient < coefficient then dropDigits (coefficient / 10) (exponent + 1)
  else (coefficient, exponent)
termination_by coefficient
decreasing_by exact Nat.div_lt_self (Nat.zero_lt_of_lt ‹_›) (by decide)

/-- The constructor of `EncodedData` from a sign, an exponent and a coefficient. -/
def encode (sign : Sign) (exponent : Int) (coefficient : Nat) : Decimal :=
  let formatClass := if coefficient = 0 then .zero else .normal
  let dropped := if ExponentMin ≤ exponent ∧ exponent ≤ ExponentMax then
    dropDigits coefficient exponent else (coefficient, exponent)
  if ExponentMax < dropped.2 then infinity sign
  else if dropped.2 < ExponentMin then zero sign
  else ⟨dropped.1, dropped.2, formatClass, sign⟩

/-- The constructor from an `int32_t`. -/
def ofInt32 (i32 : Int) : Decimal := encode (if i32 < 0 then .negative else .positive) 0 i32.natAbs

def isFinite (number : Decimal) : Bool :=
  number.formatClass ≠ .infinity && number.formatClass ≠ .nan

def isZero (number : Decimal) : Bool := number.formatClass = .zero

/-! ## Operators -/

/-- What `SpecialValueHandler::handle` finds, with its `value`. -/
inductive HandleResult
  | bothFinite
  | bothInfinity
  | eitherNaN (value : Decimal)
  | lhsIsInfinity
  | rhsIsInfinity

def handle (lhs rhs : Decimal) : HandleResult :=
  if lhs.isFinite && rhs.isFinite then .bothFinite
  else if lhs.formatClass = .nan then .eitherNaN lhs
  else if rhs.formatClass = .nan then .eitherNaN rhs
  else if lhs.formatClass = .infinity then
    if rhs.formatClass = .infinity then .bothInfinity else .lhsIsInfinity
  else .rhsIsInfinity

structure AlignedOperands where
  lhsCoefficient : Nat
  rhsCoefficient : Nat
  exponent : Int
  deriving DecidableEq, Repr

/-- The operand with the larger exponent is scaled up to the other exponent, as
far as the precision goes; by the overflow beyond that, which may be 0, the
other one is scaled down. -/
def alignOperands (lhs rhs : Decimal) : Option AlignedOperands :=
  if rhs.exponent < lhs.exponent then do
    let numberOfLHSDigits ← countDigits lhs.coefficient
    if numberOfLHSDigits = 0 then some ⟨lhs.coefficient, rhs.coefficient, rhs.exponent⟩
    else
      let lhsShiftAmount := (lhs.exponent - rhs.exponent).toNat
      let overflow := numberOfLHSDigits + lhsShiftAmount - Precision
      some ⟨← scaleUp lhs.coefficient (lhsShiftAmount - overflow),
        scaleDown rhs.coefficient overflow, rhs.exponent + overflow⟩
  else if lhs.exponent < rhs.exponent then do
    let numberOfRHSDigits ← countDigits rhs.coefficient
    if numberOfRHSDigits = 0 then some ⟨lhs.coefficient, rhs.coefficient, lhs.exponent⟩
    else
      let rhsShiftAmount := (rhs.exponent - lhs.exponent).toNat
      let overflow := numberOfRHSDigits + rhsShiftAmount - Precision
      some ⟨scaleDown lhs.coefficient overflow,
        ← scaleUp rhs.coefficient (rhsShiftAmount - overflow), lhs.exponent + overflow⟩
  else some ⟨lhs.coefficient, rhs.coefficient, lhs.exponent⟩

/-- The exact result of an operation that is read as an `int64_t`. -/
def int64 (number : Int) : Option Int :=
  if -2 ^ 63 ≤ number ∧ number < 2 ^ 63 then some number else none

/-- The end of `operator+` and `operator-`. -/
def ofResult (lhsSign : Sign) (exponent result : Int) : Decimal :=
  if 0 ≤ result then encode lhsSign exponent result.toNat
  else encode lhsSign.invert exponent (-result).toNat

/-- `operator+`. -/
def add (lhs rhs : Decimal) : Option Decimal :=
  match handle lhs rhs with
  | .bothFinite => do
    let aligned ← alignOperands lhs rhs
    let result ← int64 (if lhs.sign = rhs.sign then
      aligned.lhsCoefficient + aligned.rhsCoefficient
      else aligned.lhsCoefficient - aligned.rhsCoefficient)
    if lhs.sign = .negative ∧ rhs.sign = .positive ∧ result = 0 then
      some (encode .positive aligned.exponent 0)
    else some (ofResult lhs.sign aligned.exponent result)
  | .bothInfinity => some (if lhs.sign = rhs.sign then lhs else nan)
  | .eitherNaN value => some value
  | .lhsIsInfinity => some lhs
  | .rhsIsInfinity => some rhs

/-- `operator-`. -/
def sub (lhs rhs : Decimal) : Option Decimal :=
  match handle lhs rhs with
  | .bothFinite => do
    let aligned ← alignOperands lhs rhs
    let result ← int64 (if lhs.sign = rhs.sign then
      aligned.lhsCoefficient - aligned.rhsCoefficient
      else aligned.lhsCoefficient + aligned.rhsCoefficient)
    if lhs.sign = .negative ∧ rhs.sign = .negative ∧ result = 0 then
      some (encode .positive aligned.exponent 0)
    else some (ofResult lhs.sign aligned.exponent result)
  | .bothInfinity => some (if lhs.sign = rhs.sign then nan else lhs)
  | .eitherNaN value => some value
  | .lhsIsInfinity => some lhs
  | .rhsIsInfinity => some (infinity rhs.sign.invert)

/-- The sign of a product and of a quotient. -/
def resultSign (lhs rhs : Decimal) : Sign := if lhs.sign = rhs.sign then .positive else .negative

/-- `operator*`. -/
def mul (lhs rhs : Decimal) : Option Decimal :=
  match handle lhs rhs with
  | .bothFinite => do
    let work ← UInt128.multiply lhs.coefficient rhs.coefficient
    let (low, resultExponent) ← dropHigh 64 work (lhs.exponent + rhs.exponent)
    some (encode (resultSign lhs rhs) resultExponent low)
  | .bothInfinity => some (infinity (resultSign lhs rhs))
  | .eitherNaN value => some value
  | .lhsIsInfinity => some (if rhs.isZero then nan else infinity (resultSign lhs rhs))
  | .rhsIsInfinity => some (if lhs.isZero then nan else infinity (resultSign lhs rhs))

def compareTo (lhs rhs : Decimal) : Option Decimal := do
  let result ← sub lhs rhs
  match result.formatClass with
  | .infinity => some (if result.sign = .negative then ofInt32 (-1) else ofInt32 1)
  | .nan | .normal => some result
  | .zero => some (zero .positive)

/-- `operator==`. -/
def eq (lhs rhs : Decimal) : Option Bool :=
  if lhs = rhs then some true else do some (← compareTo lhs rhs).isZero

/-- `operator!=`. -/
def ne (lhs rhs : Decimal) : Option Bool :=
  if lhs = rhs then some false
  else do
    let result ← compareTo lhs rhs
    some (result.formatClass ≠ .nan && !result.isZero)

/-- `operator<`. -/
def lt (lhs rhs : Decimal) : Option Bool := do
  let result ← compareTo lhs rhs
  some (result.formatClass ≠ .nan && !result.isZero && result.sign = .negative)

/-- `operator<=`. -/
def le (lhs rhs : Decimal) : Option Bool :=
  if lhs = rhs then some true
  else do
    let result ← compareTo lhs rhs
    some (result.formatClass ≠ .nan && (result.isZero || result.sign = .negative))

/-- `operator>`. -/
def gt (lhs rhs : Decimal) : Option Bool := do
  let result ← compareTo lhs rhs
  some (result.formatClass ≠ .nan && !result.isZero && result.sign = .positive)

/-- `operator>=`. -/
def ge (lhs rhs : Decimal) : Option Bool :=
  if lhs = rhs then some true
  else do
    let result ← compareTo lhs rhs
    some (result.formatClass ≠ .nan && (result.isZero || result.sign ≠ .negative))

/-- `ceiling` and `floor`, which round the numbers of one sign away from zero. -/
def roundAway (away : Sign) (number : Decimal) : Option Decimal :=
  if !number.isFinite then some number
  else if 0 ≤ number.exponent then some number
  else do
    let numberOfDigits ← countDigits number.coefficient
    let numberOfDropDigits := (-number.exponent).toNat
    if numberOfDigits < numberOfDropDigits then
      some (if number.sign = away then ofInt32 (if away = .positive then 1 else -1)
        else zero .positive)
    else
      let result := scaleDown number.coefficient (numberOfDropDigits - 1)
      let result ← (if number.sign = away ∧ 0 < result % 10 then word (result + 10)
        else some result)
      some (encode number.sign 0 (result / 10))

def ceiling : Decimal → Option Decimal := roundAway .positive

def floor : Decimal → Option Decimal := roundAway .negative

end Decimal
end PalmWebKit
